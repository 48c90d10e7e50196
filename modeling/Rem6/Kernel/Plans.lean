import Rem6.Kernel.Occurrences

/-!
# Plans That Are Not Stale

A plan is tied to the events it was made for by their tokens. Whatever is done
to the scheduler between making the plan and using it, a plan that is accepted
still speaks of the same occurrences at the same ticks: the heads of the
partitions it lists as ready, and the serial events up to its horizon.

The plan is compared with the one the scheduler would make now. Equal tokens
then mean equal occurrences, since tokens are never handed out twice.

A plan can also be turned down because there is no room on the tick scale. That
test comes before the comparison, so it says nothing about the plan.

## Main definitions

* `Unchanged`: What an accepted plan says about the two states.
* `Rejected`: A run that turned the plan down without running anything.

## Theorems

* `plan_not_stale`: An accepted plan speaks of the events it was made for.
-/

namespace Rem6.Kernel

open Lib PartitionedScheduler

variable {κ ω σ : Type} {callbacks : Callbacks κ ω σ}

section Plans

variable {s : PartitionedScheduler κ} {plan : ParallelEpochPlan}

theorem PlanFor.blockers (h : PlanFor s plan) :
    s.serialBlockersWithTokensAtOrBefore plan.horizon
      = plan.serialBlockers.zip (plan.serialBlockerTokens.map (·.2)) := by
  rcases h with ⟨limit, hplan⟩
  unfold planNextParallelEpochWithLimit at hplan
  split at hplan
  · cases hplan
  cases hplan
  simp only [List.map_map, List.zip_map']
  exact (List.map_id _).symm

theorem PlanFor.mem_readyEventTokens (h : PlanFor s plan) (p token : Nat) :
    (p, token) ∈ plan.readyEventTokens ↔ (∃ tick, (tick, p) ∈ plan.readyPartitions) ∧
      ∃ e, (s.queues p).pending.peek = some e ∧ e.token = token := by
  rcases h with ⟨limit, hplan⟩
  unfold planNextParallelEpochWithLimit at hplan
  split at hplan
  · cases hplan
  cases hplan
  simp only [List.mem_filterMap, Option.map_eq_some_iff, Prod.mk.injEq]
  constructor
  · rintro ⟨⟨tick, p'⟩, hready, e, hpeek, rfl, htok⟩
    exact ⟨⟨tick, hready⟩, e, hpeek, htok⟩
  · rintro ⟨⟨tick, hready⟩, e, hpeek, htok⟩
    exact ⟨(tick, p), hready, e, hpeek, rfl, htok⟩

variable {tick p : Nat}

theorem PlanFor.head (h : PlanFor s plan) (hready : (tick, p) ∈ plan.readyPartitions) :
    p < s.partitionCount ∧ ∃ e, (s.queues p).pending.peek = some e ∧ e.tick = tick := by
  rcases h.ready _ hready with ⟨hp, hpeek, -⟩
  rcases Option.map_eq_some_iff.mp hpeek with ⟨e, he, htk⟩
  exact ⟨hp, e, he, htk⟩

/-- An event of a later queue with the token and the tick of an old event is that
    event. -/
theorem same_of_token {κ} {q q' : PartitionQueue κ} {labels : List (QueueLabel κ)}
    {e e' : PartitionEvent κ} (htr : Trace (QueueMove p) q labels q')
    (hlost : QueueLabel.lost ∉ labels)
    (htokened : Tokened p q) (he : e ∈ q.pending) (he' : e' ∈ q'.pending)
    (htok : e'.token = e.token) (htk : e'.tick = e.tick) : e' = e := by
  have hissued := (htokened.issued e he).2
  have hold := (tokens_number.old
    (htr.allowed fun label hmem heq => hlost (heq ▸ hmem))).2 e' he' (htok ▸ hissued)
  rcases hold with ⟨old, hmem, hsame⟩
  have heq := htokened.unique hmem he (hsame.token.symm.trans htok)
  rw [hsame, heq, htk]

/-- What an accepted plan says about the state `s` it was made in and the state
    `s'` it is accepted in: the heads of the partitions it lists and the serial
    events up to its horizon are the same events at the same ticks. -/
structure Unchanged (plan : ParallelEpochPlan) (s s' : PartitionedScheduler κ) : Prop where
  heads : ∀ tick p, (tick, p) ∈ plan.readyPartitions → ∃ e,
    (s.queues p).pending.peek = some e ∧ (s'.queues p).pending.peek = some e ∧ e.tick = tick
  serial : ∀ p < s.partitionCount, ∀ e, e.isSerial = true → e.tick ≤ plan.horizon →
    (e ∈ (s'.queues p).pending ↔ e ∈ (s.queues p).pending)

/-- A serial event up to the horizon, seen through the blockers of a plan that
    two schedulers make. -/
theorem PlanFor.serial_elsewhere {κ e} {s' : PartitionedScheduler κ} (h : PlanFor s plan)
    (h' : PlanFor s' plan)
    (hp : p < s.partitionCount) (he : e ∈ (s.queues p).pending) (hserial : e.isSerial = true)
    (htk : e.tick ≤ plan.horizon) :
    ∃ e' ∈ (s'.queues p).pending, e'.token = e.token ∧ e'.tick = e.tick := by
  have hmem := (s.mem_serialBlockersWithTokens plan.horizon _).mpr ⟨p, hp, e, he, htk, hserial, rfl⟩
  rw [h.blockers, ← h'.blockers] at hmem
  rcases (s'.mem_serialBlockersWithTokens plan.horizon _).mp hmem with
    ⟨q, hq, e', he', -, -, heq⟩
  simp only [PartitionEvent.dispatchRecord, Prod.mk.injEq, SchedulerDispatchRecord.mk.injEq,
    PartitionEventId.mk.injEq] at heq
  rcases heq with ⟨⟨⟨rfl, -⟩, hticks, -⟩, htoks⟩
  exact ⟨e', he', htoks.symm, hticks.symm⟩

/-- Two schedulers that make the same plan, the second one reached from the first
    without losing anything. -/
theorem unchanged_of_plans {s'} (h : PlanFor s plan) (h' : PlanFor s' plan)
    (htokened : AllTokened s) (hcnt : s'.partitionCount = s.partitionCount)
    (htraces : ∀ p < s.partitionCount, ∃ labels,
      Trace (QueueMove p) (s.queues p) labels (s'.queues p) ∧ QueueLabel.lost ∉ labels) :
    Unchanged plan s s' := by
  refine ⟨fun tick p hready => ?_, fun p hp e hserial htk => ⟨fun he' => ?_, fun he => ?_⟩⟩
  · rcases h.head hready with ⟨hp, e, hpeek, htk⟩
    rcases h'.head hready with ⟨-, e', hpeek', htk'⟩
    rcases htraces p hp with ⟨labels, htr, hlost⟩
    have hlisted := (h.mem_readyEventTokens p e.token).mpr ⟨⟨tick, hready⟩, e, hpeek, rfl⟩
    rcases ((h'.mem_readyEventTokens p e.token).mp hlisted).2 with ⟨e'', hpeek'', htok⟩
    rw [hpeek', Option.some.injEq] at hpeek''
    subst hpeek''
    have heq := same_of_token htr hlost (htokened p hp) (Agenda.peek_mem _ hpeek)
      (Agenda.peek_mem _ hpeek') htok (htk'.trans htk.symm)
    exact ⟨e, hpeek, heq ▸ hpeek', htk⟩
  · rcases htraces p hp with ⟨labels, htr, hlost⟩
    rcases h'.serial_elsewhere h (hcnt.symm ▸ hp) he' hserial htk with
      ⟨old, hold, htok, hticks⟩
    have heq := same_of_token htr hlost (htokened p hp) hold he' htok.symm hticks.symm
    rwa [heq]
  · rcases htraces p hp with ⟨labels, htr, hlost⟩
    rcases h.serial_elsewhere h' hp he hserial htk with
      ⟨e', he', htok, hticks⟩
    rwa [← same_of_token htr hlost (htokened p hp) he he' htok hticks]

/-- A run that turned its plan down without running anything. -/
def Rejected (run : EpochRun κ ω σ) : Prop :=
  run.dispatches = [] ∧
    (errorOf run.result = some .staleParallelEpochPlan ∨ Overflows (errorOf run.result))

variable (callbacks) in
/-- A plan that is not turned down is the one the scheduler would make now. -/
theorem planFor_of_not_rejected {m}
    (h : ∀ run, runNextMixedEvent callbacks plan m = some run → ¬ Rejected run) :
    PlanFor m.scheduler plan := by
  cases hval : m.scheduler.validateParallelEpochPlan plan with
  | ok _ => exact ⟨_, planFor_of_validate hval⟩
  | error error =>
    have hrun : runNextMixedEvent callbacks plan m = some ⟨.error error, m, [], []⟩ := by
      unfold runNextMixedEvent
      rw [hval]
    refine absurd ⟨rfl, ?_⟩ (h _ hrun)
    rcases validate_error hval with rfl | ⟨p, now, delay, rfl⟩
    · exact .inl rfl
    · exact .inr ⟨p, now, delay, rfl⟩

variable (callbacks) in
/-- A plan made after any history, and used after any further history in which no
    run was out of room on the tick scale: unless it is turned down, it speaks of
    the events it was made for, and no event put in since has the token of one of
    them. -/
theorem plan_not_stale (instanceId partitions minRemoteDelay maxParallelWorkers : Nat)
    (s : PartitionedScheduler κ) (world : ω) (stores : Nat → σ)
    (commands later : List (Nat × Command κ)) (outcomes outcomes' : List (Outcome κ ω σ))
    (m m' : Machine κ ω σ) (plan : ParallelEpochPlan)
    (hnew : withParallelWorkerLimit instanceId partitions minRemoteDelay maxParallelWorkers = .ok s)
    (hrun : performAll callbacks commands ⟨s, world, stores⟩ = some (outcomes, m))
    (hplan : m.scheduler.planNextParallelEpoch = .ok (some plan) ∨
      ∃ tickLimit, m.scheduler.planNextParallelEpochUntil tickLimit = .ok (some plan))
    (hlater : performAll callbacks later m = some (outcomes', m'))
    (hroom : ∀ outcome ∈ outcomes', ¬ Overflows outcome.error)
    (haccepted : ∀ run, runNextMixedEvent callbacks plan m' = some run → ¬ Rejected run) :
    Unchanged plan m.scheduler m'.scheduler ∧
      ∀ p < m.scheduler.partitionCount, ∃ labels, Trace (QueueMove p) (m.scheduler.queues p) labels
        (m'.scheduler.queues p) ∧ HistoryMoves p later outcomes' labels ∧
        ∀ label ∈ labels, ∀ added, label.added? = some added →
          ∀ e ∈ (m.scheduler.queues p).pending, e.token ≠ added.token := by
  have htokened := performAll_tokened (new_fresh hnew).tokened hrun
  rcases performAll_moves later outcomes' m m' htokened hlater with ⟨hshape, hmoves⟩
  have hmade : PlanFor m.scheduler plan := by
    rcases hplan with hnext | ⟨tickLimit, huntil⟩
    · exact ⟨none, planWithLimit_of_next hnext⟩
    · exact ⟨some tickLimit, (planWithLimit_of_until huntil).2⟩
  have htraces : ∀ p < m.scheduler.partitionCount, ∃ labels,
      Trace (QueueMove p) (m.scheduler.queues p) labels (m'.scheduler.queues p) ∧
      HistoryMoves p later outcomes' labels ∧ QueueLabel.lost ∉ labels := by
    intro p hp
    rcases hmoves p hp with ⟨labels, htrace, hhistory⟩
    refine ⟨labels, htrace, hhistory, fun hmem => ?_⟩
    rcases hhistory _ hmem with ⟨entry, hentry, part, hpart, hexplained⟩
    exact hroom entry.2 (List.of_mem_zip hentry).2 (hexplained.lost hpart)
  refine ⟨unchanged_of_plans hmade (planFor_of_not_rejected callbacks haccepted) htokened
    hshape.partitionCount (fun p hp => ?_), fun p hp => ?_⟩
  · rcases htraces p hp with ⟨labels, htrace, -, hlost⟩
    exact ⟨labels, htrace, hlost⟩
  · rcases htraces p hp with ⟨labels, htrace, hhistory, hlost⟩
    refine ⟨labels, htrace, hhistory, fun label hlabel added hadded e he heq => ?_⟩
    have hfirst := ((trace_tokens htrace hlost).2 label hlabel added hadded).1
    have hissued := ((htokened p hp).issued e he).2
    omega

/-- A plan used after its event was moved away and back. -/
theorem plan_not_stale_moved_back :
    ∃ s outcomes outcomes' m m' plan, withParallelWorkerLimit 0 1 5 1 = .ok s ∧ performAll panics
      [(1, .scheduleAt 0 4 false)] ⟨s, (), fun _ => ()⟩ = some (outcomes, m) ∧
      m.scheduler.planNextParallelEpoch = .ok (some plan) ∧
      performAll panics [(1, .rescheduleEvent ⟨0, 0⟩ 9), (1, .scheduleAt 0 6 false),
        (1, .cancelEvent ⟨0, 1⟩), (1, .rescheduleEvent ⟨0, 0⟩ 4)] m = some (outcomes', m') ∧
      plan.readyPartitions = [(4, 0)] ∧ Unchanged plan m.scheduler m'.scheduler := by
  refine ⟨_, _, _, _, _, _, rfl, rfl, rfl, rfl, rfl, ?_⟩
  refine (plan_not_stale panics 0 1 5 1 _ () (fun _ => ()) [(1, .scheduleAt 0 4 false)]
    [(1, .rescheduleEvent ⟨0, 0⟩ 9), (1, .scheduleAt 0 6 false), (1, .cancelEvent ⟨0, 1⟩),
      (1, .rescheduleEvent ⟨0, 0⟩ 4)] _ _ _ _ _ rfl rfl (.inl rfl) rfl ?_ ?_).1
  · intro outcome houtcome hoverflow
    rcases hoverflow with ⟨p, now, delay, herror⟩
    simp only [List.mem_cons, List.not_mem_nil, or_false] at houtcome
    rcases houtcome with rfl | rfl | rfl | rfl <;> cases herror
  · intro run hrun hrejected
    rw [← Option.some.inj hrun] at hrejected
    cases hrejected.1

/-- Near the end of the tick scale a plan is turned down for want of room, not as
    stale, though the head of its partition is another event. -/
theorem plan_out_of_room :
    ∃ s outcomes outcomes' m m' plan run e e', withParallelWorkerLimit 0 1 1 1 = .ok s ∧ performAll
      panics [(1, .scheduleAt 0 0 false)] ⟨s, (), fun _ => ()⟩ = some (outcomes, m) ∧
      m.scheduler.planNextParallelEpoch = .ok (some plan) ∧
      performAll panics [(1, .cancelEvent ⟨0, 0⟩),
        (1, .restoreQuiescent ⟨2 ^ 64 - 1, 1, 1, [⟨0, 2 ^ 64 - 1, 0, 0, 0, 0, []⟩]⟩),
        (1, .scheduleAt 0 (2 ^ 64 - 1) false)] m = some (outcomes', m') ∧
      outcomes'.map (·.error) = [none, none, none] ∧
      runNextMixedEvent panics plan m' = some run ∧
      errorOf run.result = some (.epochHorizonOverflow 0 (2 ^ 64 - 1) 1) ∧
      (0, 0) ∈ plan.readyPartitions ∧
      (m.scheduler.queues 0).pending.peek = some e ∧
      (m'.scheduler.queues 0).pending.peek = some e' ∧ e.token ≠ e'.token ∧ e.tick ≠ e'.tick :=
  ⟨_, _, _, _, _, _, _, _, _, rfl, rfl, rfl, rfl, rfl, rfl, rfl, by decide, rfl, rfl, by decide,
    by decide⟩

end Plans

end Rem6.Kernel
