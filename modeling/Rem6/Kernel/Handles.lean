import Rem6.Kernel.Occurrences

/-!
# Handles

The id a scheduling call answers with is the handle of the event it put in: as
long as the event is pending, cancelling or rescheduling by the id takes or moves
that event and no other, and afterwards the id finds nothing.

That holds for calls that put their event into a queue at once and are not
undone. It does not hold for an event a parallel callback sends to another
partition, which gets its id at the barrier while the call has answered with a
count of the sender's; the answer may be the id of some other event there. Nor
does it hold for what a callback queued before it panicked. A checkpoint call that
sets an id counter back makes ids come back, and so does a counter that comes round.

## Main definitions

* `Names`: An id names a pending event.
* `Unused`: An id finds nothing.
* `TakenOut`: One of the commands took the event out.

## Theorems

* `handle_names_event`: The handle names its event or finds nothing.
-/

namespace Rem6.Kernel

open Lib PartitionedScheduler List

variable {κ ω σ : Type} {callbacks : Callbacks κ ω σ}

section Calls

theorem PartitionedScheduler.setQueue_self (s : PartitionedScheduler κ) (p : Nat) :
    s.setQueue p (s.queues p) = s := by
  unfold setQueue
  rw [Function.update_eq_self]

theorem removeEvent_of_pending {p} {q : PartitionQueue κ} {e : PartitionEvent κ}
    (hfresh : Fresh p q) (he : e ∈ q.pending) :
    ∃ rest, q.removeEvent e.id = (some e, rest) ∧
      q.pending.items.Perm (e :: rest.pending.items) := by
  have hperm := removeEvent_perm q e.id
  rcases removeEvent_spec q e.id with ⟨-, -, -, -, hfound, -⟩
  rcases hremoved : q.removeEvent e.id with ⟨_ | ev, rest⟩
  · rw [hremoved] at hfound
    have habsent := find?_eq_none.mp hfound.symm e he
    exact absurd (decide_eq_true rfl) habsent
  · rw [hremoved] at hfound hperm
    have hid := id_of_find hfound.symm
    have hsame : ev = e := hfresh.unique (mem_of_find?_eq_some hfound.symm) he hid
    rw [hsame] at hperm ⊢
    exact ⟨rest, rfl, hperm.symm⟩

variable {id : PartitionEventId}

theorem removeEvent_of_absent {q : PartitionQueue κ} (habsent : ∀ e ∈ q.pending, e.id ≠ id) :
    q.removeEvent id = (none, q) := by
  have hnone : q.pending.items.find? (·.id = id) = none :=
    find?_eq_none.mpr (fun e he heq => habsent e he (of_decide_eq_true heq))
  unfold PartitionQueue.removeEvent
  rw [hnone]

/-- An id names a pending event: cancelling by it takes that event and nothing
    else, and rescheduling moves that event and nothing else. -/
structure Names (s : PartitionedScheduler κ) (id : PartitionEventId) (e : PartitionEvent κ) :
    Prop where
  pending : e ∈ (s.queues id.partition).pending
  cancels : ∃ queue, s.cancelEvent id = (.ok (), s.setQueue id.partition queue) ∧
    (s.queues id.partition).pending.items.Perm (e :: queue.pending.items)
  reschedules : ∀ tick, (tick < (s.queues id.partition).now ∧
      s.rescheduleEvent id tick
        = (.error (.inThePast id.partition (s.queues id.partition).now tick), s)) ∨
    ∃ queue rest, s.rescheduleEvent id tick = (.ok (), s.setQueue id.partition queue) ∧
      (s.queues id.partition).pending.items.Perm (e :: rest) ∧
      queue.pending.items.Perm ({ e with tick } :: rest)

/-- An id finds nothing: neither call changes anything. -/
structure Unused (s : PartitionedScheduler κ) (id : PartitionEventId) : Prop where
  cancels : s.cancelEvent id = (.error (.eventNotPending id), s)
  reschedules : ∀ tick, s.rescheduleEvent id tick = (.error (.eventNotPending id), s)

variable {s : PartitionedScheduler κ}

theorem names_of_pending {e : PartitionEvent κ}
    (hp : id.partition < s.partitionCount)
    (hfresh : Fresh id.partition (s.queues id.partition)) (he : e ∈ (s.queues id.partition).pending)
    (hid : e.id = id) : Names s id e := by
  rcases removeEvent_of_pending hfresh he with ⟨rest, hremoved, hperm⟩
  rw [hid] at hremoved
  have hcon : (s.queues id.partition).containsEvent id = true :=
    any_eq_true.mpr ⟨e, he, decide_eq_true hid⟩
  refine ⟨he, ⟨rest, ?_, hperm⟩, fun tick => ?_⟩
  · simp [cancelEvent, onPartition, PartitionQueue.cancelEvent, if_pos hp, hremoved]
  · by_cases htk : tick < (s.queues id.partition).now
    · refine .inl ⟨htk, ?_⟩
      simp [rescheduleEvent, onPartition, PartitionQueue.rescheduleEvent, if_pos hp, hcon,
        if_pos htk, s.setQueue_self]
    · refine .inr ⟨{ rest with pending := rest.pending.push { e with tick } },
        rest.pending.items, ?_, hperm, perm_orderedInsert _ _ _⟩
      simp [rescheduleEvent, onPartition, PartitionQueue.rescheduleEvent, if_pos hp, hcon,
        if_neg htk, hremoved]

theorem unused_of_absent (hp : id.partition < s.partitionCount)
    (habsent : ∀ e ∈ (s.queues id.partition).pending, e.id ≠ id) : Unused s id := by
  have hcon : (s.queues id.partition).containsEvent id = false :=
    any_eq_false.mpr (fun e he heq => habsent e he (of_decide_eq_true heq))
  refine ⟨?_, fun tick => ?_⟩
  · simp [cancelEvent, onPartition, PartitionQueue.cancelEvent, if_pos hp, removeEvent_of_absent
      habsent, s.setQueue_self]
  · simp [rescheduleEvent, onPartition, PartitionQueue.rescheduleEvent, if_pos hp, hcon,
      s.setQueue_self]

end Calls

section Handles

/-- One of the commands took the event out: a dispatch, a cancelling call or a
    checkpoint call. -/
def TakenOut (p : Nat) (e : PartitionEvent κ)
    (entries : List ((Nat × Command κ) × Outcome κ ω σ)) (queue queue' : PartitionQueue κ) : Prop :=
  ∃ front label back a b, Trace (QueueMove p) queue front a ∧ TakenBy p e label a b ∧
    Trace (QueueMove p) b back queue' ∧ ∃ entry ∈ entries,
      (∃ d ∈ entry.2.dispatches, d.partition = p ∧ label = .dispatched d.event) ∨
      (∃ event, label = .cancelled event ∧ entry.1.2 = .cancelEvent event.id) ∨
      ∃ lowered lowered', label = .restored lowered ∧
        Posting.restored lowered' ∈ entry.2.allPostings

/-- A scheduling call answered with an id for an event it put in, and the call was
    not undone. -/
def Answered (outcome : Outcome κ ω σ) (id : PartitionEventId) (e : PartitionEvent κ) : Prop :=
  Posting.queued id e ∈ outcome.postings ∨
    ∃ d ∈ outcome.dispatches, d.ending = .returned ∧ Posting.queued id e ∈ d.postings

variable {e : PartitionEvent κ}

theorem Answered.posted {oc : Outcome κ ω σ} {id : PartitionEventId} (h : Answered oc id e) :
    Posting.queued id e ∈ oc.allPostings := by
  rcases h with hown | ⟨d, hd, -, hpos⟩
  · exact mem_append_left _ hown
  · exact mem_append_right _ (mem_flatMap.mpr ⟨d, hd, hpos⟩)

variable {labels : List (QueueLabel κ)}

theorem Answered.queued {cmd} {oc : Outcome κ ω σ} {id : PartitionEventId}
    (h : Answered oc id e)
    (hexp : Explained e.id.partition cmd oc labels) : QueueLabel.queued e ∈ labels := by
  have hmem : e ∈ queuedOf labels := by
    rw [hexp.queued]
    refine mem_filter.mpr ⟨?_, decide_eq_true rfl⟩
    rcases h with hown | ⟨d, hd, hend, hpos⟩
    · exact mem_append_left _ ((mem_queuedBy _).mpr ⟨id, hown⟩)
    · refine mem_append_right _ (mem_flatMap.mpr ⟨d, ?_, (mem_queuedBy _).mpr ⟨id, hpos⟩⟩)
      exact mem_filter.mpr ⟨hd, decide_eq_true hend⟩
  rcases mem_filterMap.mp hmem with ⟨label, hlab, hsome⟩
  cases label with
  | queued ev => exact (Option.some.inj hsome) ▸ hlab
  | _ => cases hsome

/-- A history that sets no id counter back: no checkpoint call lowered one, no run was
    out of room on the tick scale, and no counter came round. -/
def KeepsHandles (outcomes : List (Outcome κ ω σ)) : Prop :=
  ∀ outcome ∈ outcomes, Posting.restored true ∉ outcome.allPostings ∧
    ¬ Overflows outcome.error ∧ outcome.Roomy

variable {ocs : List (Outcome κ ω σ)}

theorem HistoryMoves.keepsIds {p cmds}
    (h : HistoryMoves p cmds ocs labels) (hkeeps : KeepsHandles ocs) :
    ∀ label ∈ labels, KeepsIds label := by
  intro label hmem
  rcases h label hmem with ⟨entry, hent, part, hpart, hexp⟩
  rcases hkeeps entry.2 (of_mem_zip hent).2 with ⟨hlow, hroom, -⟩
  cases label with
  | restored lowered =>
    cases lowered with
    | false => rfl
    | true =>
      rcases hexp.restored true hpart with ⟨lowered', hpos, himp⟩
      rw [himp rfl] at hpos
      exact absurd hpos hlow
  | lost => exact absurd (hexp.lost hpart) hroom
  | _ => trivial

theorem HistoryMoves.takenOut {p cmds label queue front a b back queue'}
    (h : HistoryMoves p cmds ocs labels) (hkeeps : KeepsHandles ocs)
    (hmem : label ∈ labels) (hfront : Trace (QueueMove p) queue front a)
    (htaken : TakenBy p e label a b) (hback : Trace (QueueMove p) b back queue') :
    TakenOut p e (cmds.zip ocs) queue queue' := by
  have hids := h.keepsIds hkeeps label hmem
  rcases h label hmem with ⟨entry, hent, part, hpart, hexp⟩
  refine ⟨front, label, back, a, b, hfront, htaken, hback, entry, hent, ?_⟩
  have hleaves := htaken.leaves
  cases label with
  | dispatched event =>
    have hdispatched : event ∈ dispatchedOf part := mem_filterMap.mpr ⟨_, hpart, rfl⟩
    rw [hexp.dispatched] at hdispatched
    rcases mem_map.mp hdispatched with ⟨d, hd, rfl⟩
    rcases mem_filter.mp hd with ⟨hd, hpartition⟩
    exact .inl ⟨d, hd, of_decide_eq_true hpartition, rfl⟩
  | cancelled event => exact .inr (.inl ⟨event, rfl, hexp.cancelled event hpart⟩)
  | restored lowered =>
    rcases hexp.restored lowered hpart with ⟨lowered', hpos, -⟩
    exact .inr (.inr ⟨lowered, lowered', rfl, hpos⟩)
  | lost => exact absurd hids not_false
  | queued event | arrived | passed rolledBack | rescheduled => exact absurd hleaves not_false

variable (callbacks) in
/-- The handle of an event, after any history in which no counter came round and that
    set no id counter back since: it names the event, or the event was taken out and
    it finds nothing. -/
theorem handle_names_event (instanceId partitions minRemoteDelay maxParallelWorkers : Nat)
    (s : PartitionedScheduler κ) (world : ω) (stores : Nat → σ)
    (commands later : List (Nat × Command κ)) (outcomes outcomes' : List (Outcome κ ω σ))
    (m m' : Machine κ ω σ) (rounds : Nat) (command : Command κ) (outcome : Outcome κ ω σ)
    (id : PartitionEventId) (e : PartitionEvent κ)
    (hnew : withParallelWorkerLimit instanceId partitions minRemoteDelay maxParallelWorkers = .ok s)
    (hrun : performAll callbacks commands ⟨s, world, stores⟩ = some (outcomes, m))
    (hroomy : ∀ outcome ∈ outcomes, Outcome.Roomy outcome)
    (hperform : perform callbacks rounds m command = some outcome)
    (hanswered : Answered outcome id e)
    (hlater : performAll callbacks later outcome.machine = some (outcomes', m'))
    (hkeeps : KeepsHandles (outcome :: outcomes')) :
    (∃ now, Occurs e now ∧ Names m'.scheduler id now) ∨
      Unused m'.scheduler id ∧ ∃ labels queue,
        Trace (QueueMove id.partition) (m.scheduler.queues id.partition) labels queue ∧
        e ∈ queue.pending ∧ TakenOut id.partition e
          (((rounds, command) :: later).zip (outcome :: outcomes')) queue
          (m'.scheduler.queues id.partition) := by
  have hfresh := performAll_fresh (new_fresh hnew) hrun hroomy
  have hmoves := perform_moves hfresh.tokened hperform
  have hposted := hmoves.known id e hanswered.posted
  rcases hmoves.moves e.id.partition hposted with ⟨labels, htrace, hexplained⟩
  obtain ⟨⟨-, -, hroomyCall⟩, hkeepsLater⟩ := forall_mem_cons.mp hkeeps
  have hroomyLater : ∀ outcome ∈ outcomes', Outcome.Roomy outcome :=
    fun outcome hmem => (hkeepsLater outcome hmem).2.2
  have hfreshAfter := hmoves.fresh hfresh hroomyCall
  rcases performAll_moves later outcomes' outcome.machine m' hfreshAfter.tokened hlater with
    ⟨hshape, hmovesLater⟩
  have hpAfter : e.id.partition < outcome.machine.scheduler.partitionCount := by
    rwa [hmoves.shape.partitionCount]
  rcases hmovesLater e.id.partition hpAfter with ⟨labelsLater, htraceLater, hhistory⟩
  rw [hexplained.handles id e hanswered.posted]
  have hp : e.id.partition < m'.scheduler.partitionCount := by
    rwa [hshape.partitionCount]
  have hfreshLast := performAll_fresh hfreshAfter hlater hroomyLater e.id.partition hp
  -- From the state right after the event was put in.
  have hclean := (trace_clean htrace (hfresh _ hposted) (hexplained.roomy hroomyCall)).1
  rcases hclean.split (hanswered.queued hexplained) with
    ⟨front, back, a, queue, rfl, hfront, hqueued, hback⟩
  have hfreshQueue := hqueued.move.fresh hqueued.fresh hqueued.roomy
  have he : e ∈ queue.pending := by
    rcases hqueued.move.added e rfl with ⟨tick, callback, hnext, rfl⟩
    exact (PartitionQueue.mem_enqueue ..).mpr (.inl hnext)
  have hsince := hback.append
    (trace_clean htraceLater (hfreshAfter _ hpAfter) (hhistory.roomy hroomyLater)).1
  have haccounted : HistoryMoves e.id.partition ((rounds, command) :: later)
      (outcome :: outcomes') (front ++ QueueLabel.queued e :: back ++ labelsLater) :=
    .cons hexplained hhistory
  have hmem : ∀ label ∈ back ++ labelsLater,
      label ∈ front ++ QueueLabel.queued e :: back ++ labelsLater := by
    intro label hlabel
    rw [append_assoc, cons_append]
    exact mem_append_right _ (mem_cons_of_mem _ hlabel)
  have hold := (ids_number.old (hsince.allowed fun label hlabel =>
    haccounted.keepsIds hkeeps label (hmem label hlabel))).2
  -- Whatever has the id now is the event.
  have honly : ∀ now ∈ (m'.scheduler.queues e.id.partition).pending, now.id = e.id →
      Occurs e now := by
    intro now hnow hid
    rcases hold now hnow (hid ▸ (hfreshQueue.below e he).1.1) with ⟨old, hmemOld, hsame⟩
    have heq := hfreshQueue.unique hmemOld he (hsame.id.symm.trans hid)
    exact heq ▸ hsame
  by_cases hstill : ∃ now ∈ (m'.scheduler.queues e.id.partition).pending, Occurs e now
  · rcases hstill with ⟨now, hnow, hsame⟩
    exact .inl ⟨now, hsame, names_of_pending hp hfreshLast hnow hsame.id⟩
  · rcases trace_fate hsince ⟨e, he, .refl e⟩ with
      hpending | ⟨front', label, back', b, c, hlabels, hfront', htaken, hback'⟩
    · exact absurd hpending hstill
    · refine .inr ⟨unused_of_absent hp (fun now hnow hid => ?_), _, queue,
        (hfront.snoc hqueued).mono fun _ _ _ hmove => hmove.move, he, ?_⟩
      · exact hstill ⟨now, hnow, honly now hnow hid⟩
      · refine haccounted.takenOut hkeeps (hmem label ?_) hfront' htaken hback'
        rw [hlabels]
        exact mem_append_right _ mem_cons_self

/-- An event that is moved and then cancelled by its handle. -/
theorem handle_names_event_moved :
    ∃ s outcomes outcomes' m m' outcome id e, withParallelWorkerLimit 0 2 1 2 = .ok s ∧ performAll
      sends [(1, .scheduleAt 1 5 true)] ⟨s, (), fun _ => ()⟩ = some (outcomes, m) ∧ perform sends 1
      m (.scheduleAt 1 7 false) = some outcome ∧ Answered outcome id e ∧
      performAll sends [(1, .rescheduleEvent id 2), (1, .scheduleAt 1 2 false)] outcome.machine
        = some (outcomes', m') ∧
      ∃ now, Occurs e now ∧ Names m'.scheduler id now := by
  refine ⟨_, _, _, _, _, _, ⟨1, 1⟩, _, rfl, rfl, rfl, .inl (mem_singleton.mpr rfl), rfl, ?_⟩
  refine (handle_names_event sends 0 2 1 2 _ () (fun _ => ()) [(1, .scheduleAt 1 5 true)]
    [(1, .rescheduleEvent ⟨1, 1⟩ 2), (1, .scheduleAt 1 2 false)] _ _ _ _ 1 (.scheduleAt 1 7 false)
    _ ⟨1, 1⟩ _ rfl rfl ?_ rfl (.inl (mem_singleton.mpr rfl)) rfl ?_).resolve_right ?_
  · exact forall_mem_singleton.mpr (.of_queued rfl (by decide))
  · intro outcome houtcome
    simp only [mem_cons, not_mem_nil, or_false] at houtcome
    refine ⟨?_, ?_, ?_⟩
    · rcases houtcome with rfl | rfl | rfl <;> decide
    · rintro ⟨p, now, delay, herror⟩
      rcases houtcome with rfl | rfl | rfl <;> cases herror
    · rcases houtcome with rfl | rfl | rfl <;> exact .of_queued rfl (by decide)
  · rintro ⟨hunused, -⟩
    have hresult : Except.ok () = Except.error (SchedulerError.eventNotPending ⟨1, 1⟩) :=
      congrArg Prod.fst hunused.cancels
    cases hresult

/-- The handle of an event sent to another partition names an older event there:
    cancelling by it takes the older one and leaves the sent one. -/
theorem sent_handle_names_another :
    ∃ s outcomes m m' id r, withParallelWorkerLimit 0 2 1 2 = .ok s ∧
      performAll sends [(1, .scheduleParallelAt 1 9 true), (1, .scheduleParallelAt 0 1 true),
        (3, .runNextEpochParallel)] ⟨s, (), fun _ => ()⟩ = some (outcomes, m) ∧
      outcomes.map (·.error) = [none, none, none] ∧
      (∃ outcome ∈ outcomes, ∃ d ∈ outcome.dispatches, d.ending = .returned ∧
        Posting.sent id r ∈ d.postings) ∧
      r.target = 1 ∧ r.tick = 2 ∧
      (m.scheduler.queues 1).pending.items.map (fun e => (e.tick, e.id)) =
        [(2, ⟨1, 1⟩), (9, ⟨1, 0⟩)] ∧
      m.scheduler.cancelEvent id = (.ok (), m') ∧
      (m'.queues 1).pending.items.map (fun e => (e.tick, e.id)) = [(2, ⟨1, 1⟩)] := by
  refine ⟨_, _, _, _, ⟨1, 0⟩, ⟨0, 1, 1, 2, 0, true⟩, rfl, rfl, rfl, ?_, rfl, rfl, rfl, rfl, rfl⟩
  exact ⟨_, mem_cons_of_mem _ (mem_cons_of_mem _ (mem_singleton.mpr rfl)), _,
    mem_singleton.mpr rfl, rfl, mem_singleton.mpr rfl⟩

end Handles

end Rem6.Kernel
