import Rem6.Kernel.Alignment

/-!
# Epoch by Epoch and Event by Event

The serial dispatcher can run event by event until nothing is left, or epoch by
epoch, raising every clock to the horizon after each. For callbacks that only
use their context the two dispatch the same events, and the same scheduling
calls succeed.

The two runs differ in nothing but their clocks. So the runs are compared by
putting other clocks into one scheduler (`PartitionedScheduler.reclock`), and the
argument is that a callback does not see the difference: what it schedules in
its own partition is no earlier than its clock, and what it schedules in another
is the lookahead away, which no clock of the window is past (`Receptive`).

The epoch loop stops when an epoch dispatched nothing and left the scheduler's
tick where it was. With aligned clocks that cannot happen, since the horizon is
the lookahead past the scheduler's tick. After a parallel epoch in which a
callback panicked the slowest clock can be exactly the lookahead behind the
scheduler's tick. If every pending event is past that tick (`Stalled`), the loop
stops before it has dispatched any of them (`conservative_stops_early`).

## Main definitions

* `PartitionedScheduler.reclock`: The same scheduler with other clocks.
* `Receptive`: Clocks that refuse nothing a context schedules.
* `LoadedWith`: All events are serial, with labels of a set.
* `Sim`: Two machines that differ in their clocks only.
* `Stalled`: The epoch loop has events to dispatch and stops at once.

## Theorems

* `SerialProgram.run_reclock`: A callback does not see the clocks.
* `dispatch_reclock`: Neither does a dispatch.
* `conservative_trace`: An epoch-by-epoch run is an event-by-event run.
* `conservative_same_dispatches`: Both runs dispatch the same, unless it is stalled.
-/

namespace Rem6.Kernel

open Lib PartitionedScheduler Function

variable {κ ω σ : Type} {callbacks : Callbacks κ ω σ}

variable {p lo bound tick lo' bound' horizon rounds epochs : Nat}

variable {now tgt delay : Nat} {clocks : Nat → Nat} {cb : κ}
  {oc : Except SchedulerError PartitionEventId × PartitionedScheduler κ}

section Reclocking

variable (s : PartitionedScheduler κ)

/-- The clocks of the partitions. -/
def clocksOf (p : Nat) : Nat := (s.queues p).now

/-- The same scheduler with other clocks. -/
def PartitionedScheduler.reclock (now : Nat) (clocks : Nat → Nat) : PartitionedScheduler κ :=
  { s with now, queues := fun p => { s.queues p with now := clocks p } }

theorem reclock_setQueue {queue} :
    (s.setQueue p queue).reclock now clocks
      = (s.reclock now clocks).setQueue p { queue with now := clocks p } := by
  unfold reclock
  simp only [setQueue]
  congr 1
  funext q
  by_cases hq : q = p
  · rw [hq, update_self, update_self]
  · rw [update_of_ne hq, update_of_ne hq]

theorem clocksOf_setQueue {queue} :
    clocksOf (s.setQueue p queue) = update (clocksOf s) p queue.now := by
  funext q
  unfold clocksOf
  rw [queue_setQueue, update_apply]
  split <;> rfl

theorem scheduleAt_reclock {cb}
    (hs : tgt < s.partitionCount → clocksOf s tgt ≤ tick)
    (hclocks : tgt < s.partitionCount → clocks tgt ≤ tick) :
    (s.reclock now clocks).scheduleAt tgt tick cb
      = ((s.scheduleAt tgt tick cb).1, (s.scheduleAt tgt tick cb).2.reclock now clocks) := by
  unfold scheduleAt onPartition PartitionQueue.scheduleAt
  by_cases htgt : tgt < s.partitionCount
  · have htgt' : tgt < (s.reclock now clocks).partitionCount := htgt
    rw [if_pos htgt, if_pos htgt']
    simp only
    rw [PartitionQueue.scheduleEventAt_of_le (s.queues tgt) _ _ _ (hs htgt),
      PartitionQueue.scheduleEventAt_of_le ((s.reclock now clocks).queues tgt) _ _ _
        (hclocks htgt), reclock_setQueue]
    rfl
  · have htgt' : ¬ tgt < (s.reclock now clocks).partitionCount := htgt
    rw [if_neg htgt, if_neg htgt']
    rfl

/-- Clocks that refuse nothing a context schedules. -/
structure Receptive (context : SchedulerContext) (s : PartitionedScheduler κ)
    (clocks : Nat → Nat) : Prop where
  own : clocks context.partition ≤ context.now
  others : ∀ q < s.partitionCount, clocks q ≤ context.now + s.minRemoteDelay

theorem scheduleLocalAfter_reclock {ctx} {s : PartitionedScheduler κ}
    (hs : Receptive ctx s (clocksOf s))
    (hclocks : Receptive ctx s clocks) :
    ctx.scheduleLocalAfter (s.reclock now clocks) delay cb
      = ((ctx.scheduleLocalAfter s delay cb).1,
          (ctx.scheduleLocalAfter s delay cb).2.reclock now clocks) := by
  unfold SchedulerContext.scheduleLocalAfter SchedulerContext.scheduleAtPartitionAfter
  cases htk : checkedAdd ctx.now delay with
  | none => rfl
  | some tick =>
    have hle : ctx.now ≤ tick := by
      rw [checkedAdd_eq_some htk]
      exact Nat.le_add_right _ _
    exact scheduleAt_reclock s (fun _ => hs.own.trans hle) (fun _ => Nat.le_trans hclocks.own hle)

theorem scheduleRemoteAfter_reclock {ctx} {s : PartitionedScheduler κ}
    (hs : Receptive ctx s (clocksOf s))
    (hclocks : Receptive ctx s clocks) :
    ctx.scheduleRemoteAfter (s.reclock now clocks) tgt delay cb
      = ((ctx.scheduleRemoteAfter s tgt delay cb).1,
          (ctx.scheduleRemoteAfter s tgt delay cb).2.reclock now clocks) := by
  unfold SchedulerContext.scheduleRemoteAfter
  split
  · rfl
  cases htk : checkedAdd ctx.now delay with
  | none => rfl
  | some tick =>
    simp only
    by_cases hremote : tgt ≠ ctx.partition
    · rw [if_pos hremote, if_pos hremote]
      have hsame : (s.reclock now clocks).minRemoteDelay = s.minRemoteDelay := rfl
      rw [hsame]
      cases hboundary : remoteDeliveryBeforeLookaheadError ctx.partition tgt ctx.now
          tick s.minRemoteDelay with
      | some error => rfl
      | none =>
        have hlook := lookahead_of_no_error hboundary
        exact scheduleAt_reclock s (fun htgt => (hs.others tgt htgt).trans hlook)
          (fun htgt => (hclocks.others tgt htgt).trans hlook)
    · rw [if_neg hremote, if_neg hremote]
      rw [not_not] at hremote
      have hle : ctx.now ≤ tick := by
        rw [checkedAdd_eq_some htk]
        exact Nat.le_add_right _ _
      refine scheduleAt_reclock s (fun _ => ?_) (fun _ => ?_)
      · rw [hremote]
        exact hs.own.trans hle
      · rw [hremote]
        exact hclocks.own.trans hle

/-- Everything but the events and the counters is the same. -/
structure Keeps (s s' : PartitionedScheduler κ) : Prop where
  shape : SameShape s s'
  revision : s'.timelineRevision = s.timelineRevision
  now : s'.now = s.now
  clocks : clocksOf s' = clocksOf s

theorem Keeps.refl : Keeps s s := ⟨SameShape.refl s, rfl, rfl, rfl⟩

theorem Keeps.trans {a b c : PartitionedScheduler κ} (h : Keeps a b) (h' : Keeps b c) :
    Keeps a c :=
  ⟨h.shape.trans h'.shape, h'.revision.trans h.revision, h'.now.trans h.now,
    h'.clocks.trans h.clocks⟩

theorem Scheduled.keeps {s'} {cb : PartitionEventCallback κ} {id : PartitionEventId}
    (h : Scheduled s tgt tick cb id s') : Keeps s s' := by
  rcases h with ⟨-, -, -, rfl⟩
  refine ⟨⟨rfl, rfl, rfl, rfl⟩, rfl, rfl, ?_⟩
  rw [clocksOf_setQueue]
  exact update_eq_self tgt (clocksOf s)

theorem Receptive.keeps {ctx : SchedulerContext} {s s' : PartitionedScheduler κ}
    (h : Receptive ctx s clocks) (hkeeps : Keeps s s') :
    Receptive ctx s' clocks := by
  refine ⟨h.own, fun q hq => ?_⟩
  rw [hkeeps.shape.minRemoteDelay]
  exact h.others q (hkeeps.shape.partitionCount ▸ hq)

theorem keeps_of_cases {s : PartitionedScheduler κ}
   
    (h : (∃ error, oc = (.error error, s)) ∨ ∃ id, oc.1 = .ok id ∧
      Scheduled s tgt tick (.serial cb) id oc.2) : Keeps s oc.2 := by
  rcases h with ⟨error, rfl⟩ | ⟨id, -, hsch⟩
  · exact Keeps.refl s
  · exact hsch.keeps

/-- The state of a callback with other clocks. -/
def SerialState.reclock (state : SerialState κ ω) (now : Nat) (clocks : Nat → Nat) :
    SerialState κ ω :=
  { state with scheduler := state.scheduler.reclock now clocks }

theorem scheduled_reclock {st : SerialState κ ω} :
    (st.reclock now clocks).scheduled tgt tick cb (oc.1, oc.2.reclock now clocks)
      = (st.scheduled tgt tick cb oc).reclock now clocks := by
  rcases oc with ⟨answer, after⟩
  cases answer <;> rfl

theorem scheduler_scheduled {st : SerialState κ ω} :
    (st.scheduled tgt tick cb oc).scheduler = oc.2 := by
  rcases oc with ⟨answer, after⟩
  cases answer <;> rfl

/-- A callback that only uses its context does not see the clocks. -/
theorem SerialProgram.run_reclock {context : SchedulerContext} {L : κ → Prop} :
    ∀ (program : SerialProgram κ ω), program.Uses L False →
      ∀ (state : SerialState κ ω) (now : Nat) (clocks : Nat → Nat), Receptive context
        state.scheduler (clocksOf state.scheduler) → Receptive context state.scheduler clocks →
        program.run context (state.reclock now clocks)
          = (program.run context state).map (·.reclock now clocks) := by
  -- One scheduling call, and the rest of the program by induction.
  have hcall : ∀ (next : Except SchedulerError PartitionEventId → SerialProgram κ ω)
      (state : SerialState κ ω) (now target tick : Nat) (clocks : Nat → Nat) (callback : κ)
      (outcome outcome' : Except SchedulerError PartitionEventId × PartitionedScheduler κ),
      Receptive context state.scheduler (clocksOf state.scheduler) →
      Receptive context state.scheduler clocks → Keeps state.scheduler outcome.2 →
      outcome' = (outcome.1, outcome.2.reclock now clocks) →
      (∀ (after : SerialState κ ω), Receptive context after.scheduler (clocksOf after.scheduler) →
        Receptive context after.scheduler clocks →
        (next outcome.1).run context (after.reclock now clocks)
          = ((next outcome.1).run context after).map (·.reclock now clocks)) →
      (next outcome'.1).run context
          ((state.reclock now clocks).scheduled target tick callback outcome')
        = ((next outcome.1).run context (state.scheduled target tick callback outcome)).map
            (·.reclock now clocks) := by
    intro next state now target tick clocks callback outcome outcome' hs hclocks hkeeps hsame ih
    rw [hsame, scheduled_reclock]
    refine ih _ ?_ ?_
    · rw [scheduler_scheduled, hkeeps.clocks]
      exact hs.keeps hkeeps
    · rw [scheduler_scheduled]
      exact hclocks.keeps hkeeps
  intro program
  induction program with
  | done | panic => intro _ state now clocks _ _; rfl
  | read next ih =>
    intro huses state now clocks hs hclocks
    exact ih state.world (huses state.world) state now clocks hs hclocks
  | write world next ih =>
    intro huses state now clocks hs hclocks
    exact ih huses { state with world } now clocks hs hclocks
  | scheduleLocalAfter delay callback next ih =>
    intro huses state now clocks hs hclocks
    refine hcall next state now _ _ clocks callback _ _ hs hclocks ?_ ?_
      (fun after => ih _ (huses.2 _) after now clocks)
    · exact keeps_of_cases
        (context.schedule_cases state.scheduler context.partition delay callback).1
    · exact scheduleLocalAfter_reclock hs hclocks
  | scheduleRemoteAfter target delay callback next ih =>
    intro huses state now clocks hs hclocks
    refine hcall next state now _ _ clocks callback _ _ hs hclocks ?_ ?_
      (fun after => ih _ (huses.2 _) after now clocks)
    · exact keeps_of_cases (context.schedule_cases state.scheduler target delay callback).2
    · exact scheduleRemoteAfter_reclock hs hclocks
  | snapshot | restoreQuiescent | restoreProjection | discardExactEvents =>
    intro huses; exact huses.1.elim

end Reclocking

section Dispatches

/-- The machine with other clocks. -/
def Machine.reclock (m : Machine κ ω σ) (now : Nat) (clocks : Nat → Nat) : Machine κ ω σ :=
  { m with scheduler := m.scheduler.reclock now clocks }

/-- All events are serial, with labels of `L`. -/
def LoadedWith (L : κ → Prop) (s : PartitionedScheduler κ) : Prop :=
  ∀ p < s.partitionCount, ∀ e ∈ (s.queues p).pending, ∃ label, e.callback = .serial label ∧ L label

variable (callbacks) in
/-- The callbacks of the labels of `L` only use their context, and schedule
    labels of `L` only. -/
def ContextOnly (L : κ → Prop) : Prop :=
  ∀ label, L label → ∀ partition tick, (callbacks.serial label partition tick).Uses L False

theorem popNext_reclock {q : PartitionQueue κ} :
    ({ q with now } : PartitionQueue κ).popNext
      = q.popNext.map (fun popped => (popped.1, { popped.2 with now })) := by
  unfold PartitionQueue.popNext
  cases q.pending.pop <;> rfl

theorem WindowAt.receptive {s : PartitionedScheduler κ} {event rest} (h : WindowAt lo bound s)
    (hp : p < s.partitionCount)
    (hpop : (s.queues p).popNext = some (event, rest)) :
    Receptive ⟨p, event.tick⟩ s (update (clocksOf s) p event.tick) := by
  have hmem := (PartitionQueue.tick_le_of_popNext _ hpop).1
  have hpend := (h p hp).pending event hmem
  have habove := (h p hp).above
  refine ⟨?_, fun q hq => ?_⟩
  · show update (clocksOf s) p event.tick p ≤ event.tick
    rw [update_self]
  · show update (clocksOf s) p event.tick q ≤ event.tick + s.minRemoteDelay
    rw [update_apply]
    split
    · exact Nat.le_add_right _ _
    · have hbelow := (h q hq).below
      unfold clocksOf
      omega

theorem clocksOf_started {rest} {s : PartitionedScheduler κ} :
    clocksOf (startedScheduler s p rest tick) = update (clocksOf s) p tick :=
  clocksOf_setQueue s

theorem started_reclock {rest} {s : PartitionedScheduler κ} :
    startedScheduler (s.reclock now clocks) p { rest with now := clocks p } tick
      = (startedScheduler s p rest tick).reclock tick (update clocks p tick) := by
  unfold startedScheduler reclock
  simp only [setQueue]
  congr 1
  funext q
  by_cases hq : q = p
  · rw [hq, update_self, update_self, update_self]
  · rw [update_of_ne hq, update_of_ne hq, update_of_ne hq]

/-- A dispatch does not see the clocks either. -/
theorem dispatch_reclock {m now} {L : κ → Prop} (hL : ContextOnly callbacks L)
    (hloaded : LoadedWith L m.scheduler) (hp : p < m.scheduler.partitionCount)
    (hwin : WindowAt lo bound m.scheduler)
    (hwin' : WindowAt lo' bound' (m.scheduler.reclock now clocks)) :
    dispatchNextInPartition callbacks (m.reclock now clocks) p
      = (dispatchNextInPartition callbacks m p).map (fun ended =>
          (ended.1.reclock ended.2.event.tick (update clocks p ended.2.event.tick), ended.2)) := by
  unfold dispatchNextInPartition
  have hq : (m.reclock now clocks).scheduler.queues p
      = { m.scheduler.queues p with now := clocks p } := rfl
  rw [hq, popNext_reclock]
  cases hpop : (m.scheduler.queues p).popNext with
  | none => rfl
  | some popped =>
    rcases popped with ⟨event, rest⟩
    simp only [Option.map_some]
    cases hcb : event.callback with
    | parallel callback => rfl
    | serial callback =>
      rcases hloaded p hp event (PartitionQueue.tick_le_of_popNext _ hpop).1 with
        ⟨label, hlab, hmem⟩
      rw [hcb, PartitionEventCallback.serial.injEq] at hlab
      rw [← hlab] at hmem
      -- The two schedulers the callback starts with differ in their clocks.
      have hs : Receptive ⟨p, event.tick⟩ (startedScheduler m.scheduler p rest event.tick)
          (clocksOf (startedScheduler m.scheduler p rest event.tick)) := by
        rw [clocksOf_started]
        have hrec := hwin.receptive hp hpop
        exact ⟨hrec.own, hrec.others⟩
      have hpop' : ((m.scheduler.reclock now clocks).queues p).popNext
          = some (event, { rest with now := clocks p }) := by
        show ({ m.scheduler.queues p with now := clocks p } : PartitionQueue κ).popNext = _
        rw [popNext_reclock, hpop]
        rfl
      have hclocks : Receptive ⟨p, event.tick⟩ (startedScheduler m.scheduler p rest event.tick)
          (update clocks p event.tick) := by
        have hrec := hwin'.receptive hp hpop'
        exact ⟨hrec.own, hrec.others⟩
      have hrun := SerialProgram.run_reclock
        (callbacks.serial callback p event.tick) (hL callback hmem p event.tick)
        ⟨startedScheduler m.scheduler p rest event.tick, m.world, []⟩ event.tick
        (update clocks p event.tick) hs hclocks
      have hstart : (⟨startedScheduler (m.scheduler.reclock now clocks) p
          { rest with now := clocks p } event.tick, m.world, []⟩ : SerialState κ ω)
          = SerialState.reclock ⟨startedScheduler m.scheduler p rest event.tick, m.world, []⟩
            event.tick (update clocks p event.tick) := by
        rw [started_reclock]
        rfl
      rw [← hstart] at hrun
      simp only
      change Option.map _ ((callbacks.serial callback p event.tick).run ⟨p, event.tick⟩
        ⟨startedScheduler (m.scheduler.reclock now clocks) p { rest with now := clocks p }
          event.tick, m.world, []⟩) = _
      rw [hrun, Option.map_map, Option.map_map]
      rfl

end Dispatches

section Simulation

/-- Two machines that differ in their clocks only, both inside their windows. -/
structure Sim (L : κ → Prop) (a b : Machine κ ω σ) : Prop where
  same : ∃ now clocks, b = a.reclock now clocks
  loaded : LoadedWith L a.scheduler
  window : ∃ lo bound, WindowAt lo bound a.scheduler
  window' : ∃ lo bound, WindowAt lo bound b.scheduler

variable {L : κ → Prop} {m a b : Machine κ ω σ}

theorem SerialStep.keeps {d m'} (hL : ContextOnly callbacks L) (hloaded : LoadedWith L m.scheduler)
    (h : SerialStep callbacks m d m') :
    SameShape m.scheduler m'.scheduler ∧ m'.scheduler.timelineRevision =
      m.scheduler.timelineRevision ∧ clocksOf m'.scheduler = update (clocksOf m.scheduler)
      d.partition d.event.tick ∧ LoadedWith L m'.scheduler := by
  have hp := h.known
  rcases dispatchNextInPartition_eq_some h.dispatched with
    ⟨rest, callback, ended, hpop, _⟩
  have hrest := PartitionQueue.tick_le_of_popNext _ hpop
  have hkept : Keeps (startedScheduler m.scheduler d.partition rest d.event.tick) m'.scheduler ∧
      LoadedWith L m'.scheduler := by
    refine h.invariant_of L False ?_ (fun s _ =>
      Keeps (startedScheduler m.scheduler d.partition rest d.event.tick) s ∧ LoadedWith L s)
      ?_ ⟨?_, ?_, ?_⟩
    · intro label hlab
      rcases hloaded d.partition hp d.event hrest.1 with ⟨label', hlab', hmem⟩
      rw [hlab, PartitionEventCallback.serial.injEq] at hlab'
      exact hL label (hlab' ▸ hmem) _ _
    · intro rest' hpop'
      rw [hpop, Option.some.injEq, Prod.mk.injEq] at hpop'
      rw [← hpop'.2]
      refine ⟨Keeps.refl _, fun q hq e he => ?_⟩
      simp only [startedScheduler, queue_setQueue] at he
      split at he
      · exact hloaded d.partition hp e (hrest.2 e he).1
      · exact hloaded q hq e he
    · exact fun s postings error hs => hs
    · rintro s postings target tick label id after ⟨hs, hloadedS⟩ hmem htk haft
      refine ⟨hs.trans haft.keeps, fun q hq e he => ?_⟩
      rcases haft with ⟨htgt, -, -, rfl⟩
      rw [queue_setQueue] at he
      split at he
      · rcases (PartitionQueue.mem_enqueue _).mp he with rfl | hold
        · exact ⟨label, rfl, hmem⟩
        · exact hloadedS target htgt e hold
      · exact hloadedS q hq e he
    · exact fun s postings after hfalse => hfalse.elim
  rcases hkept with ⟨hkeeps, hloaded'⟩
  refine ⟨⟨hkeeps.shape.instanceId, hkeeps.shape.minRemoteDelay, hkeeps.shape.maxParallelWorkers,
    hkeeps.shape.partitionCount⟩, hkeeps.revision, ?_, hloaded'⟩
  rw [hkeeps.clocks, clocksOf_started]

/-- A dispatch of one of the two is a dispatch of the other. -/
theorem Sim.step {d b'} (hL : ContextOnly callbacks L) (h : Sim L a b)
    (hstep : SerialStep callbacks b d b') : ∃ a', SerialStep callbacks a d a' ∧ Sim L a' b' := by
  rcases h.same with ⟨now, clocks, rfl⟩
  rcases h.window with ⟨lo, bound, hwin⟩
  rcases h.window' with ⟨lo', bound', hwin'⟩
  have hp : d.partition < a.scheduler.partitionCount := hstep.known
  have hdispatched := hstep.dispatched
  rw [dispatch_reclock hL h.loaded hp hwin hwin', Option.map_eq_some_iff] at hdispatched
  rcases hdispatched with ⟨⟨a', d'⟩, hdispatch, hsame⟩
  simp only [Prod.mk.injEq] at hsame
  rcases hsame with ⟨hb', rfl⟩
  have hstep' : SerialStep callbacks a d' a' := ⟨hstep.next, hdispatch⟩
  refine ⟨a', hstep', ⟨_, _, hb'.symm⟩, (hstep'.keeps hL h.loaded).2.2.2, ?_, ?_⟩
  · rcases hstep'.window hwin with ⟨lo₁, hwin₁⟩
    exact ⟨lo₁, _, hwin₁⟩
  · rcases hstep.window hwin' with ⟨lo₁, hwin₁⟩
    exact ⟨lo₁, _, hwin₁⟩

theorem advance_eq_reclock {s : PartitionedScheduler κ} :
    s.advancePartitionsTo tick = s.reclock tick (fun p => max (clocksOf s p) tick) := by
  unfold advancePartitionsTo reclock
  congr 1
  funext p
  unfold PartitionQueue.advanceTo clocksOf
  simp only
  split
  next hlt => rw [Nat.max_eq_right (Nat.le_of_lt hlt)]
  next hlt => rw [Nat.max_eq_left (Nat.le_of_not_lt hlt)]

theorem Sim.advance (h : Sim L a b) (hsafe : LookaheadSafe (b.scheduler.advancePartitionsTo tick)) :
    Sim L a { b with scheduler := b.scheduler.advancePartitionsTo tick } := by
  rcases h.same with ⟨now, clocks, rfl⟩
  refine ⟨⟨tick, fun p => max (clocks p) tick, ?_⟩, h.loaded, h.window, ?_⟩
  · rw [advance_eq_reclock]
    rfl
  · rcases hsafe.window with ⟨p, -, hwin⟩
    exact ⟨_, _, hwin⟩

theorem Sim.idle (h : Sim L a b) (hidle : b.scheduler.isIdle = true) :
    a.scheduler.isIdle = true := by
  rcases h.same with ⟨now, clocks, rfl⟩
  exact hidle

/-- An epoch of one machine is so many dispatches of the other. It leaves all
    clocks at the horizon, and dispatches nothing if nothing is due. -/
theorem epoch_trace {b' ds} (hL : ContextOnly callbacks L) (h : Sim L a b)
    (hsafe : LookaheadSafe b.scheduler)
    (hclocks : ∀ p < b.scheduler.partitionCount, (b.scheduler.queues p).now ≤ horizon)
    (hrun : runSerialEpochTo callbacks horizon rounds b = some (b', ds)) :
    ∃ a', Trace (SerialStep callbacks) a ds a' ∧ Sim L a' b' ∧ b'.scheduler.now = horizon ∧
      (∀ p < b'.scheduler.partitionCount, (b'.scheduler.queues p).now = horizon) ∧
      (ds = [] ↔ ∀ p < b.scheduler.partitionCount, ∀ e ∈ (b.scheduler.queues p).pending,
        horizon < e.tick) := by
  rcases runSerialEpochTo_trace hrun with
    ⟨mid, front, htr, hend⟩
  rcases hsafe.window with ⟨slowest, -, hstart⟩
  have hmid : (∃ a', Trace (SerialStep callbacks) a front a' ∧ Sim L a' mid) ∧
      (∃ lo bound, bound ≤ horizon ∧ WindowAt lo bound mid.scheduler) ∧
      ∀ p < mid.scheduler.partitionCount, (mid.scheduler.queues p).now ≤ horizon := by
    refine htr.invariant (fun past m => (∃ a', Trace (SerialStep callbacks) a past a' ∧
        Sim L a' m) ∧ (∃ lo bound, bound ≤ horizon ∧ WindowAt lo bound m.scheduler) ∧
        ∀ p < m.scheduler.partitionCount, (m.scheduler.queues p).now ≤ horizon) ?_ []
      ⟨⟨a, .nil a, h⟩, ⟨_, 0, Nat.zero_le _, hstart⟩, hclocks⟩
    rintro past m d m' ⟨⟨a', hpast, hsim⟩, ⟨lo, bound, -, hwin⟩, hbelow⟩ ⟨hstep, htk, hrev⟩
    rcases hsim.step hL hstep with ⟨a'', hstep', hsim'⟩
    rcases hstep.window hwin with ⟨lo', hwin'⟩
    have hloaded : LoadedWith L m.scheduler := by
      rcases hsim.same with ⟨now, clocks, rfl⟩
      exact hsim.loaded
    rcases hstep.keeps hL hloaded with ⟨hshape, -, hclocks', -⟩
    refine ⟨⟨a'', hpast.snoc hstep', hsim'⟩,
      ⟨lo', _, (hstep.timeline hrev).symm ▸ htk, hwin'⟩, fun p hp => ?_⟩
    have hclk := congrFun hclocks' p
    unfold clocksOf at hclk
    rw [hclk, update_apply]
    split
    · exact htk
    · exact hbelow p (hshape.partitionCount ▸ hp)
  rcases hmid with ⟨⟨a', hpast, hsim⟩, ⟨lo, bound, hbnd, hwin⟩, hbelow⟩
  rcases hend with ⟨rfl, hleft, rfl⟩ | ⟨d, last, -, hstep, hrev, -⟩
  · refine ⟨a', hpast, hsim.advance ?_, rfl, fun p hp => ?_, fun hnone => ?_, fun hdue => ?_⟩
    · exact hwin.advance hbnd (fun q hq e he => (hleft q hq e he).le)
    rotate_left
    · subst hnone
      cases htr
      exact hleft
    · -- What an epoch dispatches first was pending and due.
      cases htr with
      | nil => rfl
      | cons head tail =>
        rcases dispatchNextInPartition_eq_some head.1.dispatched with ⟨rest, _, _, hpop, -⟩
        have hmem := (PartitionQueue.tick_le_of_popNext _ hpop).1
        exact absurd head.2.1 (not_le.mpr (hdue _ head.1.known _ hmem))
    · show ((mid.scheduler.queues p).advanceTo horizon).now = horizon
      rw [PartitionQueue.now_advanceTo]
      exact max_eq_right (hbelow p hp)
  · -- A callback that only uses its context stays on the timeline.
    have hloaded : LoadedWith L mid.scheduler := by
      rcases hsim.same with ⟨now, clocks, rfl⟩
      exact hsim.loaded
    exact absurd (hstep.keeps hL hloaded).2.1 hrev

/-- With room for the lookahead past every clock there is a horizon, the
    lookahead past some clock. -/
theorem nextEpochHorizon_some {s : PartitionedScheduler κ}
    (hroom : ∀ p < s.partitionCount, (s.queues p).now + s.minRemoteDelay < Memory.wordLimit) :
    ∃ p < s.partitionCount, s.nextEpochHorizon = some ((s.queues p).now + s.minRemoteDelay) := by
  unfold nextEpochHorizon
  rw [if_pos]
  · cases hmin : (List.map (fun p => (s.queues p).now + s.minRemoteDelay)
        (List.range s.partitionCount)).min? with
    | none =>
      rw [List.min?_eq_none_iff, List.map_eq_nil_iff, List.range_eq_nil] at hmin
      have hpos := s.count_pos
      omega
    | some least =>
      rcases List.mem_map.mp (List.min?_eq_some_iff.mp hmin).1 with ⟨p, hp, hsame⟩
      exact ⟨p, List.mem_range.mp hp, by rw [hsame]⟩
  · refine List.all_eq_true.mpr (fun p hp => ?_)
    unfold checkedAdd
    rw [if_pos (hroom p (List.mem_range.mp hp))]
    rfl

/-- The horizon is the scheduler's own tick, and what is pending is past it. -/
structure Stalled (s : PartitionedScheduler κ) : Prop where
  horizon : s.nextEpochHorizon = some s.now
  busy : s.isIdle = false
  later : ∀ p < s.partitionCount, ∀ e ∈ (s.queues p).pending, s.now < e.tick

theorem planNextEpoch_eq_some {s : PartitionedScheduler κ} (h : planNextEpoch s = some horizon) :
    s.isIdle = false ∧ s.nextEpochHorizon = some horizon := by
  unfold planNextEpoch at h
  split at h
  · cases h
  next hbusy => exact ⟨Bool.eq_false_iff.mpr hbusy, h⟩

theorem now_le_horizon {s : PartitionedScheduler κ} (hsafe : LookaheadSafe s)
    (hhor : s.nextEpochHorizon = some horizon) :
    ∀ p < s.partitionCount, (s.queues p).now ≤ horizon := by
  unfold nextEpochHorizon at hhor
  split at hhor
  · rcases List.mem_map.mp (List.min?_eq_some_iff.mp hhor).1 with ⟨q, hq, rfl⟩
    exact fun p hp => hsafe.clocks p hp q (List.mem_range.mp hq)
  · cases hhor

/-- A stalled run ends after its first epoch, which dispatches nothing. -/
theorem Stalled.conservative {ds} (h : Stalled m.scheduler) (hL : ContextOnly callbacks L)
    (hsim : Sim L a m) (hsafe : LookaheadSafe m.scheduler)
    (hrun : runUntilIdleConservative callbacks rounds epochs m = some (b, ds)) : ds = [] := by
  have hplan : planNextEpoch m.scheduler = some m.scheduler.now := by
    rw [planNextEpoch, h.busy, h.horizon]
    rfl
  cases epochs with
  | zero => cases hrun
  | succ epochs =>
    unfold runUntilIdleConservative at hrun
    simp only [hplan] at hrun
    split at hrun
    · cases hrun
    rename_i m₁ first hfirst
    simp only [runNextEpoch, hplan] at hfirst
    obtain ⟨-, -, -, hnow, -, hnone⟩ :=
      epoch_trace hL hsim hsafe (now_le_horizon hsafe h.horizon) hfirst
    rw [if_pos ⟨hnow, hnone.mpr h.later⟩] at hrun
    cases hrun
    exact hnone.mpr h.later

/-- An epoch-by-epoch run is an event-by-event run to idleness, unless it is
    stalled. -/
theorem conservative_trace (hL : ContextOnly callbacks L) (rounds : Nat) (epochs : Nat)
    (a b b' : Machine κ ω σ) (ds : List (Dispatch κ)) (hsim : Sim L a b)
    (hsafe : LookaheadSafe b.scheduler) (hahead : ¬ Stalled b.scheduler)
    (hrun : runUntilIdleConservative callbacks rounds epochs b = some (b', ds)) :
    (∀ p < b'.scheduler.partitionCount,
        (b'.scheduler.queues p).now + b'.scheduler.minRemoteDelay < Memory.wordLimit) →
      ∃ a', Trace (SerialStep callbacks) a ds a' ∧ a'.scheduler.isIdle = true := by
  induction epochs generalizing a b b' ds with
  | zero => cases hrun
  | succ epochs ih =>
    intro hroom
    unfold runUntilIdleConservative at hrun
    cases hplan : planNextEpoch b.scheduler with
    | none =>
      -- The loop is over: nothing is pending, for there is room for a plan.
      simp only [hplan] at hrun
      cases hrun
      refine ⟨a, .nil a, hsim.idle ?_⟩
      by_contra hbusy
      rcases nextEpochHorizon_some hroom with ⟨p, -, hhor⟩
      simp [planNextEpoch, if_neg hbusy, hhor] at hplan
    | some horizon =>
      simp only [hplan] at hrun
      obtain ⟨hbusy, hhor⟩ := planNextEpoch_eq_some hplan
      split at hrun
      · cases hrun
      rename_i b₁ first hfirst
      simp only [runNextEpoch, hplan] at hfirst
      rcases epoch_trace hL hsim hsafe (now_le_horizon hsafe hhor) hfirst with
        ⟨a₁, htr, hsim₁, hnow₁, hclocks₁, hnone⟩
      have hsafe₁ := runSerialEpochTo_safe horizon rounds b b₁ first hsafe hfirst
      split at hrun
      · rename_i hstuck
        have hsame : horizon = b.scheduler.now := hnow₁.symm.trans hstuck.1
        exact absurd ⟨hsame ▸ hhor, hbusy, hsame ▸ hnone.mp hstuck.2⟩ hahead
      · rcases Option.map_eq_some_iff.mp hrun with ⟨⟨last, rest⟩, hrest, hsame⟩
        cases hsame
        have hahead₁ : ¬ Stalled b₁.scheduler := by
          rintro ⟨hstays, -, -⟩
          unfold nextEpochHorizon at hstays
          split at hstays
          · rcases List.mem_map.mp (List.min?_eq_some_iff.mp hstays).1 with ⟨q, hq, hsame⟩
            rw [hclocks₁ q (List.mem_range.mp hq), hnow₁] at hsame
            have hpos := b₁.scheduler.delay_pos
            omega
          · cases hstays
        rcases ih a₁ b₁ last rest hsim₁ hsafe₁ hahead₁ hrest hroom with ⟨a', htr', hidle⟩
        exact ⟨a', htr.append htr', hidle⟩

theorem SerialStep.deterministic {d m' d' m''} (h : SerialStep callbacks m d m')
    (h' : SerialStep callbacks m d' m'') : d = d' ∧ m' = m'' := by
  have hpartition := Option.some.inj (h.next.symm.trans h'.next)
  have hdispatched := h.dispatched
  rw [hpartition, h'.dispatched, Option.some.injEq, Prod.mk.injEq] at hdispatched
  exact ⟨hdispatched.2.symm, hdispatched.1.symm⟩

variable (callbacks) in
theorem not_step_of_empty
    (hemp : ∀ p < m.scheduler.partitionCount, (m.scheduler.queues p).pending.items = [])
    (d : Dispatch κ) (m' : Machine κ ω σ) : ¬ SerialStep callbacks m d m' := by
  intro hstep
  rcases dispatchNextInPartition_eq_some hstep.dispatched with
    ⟨rest, cb, ended, hpop, -⟩
  have hmem := (PartitionQueue.tick_le_of_popNext _ hpop).1
  simp [Agenda.mem_def, hemp d.partition (hstep.known)] at hmem

variable (callbacks) in
/-- Event by event and epoch by epoch, a scheduler whose events only use their
    context dispatches the same, with the same answers to all scheduling calls, if
    and only if it is not stalled. -/
theorem conservative_same_dispatches (L : κ → Prop) (hL : ContextOnly callbacks L)
    (instanceId partitions minRemoteDelay maxParallelWorkers : Nat) (s : PartitionedScheduler κ)
    (world : ω) (stores : Nat → σ) (commands : List (Nat × Command κ))
    (outcomes : List (Outcome κ ω σ)) (m : Machine κ ω σ)
    (hnew : withParallelWorkerLimit instanceId partitions minRemoteDelay maxParallelWorkers = .ok s)
    (hhistory : performAll callbacks commands ⟨s, world, stores⟩ = some (outcomes, m))
    (hnoOverflow : ∀ outcome ∈ outcomes, ¬ Overflows outcome.error)
    (hloaded : LoadedWith L m.scheduler) (rounds rounds' epochs : Nat) (a b : Machine κ ω σ)
    (ds ds' : List (Dispatch κ))
    (hrun : runUntilIdle callbacks rounds m = some (a, ds))
    (hrun' : runUntilIdleConservative callbacks rounds' epochs m = some (b, ds'))
    (hroom : ∀ p < b.scheduler.partitionCount,
      (b.scheduler.queues p).now + b.scheduler.minRemoteDelay < Memory.wordLimit) :
    ds = ds' ↔ ¬ Stalled m.scheduler := by
  have hsafe : LookaheadSafe m.scheduler := by
    refine performAll_invariant (fun _ outcome => ¬ Overflows outcome.error)
      (fun _ m => LookaheadSafe m.scheduler) ?_ commands [] _ m outcomes (new_safe hnew) hhistory
      (fun entry hentry => hnoOverflow entry.2 (List.of_mem_zip hentry).2)
    exact fun past m rounds command outcome hm hperform hallowed =>
      perform_safe hm hperform hallowed
  rcases hsafe.window with ⟨p, -, hwindow⟩
  have hsim : Sim L m m :=
    ⟨⟨m.scheduler.now, clocksOf m.scheduler, rfl⟩, hloaded, ⟨_, _, hwindow⟩, ⟨_, _, hwindow⟩⟩
  rcases runUntilIdle_trace hrun with ⟨last, htrace, hempty, -⟩
  refine ⟨fun hsame hstalled => ?_, fun hahead => ?_⟩
  · -- Stalled, the epoch loop dispatches nothing, so there was nothing to dispatch.
    rw [hstalled.conservative hL hsim hsafe hrun'] at hsame
    subst hsame
    cases htrace
    have hidle : m.scheduler.isIdle = true :=
      List.all_eq_true.mpr fun p hp => List.isEmpty_iff.mpr (hempty p (List.mem_range.mp hp))
    rw [hstalled.busy] at hidle
    cases hidle
  rcases conservative_trace hL rounds' epochs m m b ds' hsim hsafe hahead hrun' hroom with
    ⟨last', htrace', hidle'⟩
  have hempty' : ∀ p < last'.scheduler.partitionCount,
      (last'.scheduler.queues p).pending.items = [] :=
    fun p hp => List.isEmpty_iff.mp (List.all_eq_true.mp hidle' p (List.mem_range.mpr hp))
  exact (Trace.unique (fun _ _ _ _ _ h h' => h.deterministic h') htrace
    (not_step_of_empty callbacks hempty) htrace' (not_step_of_empty callbacks hempty')).1

/-- A serial callback that hands on to partition 1, one that does nothing, and
    parallel callbacks that panic. -/
def handsOn : Callbacks Bool Unit Unit where
  serial callback _ _ := if callback then .scheduleRemoteAfter 1 5 false (fun _ => .done) else .done
  parallel _ _ _ := .panic

/-- An event hands on to another partition: both ways to run dispatch the two. -/
theorem conservative_same_dispatches_handsOn :
    ∃ s outcomes m a b ds ds', withParallelWorkerLimit 0 2 5 2 = .ok s ∧ performAll handsOn
      [(1, .scheduleAt 0 3 true)] ⟨s, (), fun _ => ()⟩ = some (outcomes, m) ∧ runUntilIdle handsOn 3
      m = some (a, ds) ∧ runUntilIdleConservative handsOn 3 3 m = some (b, ds') ∧ ds.length = 2 ∧ ds
      = ds' := by
  refine ⟨_, _, _, _, _, _, _, rfl, rfl, rfl, rfl, rfl,
    conservative_same_dispatches handsOn (fun _ => True) ?_ 0 2 5 2 _ () (fun _ => ())
      [(1, .scheduleAt 0 3 true)] _ _ rfl rfl ?_ ?_ 3 3 3 _ _ _ _ rfl rfl ?_ |>.mpr ?_⟩
  · intro label _ partition tick
    cases label with
    | true => exact ⟨trivial, fun _ => trivial⟩
    | false => exact trivial
  · refine List.forall_mem_singleton.mpr ?_
    rintro ⟨p, now, delay, hoverflow⟩
    have hnone : (none : Option SchedulerError) = some (.epochHorizonOverflow p now delay) :=
      hoverflow
    cases hnone
  · intro p hp e he
    match p, hp with
    | 0, _ => exact ⟨true, congrArg PartitionEvent.callback (List.mem_singleton.mp he), trivial⟩
    | 1, _ => cases he
  · decide
  · exact fun hstalled => absurd hstalled.horizon (by decide)

/-- The slower clock is the lookahead behind the scheduler's tick, and the epoch
    loop stops before it reaches the event. -/
theorem conservative_stops_early :
    ∃ s outcomes m a b ds, withParallelWorkerLimit 0 2 5 2 = .ok s ∧
      performAll handsOn [(1, .scheduleParallelAt 0 5 true), (3, .runNextEpochParallel),
        (1, .scheduleAt 1 7 false)] ⟨s, (), fun _ => ()⟩ = some (outcomes, m) ∧
      outcomes.map (·.error) = [none, some (.parallelWorkerPanicked 0), none] ∧
      runUntilIdle handsOn 3 m = some (a, ds) ∧
      ds.map (fun d => (d.event.tick, d.partition)) = [(7, 1)] ∧
      runUntilIdleConservative handsOn 3 3 m = some (b, []) ∧
      ∀ p < b.scheduler.partitionCount,
        (b.scheduler.queues p).now + b.scheduler.minRemoteDelay < Memory.wordLimit :=
  ⟨_, _, _, _, _, _, rfl, rfl, rfl, rfl, rfl, rfl, by decide⟩

end Simulation

end Rem6.Kernel
