import Rem6.Kernel.Checkpoint

/-!
# Callbacks and Their Contexts

What a callback may do. The source's callbacks are closures that are handed a
context; a closure can look at whatever it captured, schedule further callbacks
through the context, see how each call went, and panic.

Here a callback is a label, and `Callbacks` says which program a label runs
when it is dispatched in a partition at a tick. A program is a tree of the
calls a context offers, each followed by what is done with its answer. Serial
callbacks run one at a time on a world they all share. Parallel callbacks run
in their partition's worker, on the store of that partition. Labels, world and
stores are of arbitrary types and the programs are arbitrary trees, so whatever
else a closure might look at is part of which program its label stands for.

The two contexts differ. A serial context works on the whole scheduler and puts
a remote event into the target's queue at once. A parallel context only has the
queue of its own partition; a remote event is collected for the barrier, checked
against the clocks the partitions had when the batch began, and the id it
answers with is the sender's count of remote events.

Everything a callback got through its context is listed in `Posting`s, in
order. The source keeps no such list; it is what the theorems speak about.

## Main definitions

* `Posting`: What one call of a context did.
* `SerialProgram`, `ParallelProgram`, `Callbacks`: Callback programs.
* `SerialProgram.run`, `ParallelProgram.run`: What a program does.

## Theorems

* `SchedulerContext.schedule_cases`: A serial scheduling call fails and changes
  nothing, or puts one event into a queue, no earlier than the queue's clock.
* `ParallelSchedulerContext.local_cases`, `ParallelSchedulerContext.remote_cases`:
  The same for the parallel context.
* `SerialProgram.run_invariant`, `ParallelProgram.run_invariant`: What every call
  keeps, a whole callback keeps.
-/

namespace Rem6.Kernel

open Lib PartitionQueue

/-- A remote event on its way to the barrier. -/
structure RemoteScheduledEvent (κ : Type) where
  (source target sourceTick tick order : Nat)
  callback : κ
deriving DecidableEq, Repr

/-- What one call of a context did, with the id it answered with. -/
inductive Posting (κ : Type) where
  /-- An event was put into the queue of its partition. -/
  | queued (id : PartitionEventId) (event : PartitionEvent κ)
  /-- An event was collected for the barrier. -/
  | sent (id : PartitionEventId) (event : RemoteScheduledEvent κ)
  /-- A scheduling call was refused. -/
  | refused (error : SchedulerError)
  /-- A checkpoint call was made; `lowered` if it set some id counter back. -/
  | restored (lowered : Bool)
deriving DecidableEq, Repr

/-- How the run of a callback ended. -/
inductive Ending where
  | returned | panicked
deriving DecidableEq, Repr

/-- A serial callback: calls of its context, each followed by what is done with
    the answer, on a world shared by all serial callbacks. -/
inductive SerialProgram (κ ω : Type) where
  | done | panic
  | read (next : ω → SerialProgram κ ω)
  | write (world : ω) (next : SerialProgram κ ω)
  | scheduleLocalAfter (delay : Nat) (callback : κ)
      (next : Except SchedulerError PartitionEventId → SerialProgram κ ω)
  | scheduleRemoteAfter (target delay : Nat) (callback : κ)
      (next : Except SchedulerError PartitionEventId → SerialProgram κ ω)
  | snapshot (next : SchedulerSnapshot → SerialProgram κ ω)
  | restoreQuiescent (snapshot : SchedulerSnapshot)
      (next : Except SchedulerError Unit → SerialProgram κ ω)
  | restoreProjection (snapshot : SchedulerSnapshot)
      (discarded preserved : List PendingEventSnapshot)
      (next : Except SchedulerError Unit → SerialProgram κ ω)
  | discardExactEvents (events : List PendingEventSnapshot)
      (next : Except SchedulerError Unit → SerialProgram κ ω)

/-- A parallel callback, on the store of its partition. -/
inductive ParallelProgram (κ σ : Type) where
  | done | panic
  | read (next : σ → ParallelProgram κ σ)
  | write (store : σ) (next : ParallelProgram κ σ)
  | scheduleLocalAfter (delay : Nat) (callback : κ)
      (next : Except SchedulerError PartitionEventId → ParallelProgram κ σ)
  | scheduleRemoteAfter (target delay : Nat) (callback : κ)
      (next : Except SchedulerError PartitionEventId → ParallelProgram κ σ)
  | recordProgressTransition (next : ParallelProgram κ σ)

/-- What the labels stand for, by partition and tick of the dispatch. -/
structure Callbacks (κ ω σ : Type) where
  serial : κ → Nat → Nat → SerialProgram κ ω
  parallel : κ → Nat → Nat → ParallelProgram κ σ

/-- The error for a delivery inside the lookahead, or for the boundary itself
    being out of range. -/
def remoteDeliveryBeforeLookaheadError
    (source target sourceTick deliveryTick minRemoteDelay : Nat) :
    Option SchedulerError :=
  match checkedAdd sourceTick minRemoteDelay with
  | none => some (.tickOverflow sourceTick minRemoteDelay)
  | some minimum =>
    if deliveryTick < minimum then
      some (.remoteDeliveryBeforeLookaheadBoundary source target sourceTick deliveryTick minimum)
    else none

variable {src tgt sourceTick deliveryTick minRemoteDelay : Nat}

theorem lookahead_of_no_error
    (h : remoteDeliveryBeforeLookaheadError src tgt sourceTick deliveryTick minRemoteDelay = none) :
    sourceTick + minRemoteDelay ≤ deliveryTick := by
  unfold remoteDeliveryBeforeLookaheadError at h
  split at h
  next => cases h
  next minimum hmin =>
    split at h
    · cases h
    · rename_i hle
      rw [checkedAdd_eq_some hmin] at hle
      exact Nat.le_of_not_lt hle

section Serial

variable {κ ω : Type}

/-- The context of a serial callback: the partition and tick it runs at. -/
structure SchedulerContext where
  (partition now : Nat)

namespace SchedulerContext

def scheduleAtPartitionAfter (context : SchedulerContext) (s : PartitionedScheduler κ)
    (target delay : Nat) (callback : κ) :
    Except SchedulerError PartitionEventId × PartitionedScheduler κ :=
  match checkedAdd context.now delay with
  | none => (.error (.tickOverflow context.now delay), s)
  | some tick => s.scheduleAt target tick callback

def scheduleLocalAfter (context : SchedulerContext) (s : PartitionedScheduler κ) (delay : Nat)
    (callback : κ) : Except SchedulerError PartitionEventId × PartitionedScheduler κ :=
  context.scheduleAtPartitionAfter s context.partition delay callback

def scheduleRemoteAfter (context : SchedulerContext) (s : PartitionedScheduler κ)
    (target delay : Nat) (callback : κ) :
    Except SchedulerError PartitionEventId × PartitionedScheduler κ :=
  if target ≠ context.partition ∧ delay = 0 then
    (.error (.zeroDelayRemoteMessage context.partition target), s)
  else match checkedAdd context.now delay with
    | none => (.error (.tickOverflow context.now delay), s)
    | some tick =>
      if target ≠ context.partition then
        match remoteDeliveryBeforeLookaheadError context.partition target context.now tick
            s.minRemoteDelay with
        | some error => (.error error, s)
        | none => s.scheduleAt target tick callback
      else s.scheduleAt target tick callback

end SchedulerContext

/-- A scheduler with one more event in a queue whose clock allows it. -/
def Scheduled (s : PartitionedScheduler κ) (target tick : Nat) (callback : PartitionEventCallback κ)
    (id : PartitionEventId) (s' : PartitionedScheduler κ) : Prop :=
  target < s.partitionCount ∧ (s.queues target).now ≤ tick ∧ id = ⟨target, (s.queues target).nextId⟩
    ∧ s' = s.setQueue target ((s.queues target).enqueue target tick callback)

namespace PartitionedScheduler

/-- Scheduling from outside fails and changes nothing, or adds the event. -/
theorem schedule_cases (s : PartitionedScheduler κ) (tgt tick : Nat)
    (cb : PartitionEventCallback κ) :
    let oc := s.onPartition tgt (fun q => q.scheduleEventAt tgt tick cb)
    (∃ error, oc = (.error error, s)) ∨ ∃ id, oc.1 = .ok id ∧ Scheduled s tgt tick cb id oc.2 := by
  intro oc
  by_cases htgt : tgt < s.partitionCount
  · by_cases htk : (s.queues tgt).now ≤ tick
    · refine .inr ⟨⟨tgt, (s.queues tgt).nextId⟩, ?_, htgt, htk, rfl, ?_⟩ <;>
        simp [oc, onPartition, if_pos htgt, scheduleEventAt_of_le _ _ _ _ htk]
    · refine .inl ⟨.inThePast tgt (s.queues tgt).now tick, ?_⟩
      simp [oc, onPartition, if_pos htgt, scheduleEventAt_of_lt _ _ _ _ (not_le.mp htk), setQueue]
  · exact .inl ⟨.unknownPartition tgt s.partitionCount, if_neg htgt⟩

end PartitionedScheduler

/-- A serial scheduling call fails and changes nothing, or adds an event no
    earlier than the running one. -/
theorem SchedulerContext.schedule_cases (context : SchedulerContext) (s : PartitionedScheduler κ)
    (tgt delay : Nat) (cb : κ) :
    ((∃ error, context.scheduleAtPartitionAfter s tgt delay cb = (.error error, s)) ∨
      ∃ id, (context.scheduleAtPartitionAfter s tgt delay cb).1 = .ok id ∧
        Scheduled s tgt (context.now + delay) (.serial cb) id
          (context.scheduleAtPartitionAfter s tgt delay cb).2) ∧
    ((∃ error, context.scheduleRemoteAfter s tgt delay cb = (.error error, s)) ∨
      ∃ id, (context.scheduleRemoteAfter s tgt delay cb).1 = .ok id ∧
        Scheduled s tgt (context.now + delay) (.serial cb) id
          (context.scheduleRemoteAfter s tgt delay cb).2) := by
  have hat : ∀ tick, checkedAdd context.now delay = some tick →
      ((∃ error, s.scheduleAt tgt tick cb = (.error error, s)) ∨
        ∃ id, (s.scheduleAt tgt tick cb).1 = .ok id ∧
          Scheduled s tgt (context.now + delay) (.serial cb) id (s.scheduleAt tgt tick cb).2) := by
    intro tick htk
    rw [← checkedAdd_eq_some htk]
    exact s.schedule_cases tgt tick (.serial cb)
  constructor
  · unfold SchedulerContext.scheduleAtPartitionAfter
    cases htk : checkedAdd context.now delay with
    | none => exact .inl ⟨_, rfl⟩
    | some tick => exact hat tick htk
  · unfold SchedulerContext.scheduleRemoteAfter
    split
    · exact .inl ⟨_, rfl⟩
    · cases htk : checkedAdd context.now delay with
      | none => exact .inl ⟨_, rfl⟩
      | some tick =>
        simp only
        split
        · cases hboundary : remoteDeliveryBeforeLookaheadError context.partition tgt
              context.now tick s.minRemoteDelay with
          | some error => exact .inl ⟨error, rfl⟩
          | none => exact hat tick htk
        · exact hat tick htk

/-- What a serial callback works on, with what it got so far. -/
structure SerialState (κ ω : Type) where
  scheduler : PartitionedScheduler κ
  world : ω
  postings : List (Posting κ)

/-- Some id counter of the scheduler is lower than it was. -/
def lowersIds (before after : PartitionedScheduler κ) : Bool :=
  (List.range before.partitionCount).any
    (fun p => (after.queues p).nextId < (before.queues p).nextId)

/-- A scheduling call of a serial context. -/
def SerialState.scheduled (state : SerialState κ ω) (target tick : Nat) (callback : κ)
    (outcome : Except SchedulerError PartitionEventId × PartitionedScheduler κ) :
    SerialState κ ω :=
  match outcome.1 with
  | .error error =>
    { state with scheduler := outcome.2, postings := state.postings ++ [.refused error] }
  | .ok id =>
    { state with
      scheduler := outcome.2
      postings := state.postings ++
        [.queued id ((state.scheduler.queues target).nextEvent target tick (.serial callback))] }

/-- A checkpoint call of a serial context. -/
def SerialState.restored (state : SerialState κ ω) (after : PartitionedScheduler κ) :
    SerialState κ ω :=
  { state with
    scheduler := after
    postings := state.postings ++ [.restored (lowersIds state.scheduler after)] }

/-- Run a serial callback. A panic unwinds through the dispatcher to whoever
    started the run, so there is no state after it. -/
def SerialProgram.run (context : SchedulerContext) :
    SerialProgram κ ω → SerialState κ ω → Option (SerialState κ ω)
  | .done, state => some state
  | .panic, _ => none
  | .read next, state => (next state.world).run context state
  | .write world next, state => next.run context { state with world }
  | .scheduleLocalAfter delay callback next, state =>
    let outcome := context.scheduleLocalAfter state.scheduler delay callback
    (next outcome.1).run context
      (state.scheduled context.partition (context.now + delay) callback outcome)
  | .scheduleRemoteAfter target delay callback next, state =>
    let outcome := context.scheduleRemoteAfter state.scheduler target delay callback
    (next outcome.1).run context (state.scheduled target (context.now + delay) callback outcome)
  | .snapshot next, state => (next state.scheduler.snapshot).run context state
  | .restoreQuiescent saved next, state =>
    let outcome := state.scheduler.restoreQuiescent saved
    (next outcome.1).run context (state.restored outcome.2)
  | .restoreProjection saved discarded preserved next, state =>
    let outcome := state.scheduler.restoreCheckpointProjection saved discarded preserved
    (next outcome.1).run context (state.restored outcome.2)
  | .discardExactEvents events next, state =>
    let outcome := state.scheduler.discardExactEvents events
    (next outcome.1).run context (state.restored outcome.2)

/-- A callback that schedules labels of `L` only, and makes checkpoint calls only
    if it may. -/
def SerialProgram.Uses (L : κ → Prop) (checkpoints : Prop) : SerialProgram κ ω → Prop
  | .done | .panic => True
  | .read next => ∀ world, (next world).Uses L checkpoints
  | .write _ next => next.Uses L checkpoints
  | .scheduleLocalAfter _ callback next => L callback ∧ ∀ answer, (next answer).Uses L checkpoints
  | .scheduleRemoteAfter _ _ callback next =>
    L callback ∧ ∀ answer, (next answer).Uses L checkpoints
  | .snapshot next => checkpoints ∧ ∀ saved, (next saved).Uses L checkpoints
  | .restoreQuiescent _ next | .restoreProjection _ _ _ next | .discardExactEvents _ next =>
    checkpoints ∧ ∀ answer, (next answer).Uses L checkpoints

theorem SerialProgram.uses_all {program : SerialProgram κ ω} :
    program.Uses (fun _ => True) True := by
  induction program with
  | done | panic => exact trivial
  | read next ih | write world next ih => exact ih
  | scheduleLocalAfter delay callback next ih
  | scheduleRemoteAfter target delay callback next ih
  | snapshot next ih | restoreQuiescent saved next ih
  | restoreProjection saved dropped preserved next ih | discardExactEvents evs next ih =>
    exact ⟨trivial, ih⟩

/-- The calls of a serial callback keep the property: a refused one, one that
    schedules a label of `L` no earlier than the tick, and, if it may make them,
    a checkpoint call. -/
structure KeptByCalls (L : κ → Prop) (checkpoints : Prop) (now : Nat)
    (P : PartitionedScheduler κ → List (Posting κ) → Prop) : Prop where
  refused : ∀ s postings error, P s postings → P s (postings ++ [.refused error])
  scheduled : ∀ s postings target tick callback id after, P s postings → L callback →
    now ≤ tick → Scheduled s target tick (.serial callback) id after →
    P after (postings ++ [.queued id ((s.queues target).nextEvent target tick (.serial callback))])
  restored : ∀ s postings after, checkpoints → P s postings → Restored s after →
    P after (postings ++ [.restored (lowersIds s after)])

/-- What its calls keep holds after every run of a serial callback. -/
theorem SerialProgram.run_invariant (context : SchedulerContext) {L : κ → Prop} {cps : Prop}
    {P : PartitionedScheduler κ → List (Posting κ) → Prop}
    (hkept : KeptByCalls L cps context.now P) :
    ∀ (program : SerialProgram κ ω) (state state' : SerialState κ ω),
      program.Uses L cps → program.run context state = some state' →
      P state.scheduler state.postings → P state'.scheduler state'.postings := by
  have hcall : ∀ (state : SerialState κ ω) (target tick : Nat) (callback : κ)
      (outcome : Except SchedulerError PartitionEventId × PartitionedScheduler κ),
      P state.scheduler state.postings → L callback → context.now ≤ tick →
      ((∃ error, outcome = (.error error, state.scheduler)) ∨ ∃ id, outcome.1 = .ok id ∧
        Scheduled state.scheduler target tick (.serial callback) id outcome.2) →
      P (state.scheduled target tick callback outcome).scheduler
        (state.scheduled target tick callback outcome).postings := by
    intro state target tick callback outcome hP hL htk hcases
    rcases hcases with ⟨error, rfl⟩ | ⟨id, hok, hsch'⟩
    · exact hkept.refused _ _ error hP
    · unfold SerialState.scheduled
      rw [hok]
      exact hkept.scheduled _ _ target tick callback id outcome.2 hP hL htk hsch'
  intro program
  induction program with
  | done =>
    intro state state' _ hrun hP
    rw [SerialProgram.run] at hrun
    cases hrun
    exact hP
  | panic =>
    intro state state' _ hrun _
    cases hrun
  | read next ih => intro state state' huses hrun hP; exact ih _ state state' (huses _) hrun hP
  | write world next ih =>
    intro state state' huses hrun hP
    exact ih _ state' huses hrun hP
  | scheduleLocalAfter delay callback next ih =>
    intro state state' huses hrun hP
    refine ih _ _ state' (huses.2 _) hrun (hcall _ _ _ _ _ hP huses.1 (Nat.le_add_right ..) ?_)
    exact (context.schedule_cases state.scheduler context.partition delay callback).1
  | scheduleRemoteAfter target delay callback next ih =>
    intro state state' huses hrun hP
    refine ih _ _ state' (huses.2 _) hrun (hcall _ _ _ _ _ hP huses.1 (Nat.le_add_right ..) ?_)
    exact (context.schedule_cases state.scheduler target delay callback).2
  | snapshot next ih =>
    intro state state' huses hrun hP
    exact ih _ state state' (huses.2 _) hrun hP
  | restoreQuiescent saved next ih =>
    intro state state' huses hrun hP
    exact ih _ _ state' (huses.2 _) hrun (hkept.restored _ _ _ huses.1 hP
      (state.scheduler.restored_restoreQuiescent))
  | restoreProjection saved dropped preserved next ih =>
    intro state state' huses hrun hP
    exact ih _ _ state' (huses.2 _) hrun (hkept.restored _ _ _ huses.1 hP
      (state.scheduler.restored_restoreCheckpointProjection saved dropped preserved))
  | discardExactEvents evs next ih =>
    intro state state' huses hrun hP
    exact ih _ _ state' (huses.2 _) hrun (hkept.restored _ _ _ huses.1 hP
      (state.scheduler.restored_discardExactEvents))

end Serial

section Parallel

variable {κ σ : Type}

/-- What a worker is started with, besides its queue. The clocks are those all
    partitions had when the batch began. -/
structure ParallelWorker where
  (partition partitionCount : Nat)
  partitionNows : Nat → Nat
  minRemoteDelay : Nat

/-- The context of a parallel callback. The counts of remote events and of progress
    transitions are kept in the queue throughout; the source copies them out and
    writes them back. -/
structure ParallelSchedulerContext (κ : Type) where
  worker : ParallelWorker
  now : Nat
  queue : PartitionQueue κ
  remoteEvents : List (RemoteScheduledEvent κ)
  postings : List (Posting κ)

namespace ParallelSchedulerContext

variable (context : ParallelSchedulerContext κ)

/-- The context after a local event was scheduled. -/
def queued (tick : Nat) (callback : κ) : ParallelSchedulerContext κ :=
  { context with
    queue := context.queue.enqueue context.worker.partition tick (.parallel callback)
    postings := context.postings ++
      [.queued ⟨context.worker.partition, context.queue.nextId⟩
        (context.queue.nextEvent context.worker.partition tick (.parallel callback))] }

/-- The context after a call was refused. -/
def refused (error : SchedulerError) : ParallelSchedulerContext κ :=
  { context with postings := context.postings ++ [.refused error] }

/-- The event a remote call collects. -/
def remoteEvent (target tick : Nat) (callback : κ) : RemoteScheduledEvent κ :=
  ⟨context.worker.partition, target, context.now, tick, context.queue.nextRemoteOrder, callback⟩

/-- The context after a remote event was collected. -/
def sent (target tick : Nat) (callback : κ) : ParallelSchedulerContext κ :=
  { context with
    queue := { context.queue with
      nextRemoteOrder := (context.queue.nextRemoteOrder + 1) % Memory.wordLimit }
    remoteEvents := context.remoteEvents ++ [context.remoteEvent target tick callback]
    postings := context.postings ++
      [.sent ⟨target, context.queue.nextRemoteOrder⟩ (context.remoteEvent target tick callback)] }

/-- The record of the transition goes to the run's and is left out. -/
def recordProgressTransition : ParallelSchedulerContext κ :=
  { context with
    queue := { context.queue with
      nextProgressOrder := (context.queue.nextProgressOrder + 1) % Memory.wordLimit } }

/-- Answer a call with an error. -/
def refuse (error : SchedulerError) :
    Except SchedulerError PartitionEventId × ParallelSchedulerContext κ :=
  (.error error, context.refused error)

def scheduleLocalAfter (delay : Nat) (callback : κ) :
    Except SchedulerError PartitionEventId × ParallelSchedulerContext κ :=
  match checkedAdd context.now delay with
  | none => context.refuse (.tickOverflow context.now delay)
  | some tick =>
    match (context.queue.scheduleParallelAt context.worker.partition tick callback).1 with
    | .error error => context.refuse error
    | .ok id => (.ok id, context.queued tick callback)

def scheduleRemoteAfter (target delay : Nat) (callback : κ) :
    Except SchedulerError PartitionEventId × ParallelSchedulerContext κ :=
  if context.worker.partitionCount ≤ target then
    context.refuse (.unknownPartition target context.worker.partitionCount)
  else if target ≠ context.worker.partition ∧ delay = 0 then
    context.refuse (.zeroDelayRemoteMessage context.worker.partition target)
  else if target = context.worker.partition then context.scheduleLocalAfter delay callback
  else match checkedAdd context.now delay with
    | none => context.refuse (.tickOverflow context.now delay)
    | some tick =>
      match remoteDeliveryBeforeLookaheadError context.worker.partition target context.now tick
          context.worker.minRemoteDelay with
      | some error => context.refuse error
      | none =>
        if tick < context.worker.partitionNows target then
          context.refuse (.inThePast target (context.worker.partitionNows target) tick)
        else (.ok ⟨target, context.queue.nextRemoteOrder⟩, context.sent target tick callback)

/-- A local call is refused, or queues an event no earlier than the running
    one. -/
theorem local_cases (delay : Nat) (cb : κ) :
    (∃ error, context.scheduleLocalAfter delay cb = context.refuse error) ∨
      context.queue.now ≤ context.now + delay ∧
      context.scheduleLocalAfter delay cb
        = (.ok ⟨context.worker.partition, context.queue.nextId⟩,
            context.queued (context.now + delay) cb) := by
  unfold scheduleLocalAfter
  cases htk : checkedAdd context.now delay with
  | none => exact .inl ⟨_, rfl⟩
  | some tick =>
    rw [checkedAdd_eq_some htk]
    simp only [scheduleParallelAt]
    by_cases hle : context.queue.now ≤ context.now + delay
    · refine .inr ⟨hle, ?_⟩
      rw [scheduleEventAt_of_le _ _ _ _ hle]
    · rw [scheduleEventAt_of_lt _ _ _ _ (not_le.mp hle)]
      exact .inl ⟨_, rfl⟩

/-- A remote call is refused, is a local one, or collects an event for another
    partition at least the lookahead away. -/
theorem remote_cases (tgt delay : Nat) (cb : κ) :
    (∃ error, context.scheduleRemoteAfter tgt delay cb = context.refuse error) ∨
      (tgt = context.worker.partition ∧
        context.scheduleRemoteAfter tgt delay cb = context.scheduleLocalAfter delay cb) ∨
      (tgt < context.worker.partitionCount ∧ tgt ≠ context.worker.partition ∧
        context.now + context.worker.minRemoteDelay ≤ context.now + delay ∧
        context.scheduleRemoteAfter tgt delay cb
          = (.ok ⟨tgt, context.queue.nextRemoteOrder⟩,
              context.sent tgt (context.now + delay) cb)) := by
  unfold scheduleRemoteAfter
  by_cases hcnt : context.worker.partitionCount ≤ tgt
  · rw [if_pos hcnt]
    exact .inl ⟨_, rfl⟩
  rw [if_neg hcnt]
  by_cases hzero : tgt ≠ context.worker.partition ∧ delay = 0
  · rw [if_pos hzero]
    exact .inl ⟨_, rfl⟩
  rw [if_neg hzero]
  by_cases hloc : tgt = context.worker.partition
  · rw [if_pos hloc]
    exact .inr (.inl ⟨hloc, rfl⟩)
  rw [if_neg hloc]
  cases htk : checkedAdd context.now delay with
  | none => exact .inl ⟨_, rfl⟩
  | some tick =>
    rw [checkedAdd_eq_some htk]
    simp only
    cases hboundary : remoteDeliveryBeforeLookaheadError context.worker.partition tgt
        context.now (context.now + delay) context.worker.minRemoteDelay with
    | some error => exact .inl ⟨error, rfl⟩
    | none =>
      have hlook := lookahead_of_no_error hboundary
      simp only
      split
      · exact .inl ⟨_, rfl⟩
      · exact .inr (.inr ⟨not_le.mp hcnt, hloc, hlook, rfl⟩)

end ParallelSchedulerContext

/-- Run a parallel callback. A panic leaves the context as it was at the panic;
    rolling back is up to the worker. -/
def ParallelProgram.run :
    ParallelProgram κ σ → ParallelSchedulerContext κ → σ → Ending × ParallelSchedulerContext κ × σ
  | .done, context, store => (.returned, context, store)
  | .panic, context, store => (.panicked, context, store)
  | .read next, context, store => (next store).run context store
  | .write store next, context, _ => next.run context store
  | .scheduleLocalAfter delay callback next, context, store =>
    let outcome := context.scheduleLocalAfter delay callback
    (next outcome.1).run outcome.2 store
  | .scheduleRemoteAfter target delay callback next, context, store =>
    let outcome := context.scheduleRemoteAfter target delay callback
    (next outcome.1).run outcome.2 store
  | .recordProgressTransition next, context, store =>
    next.run context.recordProgressTransition store

/-- A property of contexts that all calls keep holds after every run
    of a parallel callback. -/
theorem ParallelProgram.run_invariant (P : ParallelSchedulerContext κ → Prop)
    (hrefused : ∀ context error, P context → P (context.refused error))
    (hqd : ∀ context tick cb, P context → context.queue.now ≤ tick →
      context.now ≤ tick → P (context.queued tick cb))
    (hsent : ∀ context tgt tick cb, P context →
      tgt < context.worker.partitionCount → tgt ≠ context.worker.partition →
      context.now + context.worker.minRemoteDelay ≤ tick → P (context.sent tgt tick cb))
    (hrecorded : ∀ context, P context → P context.recordProgressTransition) :
    ∀ (program : ParallelProgram κ σ) (context : ParallelSchedulerContext κ) (store : σ),
      P context → P (program.run context store).2.1 := by
  have hloc : ∀ (context : ParallelSchedulerContext κ) (delay : Nat) (cb : κ), P context →
      P (context.scheduleLocalAfter delay cb).2 := by
    intro context delay cb hP
    rcases context.local_cases delay cb with ⟨error, hfails⟩ | ⟨hle, hok⟩
    · rw [hfails]
      exact hrefused context error hP
    · rw [hok]
      exact hqd context _ cb hP hle (Nat.le_add_right ..)
  intro program
  induction program with
  | done | panic => intro context store hP; exact hP
  | read next ih => intro context store hP; exact ih store context store hP
  | write written next ih => intro context store hP; exact ih context written hP
  | scheduleLocalAfter delay cb next ih =>
    intro context store hP
    exact ih _ _ store (hloc context delay cb hP)
  | scheduleRemoteAfter tgt delay cb next ih =>
    intro context store hP
    refine ih _ _ store ?_
    rcases context.remote_cases tgt delay cb with
      ⟨error, hfails⟩ | ⟨-, hsame⟩ | ⟨hcnt, hne, hlook, hok⟩
    · rw [hfails]
      exact hrefused context error hP
    · rw [hsame]
      exact hloc context delay cb hP
    · rw [hok]
      exact hsent context tgt _ cb hP hcnt hne hlook
  | recordProgressTransition next ih =>
    intro context store hP
    exact ih _ store (hrecorded context hP)

end Parallel

/-- The scheduler with all that callbacks work on. -/
structure Machine (κ ω σ : Type) where
  scheduler : PartitionedScheduler κ
  world : ω
  stores : Nat → σ

/-- One dispatch: the event, what its callback got, and how it ended. -/
structure Dispatch (κ : Type) where
  partition : Nat
  event : PartitionEvent κ
  postings : List (Posting κ)
  ending : Ending
deriving DecidableEq, Repr

/-- What a run reports: how many callbacks ran and the tick it ended at. -/
structure RunSummary where
  (executedEvents finalTick : Nat)
deriving DecidableEq, Repr

end Rem6.Kernel
