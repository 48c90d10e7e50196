import Rem6.Kernel.Programs

/-!
# Dispatchers

How the scheduler runs its callbacks.

The serial dispatcher takes the least event of all queues, one at a time. A
serial run goes until no queue has an event, or epoch by epoch: up to the
horizon, which is the lookahead past the slowest clock.

The parallel dispatcher runs an epoch in batches. A batch takes as many ready
partitions as there are workers, runs each of them alone up to the horizon, and
only then puts the remote events they sent into their targets' queues. Further
batches follow until no event at or before the horizon is left. Workers share
nothing, so it does not matter in which order the model runs them. A callback
that panics is rolled back by its worker: the events it scheduled are dropped
and its id counters set back.

A mixed step dispatches one event of either kind against a plan that has to be
current.

Loops are cut off by a number of rounds. A run that comes back says so by
`some`; `none` is a run that goes on or that was left by a panic, and says
nothing.

Each run returns its dispatches, and the parallel ones the merges they made, for
the theorems to speak about. The records and profiles the source collects beside
its summaries are left out.

## Main definitions

* `dispatchNextInPartition`, `runUntilIdle`, `runSerialEpochTo`,
  `runUntilIdleConservative`: The serial dispatcher and its runs.
* `runParallelPartition`, `runParallelBatch`, `mergeRemoteParallelEvents`,
  `runParallelEpochPlan`, `runUntilIdleParallel`: The parallel ones.
* `runNextMixedEvent`: A mixed step.
-/

namespace Rem6.Kernel

open Lib RemoteScheduledEvent

section Serial

variable {κ ω σ : Type} (callbacks : Callbacks κ ω σ)

/-- Dispatch the next event of a partition. A parallel event here is a panic. -/
def dispatchNextInPartition (m : Machine κ ω σ) (partition : Nat) :
    Option (Machine κ ω σ × Dispatch κ) :=
  match (m.scheduler.queues partition).popNext with
  | none => none
  | some (event, rest) =>
    match event.callback with
    | .parallel _ => none
    | .serial callback =>
      let started := { m.scheduler.setQueue partition { rest with now := event.tick } with
        now := event.tick }
      ((callbacks.serial callback partition event.tick).run ⟨partition, event.tick⟩
        ⟨started, m.world, []⟩).map (fun ended =>
          ({ m with scheduler := ended.scheduler, world := ended.world },
            ⟨partition, event, ended.postings, .returned⟩))

def runUntilIdle : Nat → Machine κ ω σ → Option (Machine κ ω σ × List (Dispatch κ))
  | 0, _ => none
  | rounds + 1, m =>
    match m.scheduler.nextPartitionWithEvent with
    | none => some ({ m with scheduler := m.scheduler.advancePartitionsTo m.scheduler.now }, [])
    | some partition =>
      match dispatchNextInPartition callbacks m partition with
      | none => none
      | some (m', dispatch) =>
        (runUntilIdle rounds m').map (fun rest => (rest.1, dispatch :: rest.2))

/-- A serial epoch. It ends early when a callback left the timeline. -/
def runSerialEpochTo (horizon : Nat) :
    Nat → Machine κ ω σ → Option (Machine κ ω σ × List (Dispatch κ))
  | 0, _ => none
  | rounds + 1, m =>
    match m.scheduler.nextPartitionWithEventAtOrBefore horizon with
    | none => some ({ m with scheduler := m.scheduler.advancePartitionsTo horizon }, [])
    | some partition =>
      match dispatchNextInPartition callbacks m partition with
      | none => none
      | some (m', dispatch) =>
        if m'.scheduler.timelineRevision ≠ m.scheduler.timelineRevision then
          some ({ m' with
            scheduler := m'.scheduler.advancePartitionsTo m'.scheduler.now }, [dispatch])
        else (runSerialEpochTo horizon rounds m').map (fun rest => (rest.1, dispatch :: rest.2))

/-- The horizon of the next serial epoch, if there is an event. -/
def planNextEpoch (s : PartitionedScheduler κ) : Option Nat :=
  if s.isIdle then none else s.nextEpochHorizon

def runNextEpoch (rounds : Nat) (m : Machine κ ω σ) : Option (Machine κ ω σ × List (Dispatch κ)) :=
  match planNextEpoch m.scheduler with
  | none => some (m, [])
  | some horizon => runSerialEpochTo callbacks horizon rounds m

def runNextEpochUntil (rounds tickLimit : Nat) (m : Machine κ ω σ) :
    Option (Machine κ ω σ × List (Dispatch κ)) :=
  if m.scheduler.isIdle ∨ tickLimit ≤ m.scheduler.now then some (m, [])
  else match planNextEpoch m.scheduler with
    | none => some (m, [])
    | some horizon => runSerialEpochTo callbacks (min horizon tickLimit) rounds m

def runUntilIdleConservative (rounds : Nat) :
    Nat → Machine κ ω σ → Option (Machine κ ω σ × List (Dispatch κ))
  | 0, _ => none
  | epochs + 1, m =>
    match planNextEpoch m.scheduler with
    | none => some (m, [])
    | some _ =>
      match runNextEpoch callbacks rounds m with
      | none => none
      | some (m', dispatches) =>
        if m'.scheduler.now = m.scheduler.now ∧ dispatches = [] then some (m', dispatches)
        else (runUntilIdleConservative rounds epochs m').map
          (fun rest => (rest.1, dispatches ++ rest.2))

end Serial

section Parallel

variable {κ ω σ : Type} (callbacks : Callbacks κ ω σ)

/-- What the dispatch of one parallel event leaves. -/
structure ParallelDispatch (κ σ : Type) where
  queue : PartitionQueue κ
  store : σ
  remoteEvents : List (RemoteScheduledEvent κ)
  dispatch : Dispatch κ

/-- Dispatch a parallel event, with `rest` the queue it was popped from and
    `remote` what the worker has collected so far. A panic is rolled back; what
    the callback did to the store stays. -/
def dispatchParallel (worker : ParallelWorker) (event : PartitionEvent κ)
    (rest : PartitionQueue κ) (callback : κ) (store : σ)
    (remote : List (RemoteScheduledEvent κ)) : ParallelDispatch κ σ :=
  let started : ParallelSchedulerContext κ :=
    ⟨worker, event.tick, { rest with now := event.tick }, remote, []⟩
  let ended := (callbacks.parallel callback worker.partition event.tick).run started store
  let context := ended.2.1
  match ended.1 with
  | .returned =>
    ⟨context.queue, ended.2.2, context.remoteEvents,
      ⟨worker.partition, event, context.postings, .returned⟩⟩
  | .panicked =>
    ⟨{ context.queue.rollbackScheduledEvents rest.nextId rest.nextOrder with
        nextRemoteOrder := rest.nextRemoteOrder
        nextProgressOrder := rest.nextProgressOrder },
      ended.2.2, remote, ⟨worker.partition, event, context.postings, .panicked⟩⟩

/-- What a worker hands back. -/
structure ParallelPartitionResult (κ σ : Type) where
  queue : PartitionQueue κ
  store : σ
  remoteEvents : List (RemoteScheduledEvent κ)
  dispatches : List (Dispatch κ)
  error : Option SchedulerError

/-- A worker runs its partition up to the horizon, until a serial event or a
    panic stops it. The serial event is popped by then. -/
def runParallelPartition (worker : ParallelWorker) (horizon : Nat) :
    Nat → PartitionQueue κ → σ → List (RemoteScheduledEvent κ) →
      Option (ParallelPartitionResult κ σ)
  | 0, _, _, _ => none
  | rounds + 1, queue, store, remote =>
    match queue.popNext with
    | none => some ⟨queue, store, remote, [], none⟩
    | some (event, rest) =>
      if horizon < event.tick then some ⟨queue, store, remote, [], none⟩
      else match event.callback with
        | .serial _ =>
          some ⟨{ rest with now := event.tick }, store, remote, [],
            some (.serialEventInParallelEpoch worker.partition event.tick)⟩
        | .parallel callback =>
          let after := dispatchParallel callbacks worker event rest callback store remote
          match after.dispatch.ending with
          | .panicked =>
            some ⟨after.queue, after.store, after.remoteEvents, [after.dispatch],
              some (.parallelWorkerPanicked worker.partition)⟩
          | .returned =>
            (runParallelPartition worker horizon rounds after.queue after.store
              after.remoteEvents).map (fun result =>
                { result with dispatches := after.dispatch :: result.dispatches })

/-- The order remote events are delivered in. -/
def RemoteScheduledEvent.DeliversBefore (a b : RemoteScheduledEvent κ) : Prop :=
  a.target < b.target ∨ a.target = b.target ∧ (a.tick < b.tick ∨ a.tick = b.tick ∧
    (a.source < b.source ∨ a.source = b.source ∧ a.order ≤ b.order))

instance : DecidableRel (DeliversBefore (κ := κ)) :=
  fun _ _ => inferInstanceAs (Decidable (_ ∨ _))

/-- Put remote events into their targets' queues one after the other, up to the
    first that is refused. -/
def deliverAll : List (RemoteScheduledEvent κ) → PartitionedScheduler κ →
    Except SchedulerError Unit × PartitionedScheduler κ
  | [], s => (.ok (), s)
  | event :: events, s =>
    let outcome := (s.queues event.target).scheduleParallelAt event.target event.tick event.callback
    match outcome.1 with
    | .error error => (.error error, s.setQueue event.target outcome.2)
    | .ok _ => deliverAll events (s.setQueue event.target outcome.2)

def mergeRemoteParallelEvents (s : PartitionedScheduler κ)
    (remote : List (RemoteScheduledEvent κ)) :
    Except SchedulerError Unit × PartitionedScheduler κ :=
  deliverAll (remote.insertionSort DeliversBefore) s

/-- A merge: what was to be delivered, and the scheduler after it. -/
structure Delivery (κ : Type) where
  remoteEvents : List (RemoteScheduledEvent κ)
  scheduler : PartitionedScheduler κ

/-- Put a worker's queue and store back. -/
def Machine.putBack (m : Machine κ ω σ) (results : List (Nat × ParallelPartitionResult κ σ)) :
    Machine κ ω σ :=
  results.foldl (fun m entry =>
    { m with
      scheduler := m.scheduler.setQueue entry.1 entry.2.queue
      stores := Function.update m.stores entry.1 entry.2.store }) m

/-- What a batch hands back: the remote events still to be merged, or an error
    after which the batch has merged them itself. -/
structure ParallelBatchResult (κ ω σ : Type) where
  result : Except SchedulerError (List (RemoteScheduledEvent κ))
  machine : Machine κ ω σ
  dispatches : List (Dispatch κ)
  deliveries : List (Delivery κ)

def runParallelBatch (rounds horizon : Nat) (ready : List Nat) (m : Machine κ ω σ) :
    Option (ParallelBatchResult κ ω σ) :=
  let s := m.scheduler
  match ready.find? (fun p => (checkedAdd (s.queues p).now s.minRemoteDelay).isNone) with
  | some p =>
    -- The queues taken out so far, that of `p` included, are lost.
    let lost := ready.takeWhile (· ≠ p) ++ [p]
    some ⟨.error (.epochHorizonOverflow p (s.queues p).now s.minRemoteDelay),
      { m with scheduler := lost.foldl (fun s q => s.setQueue q PartitionQueue.new) s }, [], []⟩
  | none =>
    match ready.mapM (fun p =>
        (runParallelPartition callbacks
          ⟨p, s.partitionCount, fun q => (s.queues q).now, s.minRemoteDelay⟩ horizon rounds
          (s.queues p) (m.stores p) []).map (fun result => (p, result))) with
    | none => none
    | some results =>
      let ran := m.putBack results
      let dispatches := results.flatMap (·.2.dispatches)
      let remote := results.flatMap (·.2.remoteEvents)
      match results.findSome? (·.2.error) with
      | some error =>
        let latest := results.foldl (fun tick entry => max tick entry.2.queue.now) s.now
        let merged := mergeRemoteParallelEvents { ran.scheduler with now := latest } remote
        some ⟨match merged.1 with | .error e => .error e | .ok () => .error error,
          { ran with scheduler := merged.2 }, dispatches, [⟨remote, merged.2⟩]⟩
      | none => some ⟨.ok (remote.insertionSort DeliversBefore), ran, dispatches, []⟩

/-- Ready partitions with their next ticks, by tick and partition. -/
def sortReadyPartitions (ready : List (Nat × Nat)) : List (Nat × Nat) :=
  ready.insertionSort (fun a b => a.1 < b.1 ∨ a.1 = b.1 ∧ a.2 ≤ b.2)

namespace PartitionedScheduler

def readyPartitionsAtOrBefore (s : PartitionedScheduler κ) (horizon : Nat) : List Nat :=
  (sortReadyPartitions (s.readyAt (· ≤ horizon))).map (·.2)

def firstSerialEventAtOrBefore (s : PartitionedScheduler κ) (horizon : Nat) : Option (Nat × Nat) :=
  ((List.range s.partitionCount).filterMap (fun p =>
    ((s.queues p).firstSerialTickAtOrBefore horizon).map (fun tick => (p, tick)))).argmin (·.2)

end PartitionedScheduler

/-- What an epoch hands back. -/
structure EpochRun (κ ω σ : Type) where
  result : Except SchedulerError RunSummary
  machine : Machine κ ω σ
  dispatches : List (Dispatch κ)
  deliveries : List (Delivery κ)

/-- The same with more before it. -/
def EpochRun.after (run : EpochRun κ ω σ) (dispatches : List (Dispatch κ))
    (deliveries : List (Delivery κ)) : EpochRun κ ω σ :=
  { run with
    result := run.result.map (fun summary =>
      ⟨dispatches.length + summary.executedEvents, summary.finalTick⟩)
    dispatches := dispatches ++ run.dispatches
    deliveries := deliveries ++ run.deliveries }

/-- Batch after batch until no partition is ready. -/
def runBatches (rounds horizon : Nat) : Nat → List Nat → Machine κ ω σ → Option (EpochRun κ ω σ)
  | 0, _, _ => none
  | batches + 1, ready, m =>
    if ready = [] then some ⟨.ok ⟨0, m.scheduler.now⟩, m, [], []⟩
    else match runParallelBatch callbacks rounds horizon
        (ready.take m.scheduler.maxParallelWorkers) m with
      | none => none
      | some batch =>
        match batch.result with
        | .error error => some ⟨.error error, batch.machine, batch.dispatches, batch.deliveries⟩
        | .ok remote =>
          let merged := mergeRemoteParallelEvents batch.machine.scheduler remote
          let m' := { batch.machine with scheduler := merged.2 }
          let deliveries := [⟨remote, merged.2⟩]
          match merged.1 with
          | .error error => some ⟨.error error, m', batch.dispatches, deliveries⟩
          | .ok () =>
            match merged.2.firstSerialEventAtOrBefore horizon with
            | some (partition, tick) =>
              some ⟨.error (.serialEventInParallelEpoch partition tick), m',
                batch.dispatches, deliveries⟩
            | none =>
              (runBatches rounds horizon batches
                (merged.2.readyPartitionsAtOrBefore horizon) m').map
                (·.after batch.dispatches deliveries)

/-- How far a partition may run and what it has to do. -/
structure PartitionFrontier where
  (partition now safeUntil : Nat)
  nextTick : Option Nat
  pendingEvents : Nat
deriving DecidableEq, Repr

/-- A plan, with the tokens that tie it to the events it was made for. The
    planned batches and delivery windows of the source follow from the rest. -/
structure ParallelEpochPlan where
  schedulerInstance : Option Nat
  horizon : Nat
  (readyPartitions readyEventTokens : List (Nat × Nat))
  frontiers : List PartitionFrontier
  serialBlockers : List SchedulerDispatchRecord
  serialBlockerTokens : List (PartitionEventId × Nat)
  parallelWorkerLimit : Nat
deriving DecidableEq, Repr

namespace PartitionedScheduler

variable (s : PartitionedScheduler κ)

def parallelEpochFrontiers : Except SchedulerError (List PartitionFrontier) :=
  match (List.range s.partitionCount).find?
      (fun p => (checkedAdd (s.queues p).now s.minRemoteDelay).isNone) with
  | some p => .error (.epochHorizonOverflow p (s.queues p).now s.minRemoteDelay)
  | none => .ok ((List.range s.partitionCount).map (fun p =>
    ⟨p, (s.queues p).now, (s.queues p).now + s.minRemoteDelay, (s.queues p).peekTick,
      (s.queues p).pendingEventCount⟩))

def serialBlockersWithTokensAtOrBefore (horizon : Nat) : List (SchedulerDispatchRecord × Nat) :=
  ((List.range s.partitionCount).flatMap (fun p =>
    (s.queues p).serialBlockersWithTokensAtOrBefore p horizon)).insertionSort
      (fun a b => a.1.tick < b.1.tick ∨ a.1.tick = b.1.tick ∧
        (a.1.id.partition < b.1.id.partition ∨ a.1.id.partition = b.1.id.partition ∧
          a.1.id.localId ≤ b.1.id.localId))

/-- The least of the frontiers, cut at a limit. -/
def horizonOf (frontiers : List PartitionFrontier) (limit : Option Nat) : Nat :=
  let horizon := ((frontiers.map (·.safeUntil)).min?).getD 0
  match limit with
  | some limit => min horizon limit
  | none => horizon

def planNextParallelEpochWithLimit (limit : Option Nat) : Except SchedulerError ParallelEpochPlan :=
  match s.parallelEpochFrontiers with
  | .error error => .error error
  | .ok frontiers =>
    let horizon := horizonOf frontiers limit
    let ready := sortReadyPartitions (s.readyAt (· ≤ horizon))
    let blockers := s.serialBlockersWithTokensAtOrBefore horizon
    .ok
      { schedulerInstance := some s.instanceId
        horizon
        readyPartitions := ready
        readyEventTokens := ready.filterMap (fun entry =>
          ((s.queues entry.2).pending.peek).map (fun event => (entry.2, event.token)))
        frontiers
        serialBlockers := blockers.map (·.1)
        serialBlockerTokens := blockers.map (fun blocker => (blocker.1.id, blocker.2))
        parallelWorkerLimit := s.maxParallelWorkers }

def planNextParallelEpoch : Except SchedulerError (Option ParallelEpochPlan) :=
  if s.isIdle then .ok none else (s.planNextParallelEpochWithLimit none).map some

def planNextParallelEpochUntil (tickLimit : Nat) :
    Except SchedulerError (Option ParallelEpochPlan) :=
  if s.isIdle ∨ tickLimit ≤ s.now then .ok none
  else (s.planNextParallelEpochWithLimit (some tickLimit)).map some

def validateParallelEpochPlan (plan : ParallelEpochPlan) : Except SchedulerError Unit :=
  if s.isIdle then .error .staleParallelEpochPlan
  else match s.planNextParallelEpochWithLimit (some plan.horizon) with
    | .error error => .error error
    | .ok current => if current = plan then .ok () else .error .staleParallelEpochPlan

end PartitionedScheduler

/-- Run an epoch by a plan made for the scheduler as it is. -/
def runParallelEpochPlan (rounds : Nat) (plan : ParallelEpochPlan) (m : Machine κ ω σ) :
    Option (EpochRun κ ω σ) :=
  match plan.serialBlockers with
  | blocker :: _ =>
    some ⟨.error (.serialEventInParallelEpoch blocker.id.partition blocker.tick), m, [], []⟩
  | [] =>
    match runBatches callbacks rounds plan.horizon rounds (plan.readyPartitions.map (·.2)) m with
    | none => none
    | some run =>
      match run.result with
      | .error _ => some run
      | .ok summary =>
        let advanced := run.machine.scheduler.advancePartitionsTo plan.horizon
        let ended := { run.machine with scheduler := advanced }
        match advanced.parallelEpochFrontiers with
        | .error error => some { run with result := .error error, machine := ended }
        | .ok _ =>
          some { run with
            result := .ok ⟨summary.executedEvents, advanced.now⟩
            machine := ended }

/-- Run the epoch a plan was asked for, if there is one. -/
def runPlanned (rounds : Nat) (plan : Except SchedulerError (Option ParallelEpochPlan))
    (m : Machine κ ω σ) : Option (EpochRun κ ω σ) :=
  match plan with
  | .error error => some ⟨.error error, m, [], []⟩
  | .ok none => some ⟨.ok ⟨0, m.scheduler.now⟩, m, [], []⟩
  | .ok (some plan) => runParallelEpochPlan callbacks rounds plan m

def runNextEpochParallel (rounds : Nat) (m : Machine κ ω σ) : Option (EpochRun κ ω σ) :=
  runPlanned callbacks rounds m.scheduler.planNextParallelEpoch m

def runNextEpochParallelUntil (rounds tickLimit : Nat) (m : Machine κ ω σ) :
    Option (EpochRun κ ω σ) :=
  runPlanned callbacks rounds (m.scheduler.planNextParallelEpochUntil tickLimit) m

def runUntilIdleParallel (rounds : Nat) : Nat → Machine κ ω σ → Option (EpochRun κ ω σ)
  | 0, _ => none
  | epochs + 1, m =>
    match m.scheduler.planNextParallelEpoch with
    | .error error => some ⟨.error error, m, [], []⟩
    | .ok none => some ⟨.ok ⟨0, m.scheduler.now⟩, m, [], []⟩
    | .ok (some _) =>
      match runNextEpochParallel callbacks rounds m with
      | none => none
      | some run =>
        match run.result with
        | .error _ => some run
        | .ok summary =>
          if summary.finalTick = m.scheduler.now ∧ summary.executedEvents = 0 then some run
          else (runUntilIdleParallel rounds epochs run.machine).map
            (·.after run.dispatches run.deliveries)

/-- Dispatch the next event, a parallel one, of a partition on its own. -/
def dispatchNextParallelInPartition (m : Machine κ ω σ) (partition : Nat)
    (event : PartitionEvent κ) (rest : PartitionQueue κ) (callback : κ) : EpochRun κ ω σ :=
  let s := m.scheduler
  let after := dispatchParallel callbacks
    ⟨partition, s.partitionCount, fun q => (s.queues q).now, s.minRemoteDelay⟩ event rest callback
    (m.stores partition) []
  let stores := Function.update m.stores partition after.store
  let put := s.setQueue partition after.queue
  match after.dispatch.ending with
  | .panicked =>
    ⟨.error (.parallelWorkerPanicked partition),
      ⟨put.advancePartitionsTo event.tick, m.world, stores⟩, [after.dispatch], []⟩
  | .returned =>
    let merged := mergeRemoteParallelEvents { put with now := event.tick } after.remoteEvents
    let deliveries := [⟨after.remoteEvents, merged.2⟩]
    match merged.1 with
    | .error error => ⟨.error error, ⟨merged.2, m.world, stores⟩, [after.dispatch], deliveries⟩
    | .ok () =>
      let advanced := merged.2.advancePartitionsTo merged.2.now
      match advanced.parallelEpochFrontiers with
      | .error error => ⟨.error error, ⟨advanced, m.world, stores⟩, [after.dispatch], deliveries⟩
      | .ok _ => ⟨.ok ⟨1, advanced.now⟩, ⟨advanced, m.world, stores⟩, [after.dispatch], deliveries⟩

def runNextMixedEvent (plan : ParallelEpochPlan) (m : Machine κ ω σ) : Option (EpochRun κ ω σ) :=
  match m.scheduler.validateParallelEpochPlan plan with
  | .error error => some ⟨.error error, m, [], []⟩
  | .ok () =>
    match m.scheduler.nextPartitionWithEvent with
    | none => some ⟨.ok ⟨0, m.scheduler.now⟩, m, [], []⟩
    | some partition =>
      match (m.scheduler.queues partition).popNext with
      | none => none
      | some (event, rest) =>
        if (event.tick, partition) ∉ plan.readyPartitions then
          some ⟨.error .staleParallelEpochPlan, m, [], []⟩
        else match event.callback with
          | .serial _ =>
            (dispatchNextInPartition callbacks m partition).map (fun ended =>
              let advanced := ended.1.scheduler.advancePartitionsTo ended.1.scheduler.now
              ⟨.ok ⟨1, advanced.now⟩, { ended.1 with scheduler := advanced }, [ended.2], []⟩)
          | .parallel callback =>
            some (dispatchNextParallelInPartition callbacks m partition event rest callback)

end Parallel

end Rem6.Kernel
