import Rem6.Kernel.Commands
import Rem6.Lib.Trace

/-!
# Runs as Traces

What the loops of the dispatchers do, said once: a serial run is a trace of
serial dispatches, each of an event that no other comes before; a worker is a
trace of parallel dispatches up to the horizon; an epoch is a trace of batches.
Each loop has one theorem here that reads it this way, with how it ended, and
later proofs look at single steps only.

## Main definitions

* `SerialStep`: One dispatch of the serial dispatcher.
* `WorkerState`, `WorkerStep`, `WorkerEnd`: One dispatch of a worker, and how a
  worker stops.
* `BatchStep`, `EpochEnd`: One batch of an epoch with its merge, and how the
  batches end.

## Theorems

* `runUntilIdle_trace`, `runSerialEpochTo_trace`, `runParallelPartition_trace`,
  `runBatches_trace`: The loops as traces.
* `SerialStep.invariant`: What the calls of a callback keep, a dispatch keeps.
-/

namespace Rem6.Kernel

open Lib PartitionedScheduler EpochRun

variable {κ ω σ : Type} {callbacks : Callbacks κ ω σ}

variable {m m' : Machine κ ω σ} {p rounds hor tickLimit epochs horizon batches : Nat}
  {error : SchedulerError}

section Serial

/-- No pending event of any partition comes before the event. -/
def Least (s : PartitionedScheduler κ) (event : PartitionEvent κ) : Prop :=
  ∀ q < s.partitionCount, ∀ e ∈ (s.queues q).pending, event.tick ≤ e.tick

variable (callbacks) in
/-- One dispatch of the serial dispatcher, of the partition whose turn it is. -/
structure SerialStep (m : Machine κ ω σ) (d : Dispatch κ) (m' : Machine κ ω σ) : Prop where
  next : m.scheduler.nextPartitionWithEvent = some d.partition
  dispatched : dispatchNextInPartition callbacks m d.partition = some (m', d)

/-- The scheduler a serial callback starts with. -/
def startedScheduler (s : PartitionedScheduler κ) (partition : Nat) (rest : PartitionQueue κ)
    (tick : Nat) : PartitionedScheduler κ :=
  { s.setQueue partition { rest with now := tick } with now := tick }

theorem dispatchNextInPartition_eq_some {d}
    (h : dispatchNextInPartition callbacks m p = some (m', d)) :
    ∃ rest cb ended, (m.scheduler.queues p).popNext = some (d.event, rest) ∧
      d.partition = p ∧ d.event.callback = .serial cb ∧ d.ending = .returned ∧
      (callbacks.serial cb p d.event.tick).run ⟨p, d.event.tick⟩
        ⟨startedScheduler m.scheduler p rest d.event.tick, m.world, []⟩ = some ended ∧
      d.postings = ended.postings ∧
      m' = { m with scheduler := ended.scheduler, world := ended.world } := by
  unfold dispatchNextInPartition at h
  split at h
  next => cases h
  next ev rest hpop =>
    split at h
    next => cases h
    next cb hcb =>
      simp only [Option.map_eq_some_iff, Prod.mk.injEq] at h
      rcases h with ⟨ended, hrun, rfl, rfl⟩
      exact ⟨rest, cb, ended, hpop, rfl, hcb, rfl, hrun, rfl, rfl⟩

variable {m m' : Machine κ ω σ} {d : Dispatch κ}

section

variable (h : SerialStep callbacks m d m')
include h

theorem SerialStep.known :
    d.partition < m.scheduler.partitionCount :=
  (m.scheduler.next_spec h.next).1

theorem SerialStep.least : Least m.scheduler d.event := by
  rcases m.scheduler.next_spec h.next with ⟨-, ev, rest, hpop, hleast⟩
  rcases dispatchNextInPartition_eq_some h.dispatched with
    ⟨rest', cb, ended, hpop', -⟩
  rw [hpop, Option.some.injEq, Prod.mk.injEq] at hpop'
  rwa [← hpop'.1]

/-- A property that the start of a serial callback establishes and its calls
    keep holds after a serial dispatch. -/
theorem SerialStep.invariant_of (L : κ → Prop) (cps : Prop)
    (huses : ∀ cb, d.event.callback = .serial cb →
      (callbacks.serial cb d.partition d.event.tick).Uses L cps)
    (P : PartitionedScheduler κ → List (Posting κ) → Prop)
    (hstart : ∀ rest, (m.scheduler.queues d.partition).popNext = some (d.event, rest) →
      P (startedScheduler m.scheduler d.partition rest d.event.tick) [])
    (hkept : KeptByCalls L cps d.event.tick P) : P m'.scheduler d.postings := by
  rcases dispatchNextInPartition_eq_some h.dispatched with
    ⟨rest, cb, ended, hpop, -, hcb, -, hrun, hpos, rfl⟩
  rw [hpos]
  exact SerialProgram.run_invariant ⟨d.partition, d.event.tick⟩ hkept _ _ _
    (huses cb hcb) hrun (hstart rest hpop)

/-- The same for arbitrary callbacks. -/
theorem SerialStep.invariant
    (P : PartitionedScheduler κ → List (Posting κ) → Prop)
    (hstart : ∀ rest, (m.scheduler.queues d.partition).popNext = some (d.event, rest) →
      P (startedScheduler m.scheduler d.partition rest d.event.tick) [])
    (hkept : KeptByCalls (fun _ => True) True d.event.tick P) : P m'.scheduler d.postings :=
  h.invariant_of _ _ (fun _ _ => SerialProgram.uses_all) P hstart hkept

end

theorem runUntilIdle_trace {ds} (h : runUntilIdle callbacks rounds m = some (m', ds)) :
    ∃ last, Trace (SerialStep callbacks) m ds last ∧
        (∀ p < last.scheduler.partitionCount, (last.scheduler.queues p).pending.items = []) ∧
        m' = { last with scheduler := last.scheduler.advancePartitionsTo last.scheduler.now } := by
  induction rounds generalizing m m' ds with
  | zero => cases h
  | succ rounds ih =>
    unfold runUntilIdle at h
    split at h
    next hnext =>
      cases h
      exact ⟨m, .nil m, m.scheduler.next_none hnext, rfl⟩
    next p hnext =>
      cases hdispatch : dispatchNextInPartition callbacks m p with
      | none => simp [hdispatch] at h
      | some next =>
        rcases next with ⟨m₁, d⟩
        simp only [hdispatch, Option.map_eq_some_iff, Prod.mk.injEq] at h
        rcases h with ⟨⟨m₂, rest⟩, hrest, rfl, rfl⟩
        rcases ih hrest with ⟨last, htr, hidle, hend⟩
        rcases dispatchNextInPartition_eq_some hdispatch with
          ⟨rest', cb, ended, hpop', hpartition, -⟩
        refine ⟨last, .cons ⟨?_, ?_⟩ htr, hidle, hend⟩
        · rwa [hpartition]
        · rwa [hpartition]

variable (callbacks) in
/-- A serial dispatch of an epoch that stays on the timeline. -/
def SerialEpochStep (horizon : Nat) (m : Machine κ ω σ) (d : Dispatch κ) (m' : Machine κ ω σ) :
    Prop :=
  SerialStep callbacks m d m' ∧ d.event.tick ≤ horizon ∧
    m'.scheduler.timelineRevision = m.scheduler.timelineRevision

/-- A serial epoch ends with nothing left at or before the horizon, or with a
    dispatch that left the timeline. -/
theorem runSerialEpochTo_trace {ds} (h : runSerialEpochTo callbacks hor rounds m = some (m', ds)) :
    ∃ mid front, Trace (SerialEpochStep callbacks hor) m front mid ∧
          ((ds = front ∧
              (∀ p < mid.scheduler.partitionCount, ∀ e ∈ (mid.scheduler.queues p).pending,
                hor < e.tick) ∧
              m' = { mid with scheduler := mid.scheduler.advancePartitionsTo hor }) ∨
            ∃ d last, ds = front ++ [d] ∧ SerialStep callbacks mid d last ∧
              last.scheduler.timelineRevision ≠ mid.scheduler.timelineRevision ∧ m' = { last with
                scheduler := last.scheduler.advancePartitionsTo last.scheduler.now }) := by
  induction rounds generalizing m m' ds with
  | zero => cases h
  | succ rounds ih =>
    unfold runSerialEpochTo at h
    split at h
    next hnext =>
      cases h
      exact ⟨m, [], .nil m, .inl ⟨rfl, m.scheduler.nextAtOrBefore_none hor hnext, rfl⟩⟩
    next p hnext =>
      cases hdispatch : dispatchNextInPartition callbacks m p with
      | none => simp [hdispatch] at h
      | some next =>
        rcases next with ⟨m₁, d⟩
        rcases m.scheduler.nextAtOrBefore_spec hor p hnext with
          ⟨hp, ev, q, hpop, hhor, hleast⟩
        rcases dispatchNextInPartition_eq_some hdispatch with
          ⟨rest', cb, ended, hpop', hpartition, -⟩
        rw [hpop, Option.some.injEq, Prod.mk.injEq] at hpop'
        have hstep : SerialStep callbacks m d m₁ := by
          refine ⟨?_, ?_⟩
          · rw [hpartition]
            exact m.scheduler.next_of_nextAtOrBefore hor p hnext
          · rwa [hpartition]
        simp only [hdispatch] at h
        split at h
        · rename_i hrev
          cases h
          exact ⟨m, [], .nil m, .inr ⟨d, m₁, rfl, hstep, hrev, rfl⟩⟩
        · rename_i hrev
          simp only [Option.map_eq_some_iff, Prod.mk.injEq] at h
          rcases h with ⟨⟨m₂, rest⟩, hrest, rfl, rfl⟩
          rcases ih hrest with ⟨mid, front, htr, hend⟩
          refine ⟨mid, d :: front, .cons ⟨hstep, ?_, not_not.mp hrev⟩ htr, ?_⟩
          · rwa [← hpop'.1]
          · rcases hend with ⟨rfl, hrest⟩ | ⟨d', last, rfl, hlast⟩
            · exact .inl ⟨rfl, hrest⟩
            · exact .inr ⟨d', last, rfl, hlast⟩

variable (callbacks) in
/-- One leg of a serial run: until nothing is left, or an epoch. -/
inductive SerialLeg (m : Machine κ ω σ) (ds : List (Dispatch κ)) (m' : Machine κ ω σ) : Prop where
  | idle (rounds : Nat) (hrun : runUntilIdle callbacks rounds m = some (m', ds))
  | epoch (rounds horizon planned : Nat) (hplan : planNextEpoch m.scheduler = some planned)
      (hhorizon : min planned m.scheduler.now ≤ horizon)
      (hrun : runSerialEpochTo callbacks horizon rounds m = some (m', ds))

variable (callbacks) in
/-- A serial run is its legs, one after the other. -/
def SerialLegs (m : Machine κ ω σ) (ds : List (Dispatch κ)) (m' : Machine κ ω σ) : Prop :=
  ∃ legs, Trace (SerialLeg callbacks) m legs m' ∧ legs.flatten = ds

variable {rounds : Nat} {ds : List (Dispatch κ)}

theorem SerialLegs.nil (m : Machine κ ω σ) : SerialLegs callbacks m [] m := ⟨[], .nil m, rfl⟩

theorem SerialLeg.legs (h : SerialLeg callbacks m ds m') : SerialLegs callbacks m ds m' :=
  ⟨[ds], .cons h (.nil m'), List.flatten_singleton⟩

theorem runNextEpoch_legs (h : runNextEpoch callbacks rounds m = some (m', ds)) :
    SerialLegs callbacks m ds m' := by
  unfold runNextEpoch at h
  split at h
  next =>
    cases h
    exact .nil _
  next hor hplan => exact SerialLeg.legs (.epoch rounds hor hor hplan (min_le_left _ _) h)

theorem runNextEpochUntil_legs
    (h : runNextEpochUntil callbacks rounds tickLimit m = some (m', ds)) :
    SerialLegs callbacks m ds m' := by
  unfold runNextEpochUntil at h
  split at h
  next =>
    cases h
    exact .nil _
  next hbusy =>
    split at h
    next =>
      cases h
      exact .nil _
    next hor hplan => exact SerialLeg.legs (.epoch rounds _ hor hplan (by omega) h)

theorem runUntilIdleConservative_legs
    (h : runUntilIdleConservative callbacks rounds epochs m = some (m', ds)) :
    SerialLegs callbacks m ds m' := by
  induction epochs generalizing m ds with
  | zero => cases h
  | succ epochs ih =>
    unfold runUntilIdleConservative at h
    split at h
    next =>
      cases h
      exact .nil _
    split at h
    next => cases h
    next m₁ first hfirst =>
      have hepo := runNextEpoch_legs hfirst
      split at h
      next =>
        cases h
        exact hepo
      next =>
        obtain ⟨⟨last, rest⟩, hrest, hsame⟩ := Option.map_eq_some_iff.mp h
        cases hsame
        obtain ⟨legs, htr, rfl⟩ := hepo
        obtain ⟨legs', htr', rfl⟩ := ih hrest
        exact ⟨legs ++ legs', htr.append htr', List.flatten_append⟩

def Command.RunsSerial : Command κ → Prop
  | .runUntilIdle | .runNextEpoch | .runNextEpochUntil _ | .runUntilIdleConservative => True
  | _ => False

theorem perform_serial {cmd oc} (hserial : cmd.RunsSerial)
    (h : perform callbacks rounds m cmd = some oc) :
    ∃ m' ds, oc = serialOutcome (m', ds) ∧ SerialLegs callbacks m ds m' := by
  have hrun : ∀ {run : Option (Machine κ ω σ × List (Dispatch κ))}, run.map serialOutcome = some
      oc → (∀ m' ds, run = some (m', ds) → SerialLegs callbacks m ds m') → ∃ m' ds, oc =
      serialOutcome (m', ds) ∧ SerialLegs callbacks m ds m' := by
    intro run hmap hlegs
    obtain ⟨⟨m', ds⟩, hsome, rfl⟩ := Option.map_eq_some_iff.mp hmap
    exact ⟨m', ds, rfl, hlegs m' ds hsome⟩
  cases cmd with
  | runUntilIdle => exact hrun h fun m' ds hsome => SerialLeg.legs (.idle rounds hsome)
  | runNextEpoch => exact hrun h fun m' ds => runNextEpoch_legs
  | runNextEpochUntil tickLimit => exact hrun h fun m' ds => runNextEpochUntil_legs
  | runUntilIdleConservative => exact hrun h fun m' ds => runUntilIdleConservative_legs
  | _ => cases hserial

end Serial

section Parallel

variable {run : EpochRun κ ω σ}

/-- What a worker works on. -/
structure WorkerState (κ σ : Type) where
  queue : PartitionQueue κ
  store : σ
  remoteEvents : List (RemoteScheduledEvent κ)

variable (worker : ParallelWorker)

variable (callbacks) in
/-- The dispatch of the next event of a worker. -/
def nextDispatch (w : WorkerState κ σ) (event : PartitionEvent κ) (rest : PartitionQueue κ)
    (callback : κ) : ParallelDispatch κ σ :=
  dispatchParallel callbacks worker event rest callback w.store w.remoteEvents

variable (callbacks) in
/-- A worker dispatches an event at or before the horizon, and it returns. -/
def WorkerStep (horizon : Nat) (w : WorkerState κ σ) (d : Dispatch κ) (w' : WorkerState κ σ) :
    Prop :=
  ∃ rest callback, w.queue.popNext = some (d.event, rest) ∧ d.event.tick ≤ horizon ∧
    d.event.callback = .parallel callback ∧ d.ending = .returned ∧
    (nextDispatch callbacks worker w d.event rest callback).dispatch = d ∧
    w' = ⟨(nextDispatch callbacks worker w d.event rest callback).queue,
      (nextDispatch callbacks worker w d.event rest callback).store,
      (nextDispatch callbacks worker w d.event rest callback).remoteEvents⟩

variable (callbacks) in
/-- How a worker stops. -/
inductive WorkerEnd (worker : ParallelWorker) (horizon : Nat) (w : WorkerState κ σ)
    (front : List (Dispatch κ)) : ParallelPartitionResult κ σ → Prop where
  /-- Nothing is left at or before the horizon. -/
  | finished (hleft : ∀ e ∈ w.queue.pending, horizon < e.tick) :
      WorkerEnd worker horizon w front ⟨w.queue, w.store, w.remoteEvents, front, none⟩
  /-- The next event is a serial one. -/
  | blocked (event : PartitionEvent κ) (rest : PartitionQueue κ) (callback : κ)
      (hpop : w.queue.popNext = some (event, rest)) (htick : event.tick ≤ horizon)
      (hserial : event.callback = .serial callback) :
      WorkerEnd worker horizon w front ⟨{ rest with now := event.tick }, w.store, w.remoteEvents,
        front, some (.serialEventInParallelEpoch worker.partition event.tick)⟩
  /-- The next callback panicked. -/
  | panicked (event : PartitionEvent κ) (rest : PartitionQueue κ) (callback : κ)
      (hpop : w.queue.popNext = some (event, rest)) (htick : event.tick ≤ horizon)
      (hparallel : event.callback = .parallel callback)
      (hpanic : (nextDispatch callbacks worker w event rest callback).dispatch.ending = .panicked) :
      WorkerEnd worker horizon w front
        ⟨(nextDispatch callbacks worker w event rest callback).queue,
          (nextDispatch callbacks worker w event rest callback).store,
          (nextDispatch callbacks worker w event rest callback).remoteEvents,
          front ++ [(nextDispatch callbacks worker w event rest callback).dispatch],
          some (.parallelWorkerPanicked worker.partition)⟩

variable (callbacks) in
theorem dispatchParallel_event (ev : PartitionEvent κ) (rest : PartitionQueue κ) (cb : κ)
    (store : σ) (remote : List (RemoteScheduledEvent κ)) :
    (dispatchParallel callbacks worker ev rest cb store remote).dispatch.event = ev ∧
      (dispatchParallel callbacks worker ev rest cb store remote).dispatch.partition
        = worker.partition := by
  unfold dispatchParallel
  simp only
  split <;> exact ⟨rfl, rfl⟩

theorem runParallelPartition_trace {res} (w : WorkerState κ σ)
    (h : runParallelPartition callbacks worker horizon rounds w.queue w.store w.remoteEvents = some
      res) :
    ∃ mid front, Trace (WorkerStep callbacks worker horizon) w front mid ∧
          WorkerEnd callbacks worker horizon mid front res := by
  induction rounds generalizing w res with
  | zero => cases h
  | succ rounds ih =>
    unfold runParallelPartition at h
    split at h
    next hpop =>
      cases h
      refine ⟨w, [], .nil w, .finished (fun e he => ?_)⟩
      rw [PartitionQueue.popNext, Option.map_eq_none_iff, Agenda.pop_eq_none_iff] at hpop
      simp [Agenda.mem_def, hpop] at he
    next event rest hpop =>
      by_cases hhor : horizon < event.tick
      · rw [if_pos hhor] at h
        cases h
        refine ⟨w, [], .nil w, .finished (fun e he => ?_)⟩
        rcases PartitionQueue.popNext_eq_some _ _ _ hpop with ⟨pending, hagenda, -⟩
        rcases (Agenda.mem_of_pop _ _ _ _ hagenda).mp he with rfl | hrest
        · exact hhor
        · have hle := (Agenda.pop_first _ _ _ hagenda e hrest).tick_le
          omega
      · rw [if_neg hhor] at h
        cases hcb : event.callback with
        | serial callback =>
          simp only [hcb] at h
          cases h
          exact ⟨w, [], .nil w, .blocked event rest callback hpop (Nat.le_of_not_lt hhor) hcb⟩
        | parallel callback =>
          simp only [hcb] at h
          have hev := dispatchParallel_event callbacks worker event rest callback w.store
            w.remoteEvents
          cases hending : (dispatchParallel callbacks worker event rest callback w.store
              w.remoteEvents).dispatch.ending with
          | panicked =>
            simp only [hending] at h
            cases h
            exact ⟨w, [], .nil w, .panicked event rest callback hpop
              (Nat.le_of_not_lt hhor) hcb hending⟩
          | returned =>
            simp only [hending, Option.map_eq_some_iff] at h
            rcases h with ⟨res', hrest, rfl⟩
            rcases ih ⟨_, _, _⟩ hrest with ⟨mid, front, htr, hend⟩
            refine ⟨mid, _ :: front, .cons ⟨rest, callback, ?_, ?_, ?_, hending, ?_, ?_⟩ htr, ?_⟩
            · rwa [hev.1]
            · rw [hev.1]
              exact Nat.le_of_not_lt hhor
            · rwa [hev.1]
            · rw [hev.1]
              rfl
            · rw [hev.1]
              rfl
            · cases hend with
              | finished hleft => exact .finished hleft
              | blocked event rest callback hpop htk hserial =>
                exact .blocked event rest callback hpop htk hserial
              | panicked event rest callback hpop htk hpar hpan =>
                exact .panicked event rest callback hpop htk hpar hpan

variable (callbacks) in
/-- The results of a batch's workers, one per partition of the batch. -/
def BatchResults (rounds horizon : Nat) (ready : List Nat) (m : Machine κ ω σ)
    (results : List (Nat × ParallelPartitionResult κ σ)) : Prop :=
  List.Forall₂ (fun p entry => entry.1 = p ∧
    runParallelPartition callbacks
      ⟨p, m.scheduler.partitionCount, fun q => (m.scheduler.queues q).now,
        m.scheduler.minRemoteDelay⟩ horizon rounds (m.scheduler.queues p) (m.stores p) []
      = some entry.2) ready results

variable (callbacks) in
/-- How a batch goes. -/
inductive BatchEnd (rounds horizon : Nat) (ready : List Nat) (m : Machine κ ω σ) :
    ParallelBatchResult κ ω σ → Prop where
  /-- A clock is too close to the end of time, and queues are lost. -/
  | overflow (p : Nat) (lost : List Nat) (batch : ParallelBatchResult κ ω σ) (hp : p ∈ ready)
      (hfull : checkedAdd (m.scheduler.queues p).now m.scheduler.minRemoteDelay = none)
      (hmachine : batch.machine = { m with
        scheduler := lost.foldl (fun s q => s.setQueue q PartitionQueue.new) m.scheduler })
      (hresult : batch.result
        = .error (.epochHorizonOverflow p (m.scheduler.queues p).now m.scheduler.minRemoteDelay))
      (hdispatches : batch.dispatches = []) (hdeliveries : batch.deliveries = []) :
      BatchEnd rounds horizon ready m batch
  /-- A worker stopped with an error. -/
  | failed (results : List (Nat × ParallelPartitionResult κ σ)) (error : SchedulerError)
      (latest : Nat) (hresults : BatchResults callbacks rounds horizon ready m results)
      (herror : results.findSome? (·.2.error) = some error)
      (hlatest : latest = results.foldl (fun tick entry => max tick entry.2.queue.now)
        m.scheduler.now) :
      BatchEnd rounds horizon ready m
        ⟨match (mergeRemoteParallelEvents { (m.putBack results).scheduler with now := latest }
            (results.flatMap (·.2.remoteEvents))).1 with
          | .error e => .error e
          | .ok () => .error error,
          { m.putBack results with
            scheduler := (mergeRemoteParallelEvents
              { (m.putBack results).scheduler with now := latest }
              (results.flatMap (·.2.remoteEvents))).2 },
          results.flatMap (·.2.dispatches),
          [⟨results.flatMap (·.2.remoteEvents), (mergeRemoteParallelEvents
              { (m.putBack results).scheduler with now := latest }
              (results.flatMap (·.2.remoteEvents))).2⟩]⟩
  /-- All workers finished. -/
  | finished (results : List (Nat × ParallelPartitionResult κ σ))
      (hresults : BatchResults callbacks rounds horizon ready m results)
      (hnone : results.findSome? (·.2.error) = none) :
      BatchEnd rounds horizon ready m
        ⟨.ok ((results.flatMap (·.2.remoteEvents)).insertionSort
            RemoteScheduledEvent.DeliversBefore),
          m.putBack results, results.flatMap (·.2.dispatches), []⟩

theorem forall₂_of_mapM {α β : Type} {f : α → Option β} {items : List α} {results}
    (h : items.mapM f = some results) :
    List.Forall₂ (fun item result => f item = some result) items results := by
  induction items generalizing results with
  | nil =>
    simp only [List.mapM_nil, Option.pure_def] at h
    cases h
    exact .nil
  | cons item items ih =>
    simp only [List.mapM_cons, Option.bind_eq_bind, Option.bind_eq_some_iff, Option.pure_def,
      Option.some.injEq] at h
    rcases h with ⟨result, hitem, rest, hrest, rfl⟩
    exact .cons hitem (ih hrest)

theorem runParallelBatch_end {ready batch}
    (h : runParallelBatch callbacks rounds horizon ready m = some batch) :
    BatchEnd callbacks rounds horizon ready m batch := by
  unfold runParallelBatch at h
  simp only at h
  split at h
  · rename_i p hfind
    cases h
    have hfull := List.find?_some hfind
    exact .overflow p _ _ (List.mem_of_find?_eq_some hfind) (Option.isNone_iff_eq_none.mp hfull)
      rfl rfl rfl rfl
  · split at h
    · cases h
    · rename_i results hresults
      have hfor : BatchResults callbacks rounds horizon ready m results := by
        refine (forall₂_of_mapM hresults).imp (fun p entry hent => ?_)
        rcases Option.map_eq_some_iff.mp hent with ⟨result, hrun, rfl⟩
        exact ⟨rfl, hrun⟩
      split at h
      · rename_i error herr
        cases h
        exact .failed results error _ hfor herr rfl
      · rename_i hnone
        cases h
        exact .finished results hfor hnone

/-- What one batch of an epoch shows: its dispatches and its merge. -/
structure BatchRecord (κ : Type) where
  dispatches : List (Dispatch κ)
  delivery : Delivery κ

/-- The partitions the next batch of an epoch takes. -/
def nextBatch (horizon : Nat) (m : Machine κ ω σ) : List Nat :=
  (m.scheduler.readyPartitionsAtOrBefore horizon).take m.scheduler.maxParallelWorkers

/-- The remote events of a batch, as they are handed to the merge. -/
def sortedRemote (results : List (Nat × ParallelPartitionResult κ σ)) :
    List (RemoteScheduledEvent κ) :=
  (results.flatMap (·.2.remoteEvents)).insertionSort RemoteScheduledEvent.DeliversBefore

/-- The merge of a batch whose workers all finished. -/
def mergedBatch (m : Machine κ ω σ) (results : List (Nat × ParallelPartitionResult κ σ)) :
    Except SchedulerError Unit × PartitionedScheduler κ :=
  mergeRemoteParallelEvents (m.putBack results).scheduler (sortedRemote results)

variable (callbacks) in
/-- A batch whose workers all finished and whose remote events were all
    delivered, with no serial event in the way. -/
def BatchStep (rounds horizon : Nat) (m : Machine κ ω σ) (record : BatchRecord κ)
    (m' : Machine κ ω σ) : Prop :=
  ∃ results, BatchResults callbacks rounds horizon (nextBatch horizon m) m results ∧
    results.findSome? (·.2.error) = none ∧ (mergedBatch m results).1 = .ok () ∧
    (mergedBatch m results).2.firstSerialEventAtOrBefore horizon = none ∧
    record = ⟨results.flatMap (·.2.dispatches), ⟨sortedRemote results, (mergedBatch m results).2⟩⟩ ∧
    m' = { m.putBack results with scheduler := (mergedBatch m results).2 }

variable (callbacks) in
/-- How the batches of an epoch end, in a machine reached by whole batches. -/
inductive EpochEnd (rounds horizon : Nat) (m : Machine κ ω σ) : EpochRun κ ω σ → Prop where
  /-- No partition is ready any more. -/
  | finished (hready : m.scheduler.readyPartitionsAtOrBefore horizon = []) :
      EpochEnd rounds horizon m ⟨.ok ⟨0, m.scheduler.now⟩, m, [], []⟩
  /-- The batch failed. -/
  | failed (batch : ParallelBatchResult κ ω σ) (error : SchedulerError)
      (hbatch : BatchEnd callbacks rounds horizon (nextBatch horizon m) m batch)
      (hresult : batch.result = .error error) :
      EpochEnd rounds horizon m ⟨.error error, batch.machine, batch.dispatches, batch.deliveries⟩
  /-- A remote event could not be delivered, or a serial event is in the way. -/
  | stopped (results : List (Nat × ParallelPartitionResult κ σ)) (error : SchedulerError)
      (hresults : BatchResults callbacks rounds horizon (nextBatch horizon m) m results)
      (hnone : results.findSome? (·.2.error) = none)
      (herror : (mergedBatch m results).1 = .error error ∨
        (mergedBatch m results).1 = .ok () ∧ ∃ entry,
          (mergedBatch m results).2.firstSerialEventAtOrBefore horizon = some entry ∧
          error = .serialEventInParallelEpoch entry.1 entry.2) :
      EpochEnd rounds horizon m ⟨.error error,
        { m.putBack results with scheduler := (mergedBatch m results).2 },
        results.flatMap (·.2.dispatches), [⟨sortedRemote results, (mergedBatch m results).2⟩]⟩

/-- The run of an epoch, from its whole batches and how it ended. -/
def epochRunOf (records : List (BatchRecord κ)) (last : EpochRun κ ω σ) : EpochRun κ ω σ :=
  last.after (records.flatMap (·.dispatches)) (records.map (·.delivery))

theorem epochRunOf_cons (record : BatchRecord κ) (records : List (BatchRecord κ))
    (last : EpochRun κ ω σ) :
    (epochRunOf records last).after record.dispatches [record.delivery]
      = epochRunOf (record :: records) last := by
  rcases last with ⟨res, _⟩
  cases res with
  | error error =>
    simp only [epochRunOf, after, Except.map, List.flatMap_cons, List.map_cons,
      List.append_assoc, List.nil_append, List.cons_append]
  | ok summary =>
    simp only [epochRunOf, after, Except.map, List.flatMap_cons, List.map_cons, List.append_assoc,
      List.nil_append, List.cons_append, List.length_append, add_assoc]

theorem epochRunOf_nil (last : EpochRun κ ω σ) : epochRunOf [] last = last := by
  rcases last with ⟨res, _⟩
  cases res with
  | error error => rfl
  | ok summary =>
    simp only [epochRunOf, after, Except.map, List.flatMap_nil, List.map_nil,
      List.length_nil, zero_add, List.nil_append]

/-- The batches of an epoch as a trace. -/
theorem runBatches_trace
    (h : runBatches callbacks rounds hor batches (m.scheduler.readyPartitionsAtOrBefore hor)
      m = some run) :
    ∃ mid records last, Trace (BatchStep callbacks rounds hor) m records mid ∧
          EpochEnd callbacks rounds hor mid last ∧ run = epochRunOf records last := by
  induction batches generalizing m run with
  | zero => cases h
  | succ batches ih =>
    unfold runBatches at h
    by_cases hready : m.scheduler.readyPartitionsAtOrBefore hor = []
    · rw [if_pos hready] at h
      cases h
      exact ⟨m, [], _, .nil m, .finished hready, (epochRunOf_nil _).symm⟩
    rw [if_neg hready] at h
    cases hbat : runParallelBatch callbacks rounds hor
        ((m.scheduler.readyPartitionsAtOrBefore hor).take m.scheduler.maxParallelWorkers) m with
    | none => simp [hbat] at h
    | some batch =>
      have hend := runParallelBatch_end hbat
      simp only [hbat] at h
      cases hres : batch.result with
      | error error =>
        simp only [hres] at h
        cases h
        exact ⟨m, [], _, .nil m, .failed batch error hend hres, (epochRunOf_nil _).symm⟩
      | ok remote =>
        -- Only a batch whose workers all finished hands remote events back.
        cases hend with
        | overflow p lost _ hp hfull hmach hoverflow =>
          cases hres.symm.trans hoverflow
        | failed =>
          simp only at hres
          split at hres <;> cases hres
        | finished rs hresults hnone =>
          simp only [Except.ok.injEq] at hres
          simp only [hres] at h
          rw [← hres] at h
          cases hmerged : (mergedBatch m rs).1 with
          | error error =>
            have hmerged' := hmerged
            unfold mergedBatch sortedRemote at hmerged'
            simp only [hmerged'] at h
            cases h
            exact ⟨m, [], _, .nil m, .stopped rs error hresults hnone
              (.inl hmerged), (epochRunOf_nil _).symm⟩
          | ok _ =>
            have hmerged' := hmerged
            unfold mergedBatch sortedRemote at hmerged'
            simp only [hmerged'] at h
            split at h
            · rename_i ptn tick hserial
              cases h
              exact ⟨m, [], _, .nil m, .stopped rs _ hresults hnone
                (.inr ⟨hmerged, (ptn, tick), hserial, rfl⟩),
                (epochRunOf_nil _).symm⟩
            · rename_i hserial
              rcases Option.map_eq_some_iff.mp h with ⟨rest, hrest, rfl⟩
              rcases ih (m := { m.putBack rs with scheduler := (mergedBatch m rs).2 })
                hrest with ⟨mid, records, last, htr, hlast, rfl⟩
              refine ⟨mid, ⟨_, _⟩ :: records, last,
                .cons ⟨rs, hresults, hnone, hmerged, hserial, rfl, rfl⟩ htr,
                hlast, ?_⟩
              exact epochRunOf_cons ⟨rs.flatMap (·.2.dispatches), _⟩ records last

/-- The plan is one the scheduler would make now, with some limit. -/
def PlanFor (s : PartitionedScheduler κ) (plan : ParallelEpochPlan) : Prop :=
  ∃ limit, s.planNextParallelEpochWithLimit limit = .ok plan

variable (callbacks) in
/-- How an epoch run by a current plan goes. -/
inductive PlannedEnd (rounds : Nat) (plan : ParallelEpochPlan) (m : Machine κ ω σ) :
    EpochRun κ ω σ → Prop where
  /-- A serial event is in the way from the start. -/
  | blocked (blocker : SchedulerDispatchRecord) (hblocker : blocker ∈ plan.serialBlockers) :
      PlannedEnd rounds plan m
        ⟨.error (.serialEventInParallelEpoch blocker.id.partition blocker.tick), m, [], []⟩
  /-- The batches ended with an error. -/
  | failed (mid : Machine κ ω σ) (records : List (BatchRecord κ)) (last : EpochRun κ ω σ)
      (error : SchedulerError) (hblockers : plan.serialBlockers = [])
      (htrace : Trace (BatchStep callbacks rounds plan.horizon) m records mid)
      (hlast : EpochEnd callbacks rounds plan.horizon mid last)
      (herror : last.result = .error error) :
      PlannedEnd rounds plan m (epochRunOf records last)
  /-- Nothing is left at or before the horizon, and every clock is put to it. -/
  | finished (mid : Machine κ ω σ) (records : List (BatchRecord κ)) (run : EpochRun κ ω σ)
      (hblockers : plan.serialBlockers = [])
      (htrace : Trace (BatchStep callbacks rounds plan.horizon) m records mid)
      (hready : mid.scheduler.readyPartitionsAtOrBefore plan.horizon = [])
      (hmachine : run.machine
        = { mid with scheduler := mid.scheduler.advancePartitionsTo plan.horizon })
      (hdispatches : run.dispatches = records.flatMap (·.dispatches))
      (hdeliveries : run.deliveries = records.map (·.delivery))
      (hresult : run.result = .ok ⟨(records.flatMap (·.dispatches)).length, plan.horizon⟩ ∨
        ∃ p now delay, run.result = .error (.epochHorizonOverflow p now delay)) :
      PlannedEnd rounds plan m run

theorem frontiers_error {s : PartitionedScheduler κ} (h : s.parallelEpochFrontiers = .error error) :
    ∃ p now delay, error = .epochHorizonOverflow p now delay := by
  unfold parallelEpochFrontiers at h
  split at h
  · exact ⟨_, _, _, (Except.error.inj h).symm⟩
  · cases h

theorem runParallelEpochPlan_end {plan}
    (hplan : PlanFor m.scheduler plan)
    (h : runParallelEpochPlan callbacks rounds plan m = some run) :
    PlannedEnd callbacks rounds plan m run := by
  have hready : plan.readyPartitions.map (·.2)
      = m.scheduler.readyPartitionsAtOrBefore plan.horizon := by
    rcases hplan with ⟨limit, hplan⟩
    unfold planNextParallelEpochWithLimit at hplan
    split at hplan
    · cases hplan
    · cases hplan
      rfl
  unfold runParallelEpochPlan at h
  split at h
  next blocker blockers hblockers =>
    cases h
    exact .blocked blocker (by rw [hblockers]; exact List.mem_cons_self)
  next hblockers =>
    simp only [hready] at h
    split at h
    · cases h
    rename_i batches hbat
    rcases runBatches_trace hbat with
      ⟨mid, records, last, htr, hlast, rfl⟩
    cases hlast with
    | finished hemp =>
      simp only [epochRunOf, after, Except.map] at h
      split at h
      · rename_i error hfrontiers
        rcases frontiers_error hfrontiers with ⟨p, now, delay, rfl⟩
        cases h
        exact .finished mid records _ hblockers htr hemp rfl (List.append_nil _)
          (List.append_nil _) (.inr ⟨p, now, delay, rfl⟩)
      · cases h
        exact .finished mid records _ hblockers htr hemp rfl (List.append_nil _)
          (List.append_nil _) (.inl rfl)
    | failed batch error hbatch hres =>
      cases h
      exact .failed mid records _ error hblockers htr (.failed batch error hbatch hres) rfl
    | stopped rs error hresults hnone herr =>
      cases h
      exact .failed mid records _ error hblockers htr (.stopped rs error hresults hnone herr) rfl

theorem PartitionedScheduler.mem_serialBlockersWithTokens (s : PartitionedScheduler κ) (hor : Nat)
    (blocker : SchedulerDispatchRecord × Nat) :
    blocker ∈ s.serialBlockersWithTokensAtOrBefore hor ↔
      ∃ p < s.partitionCount, ∃ e ∈ (s.queues p).pending, e.tick ≤ hor ∧ e.isSerial = true ∧
        blocker = (e.dispatchRecord p, e.token) := by
  unfold serialBlockersWithTokensAtOrBefore PartitionQueue.serialBlockersWithTokensAtOrBefore
  rw [List.mem_insertionSort]
  simp only [List.mem_flatMap, List.mem_range, List.mem_insertionSort, List.mem_map,
    List.mem_filter, Bool.and_eq_true, decide_eq_true_eq]
  constructor
  · rintro ⟨p, hp, e, ⟨he, htk, hserial⟩, heq⟩
    exact ⟨p, hp, e, he, htk, hserial, heq.symm⟩
  · rintro ⟨p, hp, e, he, htk, hserial, heq⟩
    exact ⟨p, hp, e, ⟨he, htk, hserial⟩, heq.symm⟩

variable {s : PartitionedScheduler κ} {plan : ParallelEpochPlan}

/-- What a plan made for a scheduler says about it: no clock plus the lookahead
    is out of range or before the horizon, and the blockers are the serial events
    at or before the horizon. -/
theorem PlanFor.spec (h : PlanFor s plan) :
    (∀ p < s.partitionCount, (s.queues p).now + s.minRemoteDelay < Memory.wordLimit) ∧
      (∀ p < s.partitionCount, plan.horizon ≤ (s.queues p).now + s.minRemoteDelay) ∧
      (plan.serialBlockers = [] → ∀ p < s.partitionCount, ∀ e ∈ (s.queues p).pending,
        e.tick ≤ plan.horizon → e.isSerial = false) := by
  rcases h with ⟨limit, hplan⟩
  unfold planNextParallelEpochWithLimit at hplan
  split at hplan
  · cases hplan
  rename_i frontiers hfrontiers
  cases hplan
  unfold parallelEpochFrontiers at hfrontiers
  split at hfrontiers
  · cases hfrontiers
  rename_i hfind
  have hrange : ∀ p < s.partitionCount, (s.queues p).now + s.minRemoteDelay < Memory.wordLimit := by
    intro p hp
    have hsome := List.find?_eq_none.mp hfind p (List.mem_range.mpr hp)
    by_contra hover
    rw [checkedAdd, if_neg hover] at hsome
    exact hsome rfl
  refine ⟨hrange, fun p hp => ?_, fun hblockers p hp e he htk => ?_⟩
  · -- The horizon is the least of the frontiers, or a limit below it.
    have hmin : ((frontiers.map (·.safeUntil)).min?).getD 0
        ≤ (s.queues p).now + s.minRemoteDelay := by
      cases hmin : (frontiers.map (·.safeUntil)).min? with
      | none => exact Nat.zero_le _
      | some least =>
        refine (List.min?_eq_some_iff.mp hmin).2 _ ?_
        rw [← Except.ok.inj hfrontiers, List.map_map]
        exact List.mem_map.mpr ⟨p, List.mem_range.mpr hp, rfl⟩
    unfold horizonOf
    simp only
    cases limit with
    | none => exact hmin
    | some limit => exact (Nat.min_le_left _ _).trans hmin
  · by_contra hserial
    rw [Bool.not_eq_false] at hserial
    have hnone := List.map_eq_nil_iff.mp hblockers
    have hmem := (s.mem_serialBlockersWithTokens
      (horizonOf frontiers limit) (e.dispatchRecord p, e.token)).mpr
      ⟨p, hp, e, he, htk, hserial, rfl⟩
    simp [hnone] at hmem

/-- The partitions a plan lists as ready are, with the tick of their next event. -/
theorem PlanFor.ready (h : PlanFor s plan) :
    ∀ entry ∈ plan.readyPartitions, entry.2 < s.partitionCount ∧
      (s.queues entry.2).peekTick = some entry.1 ∧ entry.1 ≤ plan.horizon := by
  rcases h with ⟨limit, hplan⟩
  unfold planNextParallelEpochWithLimit at hplan
  split at hplan
  · cases hplan
  cases hplan
  intro entry hent
  rcases (s.mem_readyAt _ entry).mp ((List.mem_insertionSort _).mp hent) with ⟨hp, hpeek, hle⟩
  exact ⟨hp, hpeek, of_decide_eq_true hle⟩

theorem planWithLimit_of_next (h : s.planNextParallelEpoch = .ok (some plan)) :
    s.planNextParallelEpochWithLimit none = .ok plan := by
  unfold planNextParallelEpoch at h
  split at h
  · cases h
  · cases hplan : s.planNextParallelEpochWithLimit none with
    | error error =>
      rw [hplan] at h
      cases h
    | ok made =>
      simp only [hplan, Except.map, Except.ok.injEq, Option.some.injEq] at h
      rw [h]

theorem planWithLimit_of_until (h : s.planNextParallelEpochUntil tickLimit = .ok (some plan)) :
    s.now < tickLimit ∧ s.planNextParallelEpochWithLimit (some tickLimit) = .ok plan := by
  unfold planNextParallelEpochUntil at h
  split at h
  · cases h
  · rename_i hbusy
    rw [not_or, not_le] at hbusy
    cases hplan : s.planNextParallelEpochWithLimit (some tickLimit) with
    | error error =>
      rw [hplan] at h
      cases h
    | ok made =>
      simp only [hplan, Except.map, Except.ok.injEq, Option.some.injEq] at h
      exact ⟨hbusy.2, by rw [h]⟩

/-- The plan is for ticks past the scheduler's, or goes the whole lookahead past
    some clock. -/
def PlansAhead (s : PartitionedScheduler κ) (plan : ParallelEpochPlan) : Prop :=
  s.now < plan.horizon ∨ ∃ p < s.partitionCount, plan.horizon = (s.queues p).now + s.minRemoteDelay

theorem planWithLimit_horizon {limit} (h : s.planNextParallelEpochWithLimit limit = .ok plan) :
    limit = some plan.horizon ∨
      ∃ p < s.partitionCount, plan.horizon = (s.queues p).now + s.minRemoteDelay := by
  unfold planNextParallelEpochWithLimit at h
  split at h
  · cases h
  rename_i frontiers hfrontiers
  cases h
  unfold parallelEpochFrontiers at hfrontiers
  split at hfrontiers
  · cases hfrontiers
  have hleast : ∃ p < s.partitionCount,
      ((frontiers.map (·.safeUntil)).min?).getD 0 = (s.queues p).now + s.minRemoteDelay := by
    rw [← Except.ok.inj hfrontiers, List.map_map]
    cases hmin : (List.map ((·.safeUntil) ∘ fun p => (⟨p, (s.queues p).now,
        (s.queues p).now + s.minRemoteDelay, (s.queues p).peekTick,
        (s.queues p).pendingEventCount⟩ : PartitionFrontier))
        (List.range s.partitionCount)).min? with
    | none =>
      rw [List.min?_eq_none_iff, List.map_eq_nil_iff, List.range_eq_nil] at hmin
      have hpos := s.count_pos
      omega
    | some least =>
      rcases List.mem_map.mp (List.min?_eq_some_iff.mp hmin).1 with ⟨p, hp, hsame⟩
      exact ⟨p, List.mem_range.mp hp, hsame.symm⟩
  unfold horizonOf
  simp only
  cases limit with
  | none => exact .inr hleast
  | some limit =>
    simp only
    by_cases hle : ((frontiers.map (·.safeUntil)).min?).getD 0 ≤ limit
    · rw [min_eq_left hle]
      exact .inr hleast
    · rw [Nat.min_eq_right (le_of_not_ge hle)]
      exact .inl rfl

variable (callbacks) in
/-- How a call for the next epoch goes. -/
inductive EpochCall (rounds : Nat) (m : Machine κ ω σ) : EpochRun κ ω σ → Prop where
  /-- There is no plan, for want of an event or of room on the tick scale. -/
  | unplanned (run : EpochRun κ ω σ) (hmachine : run.machine = m)
      (hdispatches : run.dispatches = []) (hdeliveries : run.deliveries = [])
      (hresult : run.result = .ok ⟨0, m.scheduler.now⟩ ∨
        ∃ p now delay, run.result = .error (.epochHorizonOverflow p now delay)) :
      EpochCall rounds m run
  | planned (plan : ParallelEpochPlan) (run : EpochRun κ ω σ) (hplan : PlanFor m.scheduler plan)
      (hend : PlannedEnd callbacks rounds plan m run) (hahead : PlansAhead m.scheduler plan) :
      EpochCall rounds m run

theorem planWithLimit_error {limit} {s : PartitionedScheduler κ}
    (h : s.planNextParallelEpochWithLimit limit = .error error) :
    ∃ p now delay, error = .epochHorizonOverflow p now delay := by
  unfold planNextParallelEpochWithLimit at h
  split at h
  · rename_i error' hfrontiers
    rw [← Except.error.inj h]
    exact frontiers_error hfrontiers
  · cases h

theorem plan_error (s : PartitionedScheduler κ) (limit : Option Nat)
    {plan : Except SchedulerError (Option ParallelEpochPlan)}
    (hplan : plan = .ok none ∨ plan = (s.planNextParallelEpochWithLimit limit).map some)
    (h : plan = .error error) : ∃ p now delay, error = .epochHorizonOverflow p now delay := by
  rcases hplan with hplan | hplan
  · cases hplan.symm.trans h
  · cases hmade : s.planNextParallelEpochWithLimit limit with
    | error error' =>
      rw [hplan, hmade] at h
      rw [← Except.error.inj h]
      exact planWithLimit_error hmade
    | ok made =>
      rw [hplan, hmade] at h
      cases h

theorem runPlanned_call
    {plan : Except SchedulerError (Option ParallelEpochPlan)}
    (herr : ∀ error, plan = .error error → ∃ p now delay, error = .epochHorizonOverflow p now delay)
    (hplan : ∀ made, plan = .ok (some made) →
      PlanFor m.scheduler made ∧ PlansAhead m.scheduler made)
    (h : runPlanned callbacks rounds plan m = some run) : EpochCall callbacks rounds m run := by
  unfold runPlanned at h
  cases hcase : plan with
  | error error =>
    simp only [hcase, Option.some.injEq] at h
    rcases herr error hcase with ⟨p, now, delay, rfl⟩
    rw [← h]
    exact .unplanned _ rfl rfl rfl (.inr ⟨p, now, delay, rfl⟩)
  | ok made =>
    cases made with
    | none =>
      simp only [hcase] at h
      cases h
      exact .unplanned _ rfl rfl rfl (.inl rfl)
    | some made =>
      simp only [hcase] at h
      exact .planned made run (hplan made hcase).1 (runParallelEpochPlan_end (hplan made hcase).1 h)
        (hplan made hcase).2

theorem plan_next_cases (s : PartitionedScheduler κ) :
    s.planNextParallelEpoch = .ok none ∨
      s.planNextParallelEpoch = (s.planNextParallelEpochWithLimit none).map some := by
  unfold planNextParallelEpoch
  split
  · exact .inl rfl
  · exact .inr rfl

theorem runNextEpochParallel_call (h : runNextEpochParallel callbacks rounds m = some run) :
    EpochCall callbacks rounds m run := by
  refine runPlanned_call (fun error herr => ?_) (fun made hmade => ?_) h
  · exact plan_error m.scheduler none (plan_next_cases m.scheduler) herr
  · have hplan := planWithLimit_of_next hmade
    refine ⟨⟨none, hplan⟩, .inr ?_⟩
    rcases planWithLimit_horizon hplan with hnone | hfrontier
    · cases hnone
    · exact hfrontier

theorem runNextEpochParallelUntil_call
    (h : runNextEpochParallelUntil callbacks rounds tickLimit m = some run) :
    EpochCall callbacks rounds m run := by
  refine runPlanned_call (fun error herr => ?_) (fun made hmade => ?_) h
  · refine plan_error m.scheduler (some tickLimit) ?_ herr
    unfold planNextParallelEpochUntil
    split
    · exact .inl rfl
    · exact .inr rfl
  · rcases planWithLimit_of_until hmade with ⟨hlimit, hplan⟩
    refine ⟨⟨_, hplan⟩, ?_⟩
    rcases planWithLimit_horizon hplan with hsame | hfrontier
    · exact .inl (Option.some.inj hsame ▸ hlimit)
    · exact .inr hfrontier

variable (callbacks) in
/-- An epoch that went through. -/
def EpochStep (rounds : Nat) (m : Machine κ ω σ) (run : EpochRun κ ω σ) (m' : Machine κ ω σ) :
    Prop :=
  EpochCall callbacks rounds m run ∧ (∃ summary, run.result = .ok summary) ∧ m' = run.machine

theorem errorOf_after (run : EpochRun κ ω σ) (dispatches : List (Dispatch κ))
    (dels : List (Delivery κ)) :
    errorOf (run.after dispatches dels).result = errorOf run.result := by
  unfold after
  cases run.result <;> rfl

/-- An epoch that goes through counts its dispatches and ends at its tick. -/
theorem EpochCall.summary_eq {summary} (h : EpochCall callbacks rounds m run)
    (hres : run.result = .ok summary) :
    summary = ⟨run.dispatches.length, run.machine.scheduler.now⟩ := by
  cases h with
  | unplanned run hmach hdisp hdel hcases =>
    rcases hcases with hok | ⟨p, now, delay, herr⟩
    · rw [hmach, hdisp]
      exact Except.ok.inj (hres.symm.trans hok)
    · cases hres.symm.trans herr
  | planned plan run hplan hend =>
    cases hend with
    | blocked => cases hres
    | failed mid records last error hblockers htr hlast herr =>
      have hnone := errorOf_after last (records.flatMap (·.dispatches)) (records.map (·.delivery))
      rw [← epochRunOf, hres, herr] at hnone
      cases hnone
    | finished mid records run hblockers htr hready hmach hdisp hdel hcases =>
      rcases hcases with hok | ⟨p, now, delay, herr⟩
      · rw [hmach, hdisp]
        exact Except.ok.inj (hres.symm.trans hok)
      · cases hres.symm.trans herr

/-- Running until idle is epoch after epoch, and a last call that fails, finds
    the scheduler idle, or makes no progress. -/
theorem runUntilIdleParallel_trace (h : runUntilIdleParallel callbacks rounds epochs m = some run) :
    ∃ mid runs last, Trace (EpochStep callbacks rounds) m runs mid ∧ EpochCall callbacks rounds mid
          last ∧ run.machine = last.machine ∧ errorOf run.result = errorOf last.result ∧
          run.dispatches = runs.flatMap (·.dispatches) ++ last.dispatches ∧ run.deliveries =
          runs.flatMap (·.deliveries) ++ last.deliveries ∧
          (errorOf run.result = none → last.dispatches = [] ∧
            (mid.scheduler.isIdle = true ∨ last.machine.scheduler.now = mid.scheduler.now)) := by
  induction epochs generalizing m run with
  | zero => cases h
  | succ epochs ih =>
    unfold runUntilIdleParallel at h
    split at h
    · -- No plan for want of room.
      rename_i error hplan
      rcases plan_error m.scheduler none (plan_next_cases m.scheduler) hplan with
        ⟨p, now, delay, rfl⟩
      cases h
      refine ⟨m, [], _, .nil m, .unplanned _ rfl rfl rfl (.inr ⟨p, now, delay, rfl⟩), rfl, rfl,
        rfl, rfl, fun herr => ?_⟩
      cases herr
    · -- Idle.
      rename_i hplan
      have hidle : m.scheduler.isIdle = true := by
        by_contra hbusy
        unfold planNextParallelEpoch at hplan
        rw [if_neg hbusy] at hplan
        cases hmade : m.scheduler.planNextParallelEpochWithLimit none <;> rw [hmade] at hplan <;>
          cases hplan
      cases h
      exact ⟨m, [], _, .nil m, .unplanned _ rfl rfl rfl (.inl rfl), rfl, rfl, rfl, rfl,
        fun _ => ⟨rfl, .inl hidle⟩⟩
    · split at h
      · cases h
      rename_i first hfirst
      have hcall := runNextEpochParallel_call hfirst
      split at h
      · -- The epoch failed.
        rename_i error herr
        rw [← Option.some.inj h]
        refine ⟨m, [], first, .nil m, hcall, rfl, rfl, rfl, rfl, fun hnone => ?_⟩
        rw [herr] at hnone
        cases hnone
      rename_i summary hsum
      split at h
      · -- The epoch went nowhere.
        rename_i hstu
        rw [← Option.some.inj h]
        rw [hcall.summary_eq hsum] at hstu
        exact ⟨m, [], first, .nil m, hcall, rfl, rfl, rfl, rfl,
          fun _ => ⟨List.length_eq_zero_iff.mp hstu.2, .inr hstu.1⟩⟩
      · rcases Option.map_eq_some_iff.mp h with ⟨rest, hrest, rfl⟩
        rcases ih hrest with
          ⟨mid, runs, last, htr, hlast, hmach, herr, hdisp, hdel, hend⟩
        refine ⟨mid, first :: runs, last, .cons ⟨hcall, ⟨summary, hsum⟩, rfl⟩ htr, hlast,
          hmach, (errorOf_after rest _ _).trans herr, ?_, ?_, fun hnone => ?_⟩
        · simp [after, hdisp]
        · simp [after, hdel]
        · exact hend ((errorOf_after rest _ _).symm.trans hnone)

variable (callbacks) in
/-- How a mixed step goes. -/
inductive MixedEnd (plan : ParallelEpochPlan) (m : Machine κ ω σ) : EpochRun κ ω σ → Prop where
  /-- The plan is stale, or there is no room on the tick scale. -/
  | rejected (run : EpochRun κ ω σ) (hmachine : run.machine = m) (hdispatches : run.dispatches = [])
      (hdeliveries : run.deliveries = [])
      (hresult : run.result = .error .staleParallelEpochPlan ∨
        ∃ p now delay, run.result = .error (.epochHorizonOverflow p now delay)) :
      MixedEnd plan m run
  /-- A serial event was dispatched, and every clock is put to its tick. -/
  | serial (d : Dispatch κ) (m' : Machine κ ω σ) (run : EpochRun κ ω σ)
      (hplan : PlanFor m.scheduler plan) (hstep : SerialStep callbacks m d m')
      (hready : (d.event.tick, d.partition) ∈ plan.readyPartitions)
      (hmachine : run.machine
        = { m' with scheduler := m'.scheduler.advancePartitionsTo m'.scheduler.now })
      (hdispatches : run.dispatches = [d]) (hdeliveries : run.deliveries = [])
      (hresult : errorOf run.result = none) : MixedEnd plan m run
  /-- A parallel event was dispatched on its own. -/
  | parallel (p : Nat) (event : PartitionEvent κ) (rest : PartitionQueue κ) (callback : κ)
      (hplan : PlanFor m.scheduler plan) (hp : p < m.scheduler.partitionCount)
      (hpop : (m.scheduler.queues p).popNext = some (event, rest))
      (hleast : Least m.scheduler event) (hcallback : event.callback = .parallel callback)
      (hready : (event.tick, p) ∈ plan.readyPartitions) :
      MixedEnd plan m (dispatchNextParallelInPartition callbacks m p event rest callback)

theorem planFor_of_validate (h : s.validateParallelEpochPlan plan = .ok ()) :
    s.planNextParallelEpochWithLimit (some plan.horizon) = .ok plan := by
  unfold validateParallelEpochPlan at h
  split at h
  · cases h
  split at h
  · cases h
  split at h
  · rename_i cur hcur hsame
    rw [hcur, hsame]
  · cases h

theorem validate_error (h : s.validateParallelEpochPlan plan = .error error) :
    error = .staleParallelEpochPlan ∨ ∃ p now delay, error = .epochHorizonOverflow p now delay := by
  unfold validateParallelEpochPlan at h
  split at h
  · exact .inl (Except.error.inj h).symm
  split at h
  · rename_i error' hplan
    rw [← Except.error.inj h]
    exact .inr (planWithLimit_error hplan)
  split at h
  · cases h
  · exact .inl (Except.error.inj h).symm

theorem runNextMixedEvent_end
    (h : runNextMixedEvent callbacks plan m = some run) : MixedEnd callbacks plan m run := by
  unfold runNextMixedEvent at h
  cases hval : m.scheduler.validateParallelEpochPlan plan with
  | error error =>
    simp only [hval] at h
    cases h
    refine .rejected _ rfl rfl rfl ?_
    rcases validate_error hval with rfl | ⟨p, now, delay, rfl⟩
    · exact .inl rfl
    · exact .inr ⟨p, now, delay, rfl⟩
  | ok _ =>
    have hplan : PlanFor m.scheduler plan := ⟨_, planFor_of_validate hval⟩
    simp only [hval] at h
    cases hnext : m.scheduler.nextPartitionWithEvent with
    | none =>
      -- An accepted plan means there is an event.
      have hidle : m.scheduler.isIdle = true := by
        refine List.all_eq_true.mpr (fun p hp => ?_)
        exact List.isEmpty_iff.mpr (m.scheduler.next_none hnext p (List.mem_range.mp hp))
      unfold validateParallelEpochPlan at hval
      simp [if_pos hidle] at hval
    | some p =>
      rcases m.scheduler.next_spec hnext with ⟨hp, ev, rest, hpop, hleast⟩
      simp only [hnext, hpop] at h
      split at h
      · cases h
        exact .rejected _ rfl rfl rfl (.inl rfl)
      rename_i hready
      rw [not_not] at hready
      split at h
      · rcases Option.map_eq_some_iff.mp h with ⟨⟨m', d⟩, hdispatch, rfl⟩
        rcases dispatchNextInPartition_eq_some hdispatch with
          ⟨rest', cb, ended, hpop', hpartition, -⟩
        rw [hpop, Option.some.injEq, Prod.mk.injEq] at hpop'
        refine .serial d m' _ hplan ⟨?_, ?_⟩ ?_ rfl rfl rfl rfl
        · rwa [hpartition]
        · rwa [hpartition]
        · rwa [hpartition, ← hpop'.1]
      · rename_i cb hcb
        cases h
        exact .parallel p ev rest cb hplan hp hpop hleast hcb hready

end Parallel

end Rem6.Kernel
