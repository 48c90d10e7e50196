import Rem6.Kernel.Traces

/-!
# What a Batch Does

The parallel dispatcher moves queues out to workers, runs callbacks there and
merges what they sent. This module accounts for the events: what a callback adds
to its queue and to the events on their way to the barrier, what is left of that
when it panics, what a worker hands back, and what the merge makes of it.

A merge puts remote events into their targets' queues one by one and stops at
the first one a clock refuses. `PartitionQueue.receive` is what a queue becomes,
and `deliverAll_eq` says that every queue receives the events for it, in the
order of the merge, if no clock is past its events.

## Main definitions

* `queuedBy`, `sentBy`: The events a callback queued, and those it sent.
* `startedContext`, `endedContext`: The context before and after a callback.
* `ContextAfter`: How the two differ.
* `PartitionQueue.receive`: A queue with remote events put into it.

## Theorems

* `endedContext_after`: What a callback does to its context.
* `dispatchParallel_cases`: What a dispatch leaves, by how the callback ended.
* `runParallelPartition_sent`: A worker hands back what its callbacks sent.
* `deliverAll_prefix`, `deliverAll_eq`: What a merge does.
* `queues_putBack`: What putting the workers' queues back does.
-/

namespace Rem6.Kernel

open Lib PartitionQueue List

variable {κ ω σ : Type} {callbacks : Callbacks κ ω σ}

section Callbacks

variable (postings : List (Posting κ))

/-- The events that were put into a queue. -/
def queuedBy : List (PartitionEvent κ) :=
  postings.filterMap (fun posting =>
    match posting with
    | .queued _ event => some event
    | _ => none)

/-- The events that were collected for the barrier. -/
def sentBy : List (RemoteScheduledEvent κ) :=
  postings.filterMap (fun posting =>
    match posting with
    | .sent _ event => some event
    | _ => none)

theorem mem_queuedBy {ev} : ev ∈ queuedBy postings ↔ ∃ id, Posting.queued id ev ∈ postings := by
  simp only [queuedBy, mem_filterMap]
  constructor
  · rintro ⟨posting, hposting, h⟩
    cases posting with
    | queued id => exact ⟨id, Option.some.inj h ▸ hposting⟩
    | sent | refused error | restored lowered => cases h
  · rintro ⟨id, h⟩
    exact ⟨_, h, rfl⟩

@[simp]
theorem queuedBy_nil : queuedBy ([] : List (Posting κ)) = [] := rfl

@[simp]
theorem sentBy_nil : sentBy ([] : List (Posting κ)) = [] := rfl

variable {id : PartitionEventId}

@[simp]
theorem queuedBy_queued {ev} :
    queuedBy (postings ++ [.queued id ev]) = queuedBy postings ++ [ev] := by
  simp [queuedBy]

@[simp]
theorem sentBy_queued {ev} :
    sentBy (postings ++ [.queued id ev]) = sentBy postings := by
  simp [sentBy]

@[simp]
theorem queuedBy_sent {ev} :
    queuedBy (postings ++ [.sent id ev]) = queuedBy postings := by
  simp [queuedBy]

@[simp]
theorem sentBy_sent {ev} :
    sentBy (postings ++ [.sent id ev]) = sentBy postings ++ [ev] := by
  simp [sentBy]

@[simp]
theorem queuedBy_refused {error} : queuedBy (postings ++ [.refused error]) = queuedBy postings := by
  simp [queuedBy]

@[simp]
theorem sentBy_refused {error} : sentBy (postings ++ [.refused error]) = sentBy postings := by
  simp [sentBy]

@[simp]
theorem sentBy_restored {lowered} : sentBy (postings ++ [.restored lowered]) = sentBy postings := by
  simp [sentBy]

/-- The context a parallel callback starts with. -/
def startedContext (worker : ParallelWorker) (event : PartitionEvent κ) (rest : PartitionQueue κ)
    (remote : List (RemoteScheduledEvent κ)) : ParallelSchedulerContext κ :=
  ⟨worker, event.tick, { rest with now := event.tick }, remote, []⟩

variable (callbacks) in
/-- The context it leaves. -/
def endedContext (worker : ParallelWorker) (event : PartitionEvent κ) (rest : PartitionQueue κ)
    (callback : κ) (store : σ) (remote : List (RemoteScheduledEvent κ)) :
    ParallelSchedulerContext κ :=
  ((callbacks.parallel callback worker.partition event.tick).run
    (startedContext worker event rest remote) store).2.1

variable (callbacks) in
/-- What a dispatch leaves: all the callback did, or nothing but its store. -/
theorem dispatchParallel_cases (worker : ParallelWorker) (ev : PartitionEvent κ)
    (rest : PartitionQueue κ) (cb : κ) (store : σ) (remote : List (RemoteScheduledEvent κ)) :
    let after := dispatchParallel callbacks worker ev rest cb store remote
    let ended := endedContext callbacks worker ev rest cb store remote
    (after.dispatch = ⟨worker.partition, ev, ended.postings, .returned⟩ ∧
        after.queue = ended.queue ∧ after.remoteEvents = ended.remoteEvents) ∨
      (after.dispatch = ⟨worker.partition, ev, ended.postings, .panicked⟩ ∧
        after.queue = { ended.queue.rollbackScheduledEvents rest.nextId rest.nextOrder with
          nextRemoteOrder := rest.nextRemoteOrder
          nextProgressOrder := rest.nextProgressOrder } ∧
        after.remoteEvents = remote) := by
  intro after ended
  cases hend : ((callbacks.parallel cb worker.partition ev.tick).run
      (startedContext worker ev rest remote) store).1 with
  | returned =>
    left
    simp only [after, dispatchParallel]
    rw [show (callbacks.parallel cb worker.partition ev.tick).run
      ⟨worker, ev.tick, { rest with now := ev.tick }, remote, []⟩ store
      = (callbacks.parallel cb worker.partition ev.tick).run
        (startedContext worker ev rest remote) store from rfl, hend]
    exact ⟨rfl, rfl, rfl⟩
  | panicked =>
    right
    simp only [after, dispatchParallel]
    rw [show (callbacks.parallel cb worker.partition ev.tick).run
      ⟨worker, ev.tick, { rest with now := ev.tick }, remote, []⟩ store
      = (callbacks.parallel cb worker.partition ev.tick).run
        (startedContext worker ev rest remote) store from rfl, hend]
    exact ⟨rfl, rfl, rfl⟩

/-- What the calls of a parallel callback add to its context. -/
structure ContextAfter (start context : ParallelSchedulerContext κ) : Prop where
  worker : context.worker = start.worker
  now : context.now = start.now
  clock : context.queue.now = start.queue.now
  remoteEvents : context.remoteEvents = start.remoteEvents ++ sentBy context.postings
  pending : context.queue.pending.items.Perm
    (queuedBy context.postings ++ start.queue.pending.items)
  counted : (∀ e ∈ queuedBy context.postings, e.NotLast) →
    context.queue.nextId = start.queue.nextId + (queuedBy context.postings).length ∧
      ∀ e ∈ queuedBy context.postings, start.queue.nextId ≤ e.id.localId
  queued : ∀ e ∈ queuedBy context.postings, start.now ≤ e.tick ∧
    ∃ callback, e.callback = .parallel callback
  handles : ∀ id e, Posting.queued id e ∈ context.postings →
    e.id.partition = start.worker.partition ∧ id = e.id
  sent : ∀ r ∈ sentBy context.postings, r.source = start.worker.partition ∧
    r.target < start.worker.partitionCount ∧ r.target ≠ start.worker.partition ∧
    start.now + start.worker.minRemoteDelay ≤ r.tick

variable (callbacks) in
/-- What a callback does to its context. -/
theorem endedContext_after (worker : ParallelWorker) (ev : PartitionEvent κ)
    (rest : PartitionQueue κ) (cb : κ) (store : σ) (remote : List (RemoteScheduledEvent κ)) :
    ContextAfter (startedContext worker ev rest remote)
      (endedContext callbacks worker ev rest cb store remote) := by
  refine ParallelProgram.run_invariant
    (ContextAfter (startedContext worker ev rest remote)) ?_ ?_ ?_ ?_ _ _ _ ?_
  · intro ctx error h
    constructor <;> simp only [ParallelSchedulerContext.refused, queuedBy_refused, sentBy_refused]
    · exact h.worker
    · exact h.now
    · exact h.clock
    · exact h.remoteEvents
    · exact h.pending
    · exact h.counted
    · exact h.queued
    · intro id e hmem
      simp only [mem_append, mem_singleton, reduceCtorEq, or_false] at hmem
      exact h.handles id e hmem
    · exact h.sent
  · intro ctx tick cb h hclk hnow
    constructor <;> simp only [ParallelSchedulerContext.queued, queuedBy_queued, sentBy_queued]
    · exact h.worker
    · exact h.now
    · exact h.clock
    · exact h.remoteEvents
    · refine (perm_orderedInsert _ _ _).trans ?_
      rw [append_assoc]
      exact ((Perm.cons _ h.pending).trans perm_middle.symm)
    · -- The new event has a successor, so the counter has not come round.
      intro hlast
      obtain ⟨hnew, hge⟩ := h.counted fun e he => hlast e (mem_append_left _ he)
      have hroom : ctx.queue.nextId + 1 < Memory.wordLimit :=
        (hlast _ (mem_append_right _ (mem_singleton.mpr rfl))).1
      refine ⟨?_, forall_mem_append.mpr ⟨hge, forall_mem_singleton.mpr ?_⟩⟩
      · show (ctx.queue.nextId + 1) % Memory.wordLimit = _
        rw [Nat.mod_eq_of_lt hroom, hnew, length_append]
        rfl
      · show _ ≤ ctx.queue.nextId
        rw [hnew]
        exact Nat.le_add_right _ _
    · intro e he
      rcases mem_append.mp he with he | he
      · exact h.queued e he
      · rw [mem_singleton.mp he]
        refine ⟨?_, cb, rfl⟩
        rwa [← h.now]
    · intro id e hmem
      rcases mem_append.mp hmem with hmem | hmem
      · exact h.handles id e hmem
      · rw [mem_singleton, Posting.queued.injEq] at hmem
        rw [hmem.1, hmem.2, ← h.worker]
        exact ⟨rfl, rfl⟩
    · exact h.sent
  · intro ctx tgt tick cb h hcnt hne hlook
    constructor <;> simp only [ParallelSchedulerContext.sent, queuedBy_sent, sentBy_sent]
    · exact h.worker
    · exact h.now
    · exact h.clock
    · rw [h.remoteEvents, append_assoc]
    · exact h.pending
    · exact h.counted
    · exact h.queued
    · intro id e hmem
      simp only [mem_append, mem_singleton, reduceCtorEq, or_false] at hmem
      exact h.handles id e hmem
    · intro r hr
      rcases mem_append.mp hr with hr | hr
      · exact h.sent r hr
      · rw [mem_singleton.mp hr]
        simp only [ParallelSchedulerContext.remoteEvent]
        rw [← h.worker, ← h.now]
        exact ⟨rfl, hcnt, hne, hlook⟩
  · exact fun ctx h => ⟨h.1, h.2, h.3, h.4, h.5, h.6, h.7, h.8, h.9⟩
  · constructor <;> simp only [startedContext, queuedBy_nil, sentBy_nil, append_nil,
      nil_append, length_nil, add_zero]
    · exact .refl _
    all_goals simp

end Callbacks

variable {store : σ} {s : PartitionedScheduler κ}

section Workers

/-- The events sent by those callbacks that returned. -/
def sentByReturned (dispatches : List (Dispatch κ)) : List (RemoteScheduledEvent κ) :=
  (dispatches.filter (·.ending = .returned)).flatMap (fun d => sentBy d.postings)

theorem sentByReturned_append {front back : List (Dispatch κ)} :
    sentByReturned (front ++ back) = sentByReturned front ++ sentByReturned back := by
  simp [sentByReturned]

variable {horizon rounds : Nat}

theorem WorkerStep.remoteEvents {worker w d w'} (h : WorkerStep callbacks worker horizon w d w') :
    w'.remoteEvents = w.remoteEvents ++ sentByReturned [d] := by
  obtain ⟨rest, cb, hpop, htk, hpar, hend, hdispatch, rfl⟩ := h
  have haft := endedContext_after callbacks worker d.event rest cb w.store w.remoteEvents
  rcases dispatchParallel_cases callbacks worker d.event rest cb w.store w.remoteEvents with
    ⟨hcase, -, hremote⟩ | ⟨hcase, _⟩
  · unfold nextDispatch at hdispatch ⊢
    rw [hcase] at hdispatch
    simp only [hremote, haft.remoteEvents, startedContext, sentByReturned, filter_cons, hend,
      decide_true, if_true, filter_nil, flatMap_cons, flatMap_nil, append_nil]
    rw [← hdispatch]
  · unfold nextDispatch at hdispatch
    rw [← hdispatch, hcase] at hend
    cases hend

/-- A worker hands back what its callbacks sent, those that panicked apart. -/
theorem runParallelPartition_sent {worker q res}
    (h : runParallelPartition callbacks worker horizon rounds q store [] = some res) :
    res.remoteEvents = sentByReturned res.dispatches := by
  rcases runParallelPartition_trace worker ⟨q, store, []⟩ h with
    ⟨mid, front, htr, hend⟩
  have hfront : mid.remoteEvents = sentByReturned front := by
    refine htr.invariant (fun past w => w.remoteEvents = sentByReturned past) ?_ [] rfl
    intro past w d w' hpast hstep
    rw [hstep.remoteEvents, hpast, sentByReturned_append]
  cases hend with
  | finished hleft | blocked => exact hfront
  | panicked ev rest cb hpop htk hpar hpan =>
    rcases dispatchParallel_cases callbacks worker ev rest cb mid.store
      mid.remoteEvents with ⟨hcase, _⟩ | ⟨hcase, -, hremote⟩
    · unfold nextDispatch at hpan
      simp [hcase] at hpan
    · simp only [nextDispatch, hremote, hcase, sentByReturned_append]
      rw [← hfront]
      simp [sentByReturned]

theorem runParallelPartition_error {worker q res error}
    (h : runParallelPartition callbacks worker horizon rounds q store [] = some res)
    (herr : res.error = some error) :
    (∃ tick, error = .serialEventInParallelEpoch worker.partition tick) ∨
      error = .parallelWorkerPanicked worker.partition := by
  rcases runParallelPartition_trace worker ⟨q, store, []⟩ h with
    ⟨mid, front, htr, hend⟩
  cases hend with
  | finished hleft => cases herr
  | blocked ev => exact .inl ⟨ev.tick, (Option.some.inj herr).symm⟩
  | panicked => exact .inr (Option.some.inj herr).symm

variable {ready : List Nat} {m : Machine κ ω σ} {rs : List (Nat × ParallelPartitionResult κ σ)}

section

variable (h : BatchResults callbacks rounds horizon ready m rs)
include h

theorem BatchResults.worker :
    ∀ entry ∈ rs, entry.1 ∈ ready ∧
      runParallelPartition callbacks
        ⟨entry.1, m.scheduler.partitionCount, fun q => (m.scheduler.queues q).now,
          m.scheduler.minRemoteDelay⟩ horizon rounds (m.scheduler.queues entry.1)
        (m.stores entry.1) [] = some entry.2 := by
  unfold BatchResults at h
  induction h with
  | nil => exact by simp
  | cons hhead htail ih =>
    intro entry hent
    rcases mem_cons.mp hent with rfl | hent
    · obtain ⟨rfl, hrun⟩ := hhead
      exact ⟨mem_cons_self, hrun⟩
    · exact ⟨mem_cons_of_mem _ (ih entry hent).1, (ih entry hent).2⟩

theorem BatchResults.error
    (error : SchedulerError) (herr : rs.findSome? (·.2.error) = some error) :
    ∃ p ∈ ready, (∃ tick, error = .serialEventInParallelEpoch p tick) ∨
      error = .parallelWorkerPanicked p := by
  obtain ⟨entry, hent, hfailed⟩ := exists_of_findSome?_eq_some herr
  obtain ⟨hp, hrun⟩ := h.worker entry hent
  exact ⟨entry.1, hp, runParallelPartition_error hrun hfailed⟩

theorem BatchResults.sent :
    rs.flatMap (·.2.remoteEvents) = sentByReturned (rs.flatMap (·.2.dispatches)) := by
  have hworkers : ∀ entry ∈ rs, entry.2.remoteEvents = sentByReturned entry.2.dispatches :=
    fun entry hent => runParallelPartition_sent (h.worker entry hent).2
  clear h
  induction rs with
  | nil => rfl
  | cons entry rs ih =>
    rw [flatMap_cons, flatMap_cons, sentByReturned_append, hworkers entry mem_cons_self,
      ih (fun other hoth => hworkers other (mem_cons_of_mem _ hoth))]

end

end Workers

section Merges

variable (partition : Nat)

/-- A queue with remote events put into it. -/
def PartitionQueue.receive (queue : PartitionQueue κ) (events : List (RemoteScheduledEvent κ)) :
    PartitionQueue κ :=
  events.foldl (fun queue event =>
    queue.enqueue partition event.tick (.parallel event.callback)) queue

/-- The remote events for a partition. -/
def eventsFor (events : List (RemoteScheduledEvent κ)) : List (RemoteScheduledEvent κ) :=
  events.filter (·.target = partition)

/-- The scheduler with remote events put into their targets' queues. -/
def PartitionedScheduler.received (s : PartitionedScheduler κ)
    (events : List (RemoteScheduledEvent κ)) : PartitionedScheduler κ :=
  { s with queues := fun p => (s.queues p).receive p (eventsFor p events) }

theorem PartitionedScheduler.received_nil : s.received [] = s := rfl

theorem PartitionedScheduler.received_cons (s : PartitionedScheduler κ)
    (ev : RemoteScheduledEvent κ) (evs : List (RemoteScheduledEvent κ)) :
    (s.setQueue ev.target ((s.queues ev.target).enqueue ev.target ev.tick
      (.parallel ev.callback))).received evs = s.received (ev :: evs) := by
  unfold received
  congr 1
  funext p
  simp only [queue_setQueue, eventsFor, filter_cons]
  by_cases hp : ev.target = p
  · simp [hp, receive]
  · have hne : ¬ p = ev.target := fun h => hp h.symm
    simp [hp, hne]

/-- A merge delivers its events up to the first that a clock refuses. -/
theorem deliverAll_prefix : ∀ (evs : List (RemoteScheduledEvent κ)) (s : PartitionedScheduler κ),
    ∃ front, front <+: evs ∧ (deliverAll evs s).2 = s.received front ∧
      ((deliverAll evs s).1 = .ok () → front = evs) := by
  intro evs
  induction evs with
  | nil => intro s; exact ⟨[], prefix_refl _, rfl, fun _ => rfl⟩
  | cons ev evs ih =>
    intro s
    unfold deliverAll scheduleParallelAt
    by_cases hle : (s.queues ev.target).now ≤ ev.tick
    · rw [scheduleEventAt_of_le _ _ _ _ hle]
      rcases ih (s.setQueue ev.target ((s.queues ev.target).enqueue ev.target ev.tick
        (.parallel ev.callback))) with ⟨front, hpre, hqs, hall⟩
      refine ⟨ev :: front, (cons_prefix_cons).mpr ⟨rfl, hpre⟩, ?_, fun hok => ?_⟩
      · rwa [← s.received_cons]
      · rw [hall hok]
    · rw [scheduleEventAt_of_lt _ _ _ _ (not_le.mp hle)]
      refine ⟨[], nil_prefix, ?_, fun hok => ?_⟩
      · simp [PartitionedScheduler.setQueue, PartitionedScheduler.received_nil]
      · cases hok

/-- A merge none of whose events is before its target's clock delivers them
    all. -/
theorem deliverAll_eq : ∀ (evs : List (RemoteScheduledEvent κ)) (s : PartitionedScheduler κ),
    (∀ e ∈ evs, (s.queues e.target).now ≤ e.tick) →
      deliverAll evs s = (.ok (), s.received evs) := by
  intro evs
  induction evs with
  | nil => intro s _; rfl
  | cons ev evs ih =>
    intro s hclocks
    have hle := hclocks ev mem_cons_self
    unfold deliverAll scheduleParallelAt
    rw [scheduleEventAt_of_le _ _ _ _ hle]
    simp only
    rw [ih, s.received_cons]
    intro e he
    -- Enqueueing does not move the clock.
    rw [PartitionedScheduler.queue_setQueue]
    split
    next hp =>
      have hclk := hclocks e (mem_cons_of_mem _ he)
      rwa [hp] at hclk
    · exact hclocks e (mem_cons_of_mem _ he)

theorem PartitionQueue.receive_spec :
    ∀ (evs : List (RemoteScheduledEvent κ)) (q : PartitionQueue κ),
      ∃ arrived, (q.receive partition evs).pending.items.Perm (arrived ++ q.pending.items) ∧
        arrived.map (fun e => (e.tick, e.callback))
          = evs.map (fun e => (e.tick, PartitionEventCallback.parallel e.callback)) := by
  intro evs
  induction evs with
  | nil => intro q; exact ⟨[], .refl _, rfl⟩
  | cons ev evs ih =>
    intro q
    rcases ih (q.enqueue partition ev.tick (.parallel ev.callback)) with
      ⟨arrived, hperm, hmap⟩
    refine ⟨q.nextEvent partition ev.tick (.parallel ev.callback) :: arrived, ?_, ?_⟩
    · refine hperm.trans (((perm_orderedInsert _ _ _).append_left arrived).trans ?_)
      exact perm_middle
    · rw [map_cons, hmap, map_cons]
      rfl

theorem PartitionQueue.mem_receive {evs e} {q : PartitionQueue κ}
    (h : e ∈ (q.receive partition evs).pending) :
    e ∈ q.pending ∨ ∃ r ∈ evs, e.tick = r.tick ∧ e.callback = .parallel r.callback := by
  obtain ⟨arrived, hperm, hmap⟩ := q.receive_spec partition evs
  rcases mem_append.mp (hperm.mem_iff.mp h) with harr | hold
  · right
    have hmem : (e.tick, e.callback) ∈ arrived.map (fun e => (e.tick, e.callback)) :=
      mem_map.mpr ⟨e, harr, rfl⟩
    rw [hmap] at hmem
    obtain ⟨r, hr, hsame⟩ := mem_map.mp hmem
    simp only [Prod.mk.injEq] at hsame
    exact ⟨r, hr, hsame.1.symm, hsame.2.symm⟩
  · exact .inl hold

/-- Putting workers' results back changes queues to theirs and nothing else of
    the scheduler. -/
theorem queues_putBack : ∀ (rs : List (Nat × ParallelPartitionResult κ σ)) (m : Machine κ ω σ),
    (m.putBack rs).scheduler = { m.scheduler with queues := (m.putBack rs).scheduler.queues } ∧
      ∀ p, (m.putBack rs).scheduler.queues p = m.scheduler.queues p ∨
        ∃ res, (p, res) ∈ rs ∧ (m.putBack rs).scheduler.queues p = res.queue := by
  intro rs
  induction rs with
  | nil => intro m; exact ⟨rfl, fun p => .inl rfl⟩
  | cons entry rs ih =>
    intro m
    rcases ih { m with
      scheduler := m.scheduler.setQueue entry.1 entry.2.queue
      stores := Function.update m.stores entry.1 entry.2.store } with ⟨hsame, hqs⟩
    refine ⟨hsame, fun p => ?_⟩
    rcases hqs p with hold | ⟨res, hmem, hq⟩
    · simp only [PartitionedScheduler.queue_setQueue] at hold
      split at hold
      next hp => exact .inr ⟨entry.2, by rw [hp]; exact mem_cons_self, hold⟩
      · exact .inl hold
    · exact .inr ⟨res, mem_cons_of_mem _ hmem, hq⟩

theorem shape_putBack {rs} {m : Machine κ ω σ} :
    SameShape m.scheduler (m.putBack rs).scheduler := by
  rw [(queues_putBack rs m).1]
  exact ⟨rfl, rfl, rfl, rfl⟩

theorem shape_merge (s : PartitionedScheduler κ) (remote : List (RemoteScheduledEvent κ)) :
    SameShape s (mergeRemoteParallelEvents s remote).2 := by
  rcases deliverAll_prefix (remote.insertionSort RemoteScheduledEvent.DeliversBefore) s with
    ⟨front, -, hqs, -⟩
  rw [mergeRemoteParallelEvents, hqs]
  exact ⟨rfl, rfl, rfl, rfl⟩

theorem shape_mergedBatch {m : Machine κ ω σ} {rs : List (Nat × ParallelPartitionResult κ σ)} :
    SameShape m.scheduler (mergedBatch m rs).2 :=
  (shape_putBack).trans (shape_merge _ _)

end Merges

section SerialEvents

/-- No serial event at or before the horizon. -/
def NoSerialBefore (horizon : Nat) (queue : PartitionQueue κ) : Prop :=
  ∀ e ∈ queue.pending, e.tick ≤ horizon → e.isSerial = false

theorem isSerial_of_parallel {cb} {e : PartitionEvent κ} (h : e.callback = .parallel cb) :
    e.isSerial = false := by
  unfold PartitionEvent.isSerial
  rw [h]
  rfl

variable {horizon : Nat}

variable (callbacks) in
theorem dispatchParallel_noSerial {q ev rest cb remote} {worker : ParallelWorker}
    (h : NoSerialBefore horizon q) (hpop : q.popNext = some (ev, rest)) :
    NoSerialBefore horizon (dispatchParallel callbacks worker ev rest cb store remote).queue := by
  have hrest := (tick_le_of_popNext _ hpop).2
  have haft := endedContext_after callbacks worker ev rest cb store remote
  have hend : NoSerialBefore horizon
      (endedContext callbacks worker ev rest cb store remote).queue := by
    intro e he htk
    rcases mem_append.mp (haft.pending.mem_iff.mp he) with hqd | hold
    · obtain ⟨label, hpar⟩ := (haft.queued e hqd).2
      exact isSerial_of_parallel hpar
    · exact h e (hrest e hold).1 htk
  rcases dispatchParallel_cases callbacks worker ev rest cb store remote with
    ⟨-, hq, -⟩ | ⟨-, hq, -⟩
  · rwa [hq]
  · rw [hq]
    exact fun e he htk => hend e (mem_of_mem_filter he) htk

variable {rounds : Nat}

theorem runParallelPartition_noSerial {worker q res}
    (hrun : runParallelPartition callbacks worker horizon rounds q store [] = some res)
    (h : NoSerialBefore horizon q) :
    NoSerialBefore horizon res.queue ∧ ∀ error, res.error = some error →
      error = .parallelWorkerPanicked worker.partition ∧
        ∃ d ∈ res.dispatches, d.ending = .panicked := by
  rcases runParallelPartition_trace worker ⟨q, store, []⟩ hrun
    with ⟨mid, front, htr, hend⟩
  have hmid : NoSerialBefore horizon mid.queue := by
    refine htr.invariant (fun _ w => NoSerialBefore horizon w.queue) ?_ [] h
    rintro past w d w' hw ⟨rest, cb, hpop, -, -, -, -, rfl⟩
    exact dispatchParallel_noSerial callbacks hw hpop
  cases hend with
  | finished hleft =>
    refine ⟨hmid, fun error herr => ?_⟩
    cases herr
  | blocked ev rest cb hpop htk hserial =>
    have hpar := hmid ev (tick_le_of_popNext _ hpop).1 htk
    rw [PartitionEvent.isSerial, hserial] at hpar
    exact absurd hpar (by
      simp only [PartitionEventCallback.kind, decide_true, Bool.true_eq_false, not_false_eq_true])
  | panicked ev rest cb hpop htk hpar hpan =>
    refine ⟨dispatchParallel_noSerial callbacks hmid hpop, fun error herr =>
      ⟨(Option.some.inj herr).symm, _,
        mem_append_right _ (mem_singleton.mpr rfl), hpan⟩⟩

theorem NoSerialBefore.receive (p : Nat) (evs : List (RemoteScheduledEvent κ))
    {q : PartitionQueue κ} (h : NoSerialBefore horizon q) :
    NoSerialBefore horizon (q.receive p evs) := by
  intro e he htk
  rcases mem_receive p he with hold | ⟨r, -, -, hpar⟩
  · exact h e hold htk
  · exact isSerial_of_parallel hpar

/-- No queue has a serial event at or before the horizon. -/
def NoSerialIn (horizon : Nat) (s : PartitionedScheduler κ) : Prop :=
  ∀ p < s.partitionCount, NoSerialBefore horizon (s.queues p)

theorem NoSerialIn.first (h : NoSerialIn horizon s) :
    s.firstSerialEventAtOrBefore horizon = none := by
  unfold PartitionedScheduler.firstSerialEventAtOrBefore
  rw [argmin_eq_none, filterMap_eq_nil_iff]
  intro p hp
  rw [Option.map_eq_none_iff, firstSerialTickAtOrBefore, Option.map_eq_none_iff, find?_eq_none]
  intro e he hserial
  rw [Bool.and_eq_true, decide_eq_true_eq] at hserial
  rw [h p (mem_range.mp hp) e he hserial.1] at hserial
  exact absurd hserial.2 Bool.false_ne_true

/-- A batch without serial events in its way: none comes up, and it fails only
    when a callback panics. -/
theorem BatchResults.noSerial {ready m rs}
    (hresults : BatchResults callbacks rounds horizon ready m rs)
    (hready : ∀ p ∈ ready, p < m.scheduler.partitionCount) (h : NoSerialIn horizon m.scheduler) :
    NoSerialIn horizon (m.putBack rs).scheduler ∧
      ∀ error, rs.findSome? (·.2.error) = some error →
        ∃ p, error = .parallelWorkerPanicked p ∧
          ∃ d ∈ rs.flatMap (·.2.dispatches), d.ending = .panicked := by
  have hworkers : ∀ entry ∈ rs, NoSerialBefore horizon entry.2.queue ∧
      ∀ error, entry.2.error = some error → error = .parallelWorkerPanicked entry.1 ∧
        ∃ d ∈ entry.2.dispatches, d.ending = .panicked := by
    intro entry hent
    obtain ⟨hp, hrun⟩ := hresults.worker entry hent
    exact runParallelPartition_noSerial hrun (h entry.1 (hready entry.1 hp))
  refine ⟨fun p hp => ?_, fun error herr => ?_⟩
  · rw [(shape_putBack).partitionCount] at hp
    rcases (queues_putBack rs m).2 p with hold | ⟨res, hmem, hq⟩
    · rw [hold]
      exact h p hp
    · rw [hq]
      exact (hworkers (p, res) hmem).1
  · obtain ⟨entry, hent, hfailed⟩ := exists_of_findSome?_eq_some herr
    obtain ⟨hpan, d, hd, hend⟩ := (hworkers entry hent).2 error hfailed
    exact ⟨entry.1, hpan, d, mem_flatMap.mpr ⟨entry, hent, hd⟩, hend⟩

theorem NoSerialIn.merge {remote : List (RemoteScheduledEvent κ)}
    (h : NoSerialIn horizon s) :
    NoSerialIn horizon (mergeRemoteParallelEvents s remote).2 := by
  rcases deliverAll_prefix (remote.insertionSort RemoteScheduledEvent.DeliversBefore) s with
    ⟨front, -, hqs, -⟩
  rw [mergeRemoteParallelEvents, hqs]
  exact fun p hp => (h p hp).receive p _

end SerialEvents

end Rem6.Kernel
