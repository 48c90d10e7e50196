import Rem6.Lib.Agenda
import Rem6.Memory.Types

/-!
# Partition Queues

The event queue of one partition of the scheduler: a clock, the counters ids,
orders and tokens are taken from, and the heap of pending events.

A callback is a closure in the source. Here it is a label of an arbitrary type
`κ`; what a label does when it is dispatched is said in `Kernel.Programs`. The
heap pops the least event by tick, then order, then local id, so it is an
agenda of that order. Tokens are the one counter nothing ever sets back, which
makes the token of an event its identity: ids are handed out again after a
rollback or a restore, tokens are not.

Ticks are 64-bit words and are only ever added with `checkedAdd`. The counters of
ids, orders, remote events and progress transitions are 64-bit words as well. They
come round to zero, as unchecked additions do, and a restore can set them anywhere.
The token counter starts at zero, grows by one per event and is set by nothing, so
it is taken as a natural. Partitions are named by their index. Progress transitions
only feed run records and are left out, their counter is not.

## Main definitions

* `PartitionEventId`, `SchedulerError`: Handles and the scheduler's errors.
* `PartitionEvent`, `PartitionEvent.Before`: Events and the order of the heap.
* `PartitionEvent.NotLast`: The id and the order are not the largest words.
* `PartitionQueue`: The queue, with the operations of the source.

## Theorems

* `PartitionQueue.scheduleEventAt_of_le`, `PartitionQueue.scheduleEventAt_of_lt`:
  What scheduling does, by the clock.
* `PartitionQueue.tick_le_of_popNext`: The event popped has the least tick.
-/

namespace Rem6.Kernel

open Lib

/-- Addition of ticks, refused when the sum does not fit in 64 bits. -/
def checkedAdd (now delay : Nat) : Option Nat :=
  if now + delay < Memory.wordLimit then some (now + delay) else none

variable {now delay tick ptn : Nat}

theorem checkedAdd_eq_some (h : checkedAdd now delay = some tick) : tick = now + delay := by
  unfold checkedAdd at h
  split at h
  · exact (Option.some.inj h).symm
  · cases h

/-- A handle to an event: the partition and a number of its queue. -/
structure PartitionEventId where
  (partition localId : Nat)
deriving DecidableEq, Repr

inductive SchedulerError where
  | noPartitions | zeroLookahead | zeroParallelWorkers
  | unknownPartition (partition partitions : Nat)
  | inThePast (partition now requested : Nat)
  | tickOverflow (now delay : Nat)
  | zeroDelayRemoteMessage (source target : Nat)
  | remoteDeliveryBeforeLookaheadBoundary (source target : Nat)
      (sourceTick deliveryTick minimumDeliveryTick : Nat)
  | serialEventInParallelEpoch (partition tick : Nat)
  | staleParallelEpochPlan
  | parallelWorkerPanicked (partition : Nat)
  | epochHorizonOverflow (partition now delay : Nat)
  | eventNotPending (id : PartitionEventId)
  | snapshotContainsPendingEvents (pendingEvents : Nat)
  | restoreWouldDiscardPendingEvents (pendingEvents : Nat)
  | snapshotPartitionCountMismatch (snapshotPartitions schedulerPartitions : Nat)
  | snapshotPartitionIdMismatch (expectedPartition snapshotPartition : Nat)
  | snapshotGlobalTickBeforePartitionClock (snapshotNow partition partitionNow : Nat)
  | snapshotPartitionClockBeforeGlobalTick (snapshotNow partition partitionNow : Nat)
  | snapshotLookaheadMismatch (snapshotMinRemoteDelay schedulerMinRemoteDelay : Nat)
  | snapshotParallelWorkerLimitMismatch
      (snapshotMaxParallelWorkers schedulerMaxParallelWorkers : Nat)
deriving DecidableEq, Repr

inductive ScheduledEventKind where
  | serial | parallel
deriving DecidableEq, Repr

/-- The callback of an event, for one of the two dispatchers. -/
inductive PartitionEventCallback (κ : Type) where
  | serial (callback : κ)
  | parallel (callback : κ)
deriving DecidableEq, Repr

def PartitionEventCallback.kind {κ : Type} : PartitionEventCallback κ → ScheduledEventKind
  | .serial _ => .serial
  | .parallel _ => .parallel

structure PartitionEvent (κ : Type) where
  (tick order : Nat)
  id : PartitionEventId
  token : Nat
  callback : PartitionEventCallback κ
deriving DecidableEq, Repr

/-- A pending event as a snapshot shows it. -/
structure PendingEventSnapshot where
  id : PartitionEventId
  (tick order token : Nat)
  kind : ScheduledEventKind
deriving DecidableEq, Repr

structure SchedulerDispatchRecord where
  id : PartitionEventId
  tick : Nat
  kind : ScheduledEventKind
deriving DecidableEq, Repr

namespace PartitionEvent

variable {κ : Type}

def isSerial (event : PartitionEvent κ) : Bool := event.callback.kind = .serial

def dispatchRecord (event : PartitionEvent κ) (partition : Nat) : SchedulerDispatchRecord :=
  ⟨⟨partition, event.id.localId⟩, event.tick, event.callback.kind⟩

/-- The id and the order are not the largest words, so that both have successors. -/
def NotLast (event : PartitionEvent κ) : Prop :=
  event.id.localId + 1 < Memory.wordLimit ∧ event.order + 1 < Memory.wordLimit

instance (event : PartitionEvent κ) : Decidable event.NotLast :=
  inferInstanceAs (Decidable (_ ∧ _))

def snapshot (event : PartitionEvent κ) : PendingEventSnapshot :=
  ⟨event.id, event.tick, event.order, event.token, event.callback.kind⟩

/-- The order events leave the heap in: by tick, then order, then local id. -/
def Before (a b : PartitionEvent κ) : Prop :=
  a.tick < b.tick ∨ a.tick = b.tick ∧
    (a.order < b.order ∨ a.order = b.order ∧ a.id.localId ≤ b.id.localId)

instance : DecidableRel (Before (κ := κ)) := fun _ _ => inferInstanceAs (Decidable (_ ∨ _))

instance : Std.Total (Before (κ := κ)) := ⟨fun a b => by unfold Before; omega⟩

instance : IsTrans (PartitionEvent κ) Before := ⟨fun a b c => by unfold Before; omega⟩

theorem Before.tick_le {κ} {a b : PartitionEvent κ} (h : Before a b) : a.tick ≤ b.tick := by
  unfold Before at h
  omega

end PartitionEvent

/-- The queue of one partition. -/
structure PartitionQueue (κ : Type) where
  (now nextId nextOrder nextRuntimeToken nextRemoteOrder nextProgressOrder : Nat)
  pending : Agenda (PartitionEvent κ) PartitionEvent.Before

/-- The part of a scheduler snapshot about one partition. -/
structure PartitionSnapshot where
  (partition now nextEventLocal nextEventOrder nextRemoteOrder nextProgressOrder : Nat)
  pendingEvents : List PendingEventSnapshot
deriving DecidableEq, Repr

namespace PartitionQueue

variable {κ : Type}

def new : PartitionQueue κ := ⟨0, 0, 0, 0, 0, 0, Agenda.empty⟩

variable (queue : PartitionQueue κ)

def isEmpty : Bool := queue.pending.items.isEmpty

def pendingEventCount : Nat := queue.pending.items.length

def peekTick : Option Nat := queue.pending.peek.map (·.tick)

/-- Take the next event off the heap. -/
def popNext : Option (PartitionEvent κ × PartitionQueue κ) :=
  queue.pending.pop.map (fun popped => (popped.1, { queue with pending := popped.2 }))

def containsEvent (id : PartitionEventId) : Bool := queue.pending.items.any (·.id = id)

/-- Take the event with an id off the heap, if it is there. -/
def removeEvent (id : PartitionEventId) : Option (PartitionEvent κ) × PartitionQueue κ :=
  match queue.pending.items.find? (·.id = id) with
  | none => (none, queue)
  | some event => (some event, { queue with pending := queue.pending.remove (·.id = id) })

def cancelEvent (id : PartitionEventId) : Except SchedulerError Unit × PartitionQueue κ :=
  match queue.removeEvent id with
  | (none, queue) => (.error (.eventNotPending id), queue)
  | (some _, queue) => (.ok (), queue)

def rescheduleEvent (id : PartitionEventId) (tick : Nat) :
    Except SchedulerError Unit × PartitionQueue κ :=
  if queue.containsEvent id = false then (.error (.eventNotPending id), queue)
  else if tick < queue.now then (.error (.inThePast id.partition queue.now tick), queue)
  else match queue.removeEvent id with
    | (none, queue) => (.error (.eventNotPending id), queue)
    | (some event, queue) =>
      (.ok (), { queue with pending := queue.pending.push { event with tick } })

/-- Drop everything a callback scheduled and set the counters back to where they
    were before it. The token counter stays. -/
def rollbackScheduledEvents (nextId nextOrder : Nat) : PartitionQueue κ :=
  { queue with
    nextId
    nextOrder
    pending := queue.pending.filter fun event =>
      event.id.localId < nextId && event.order < nextOrder }

section

variable (partition tick : Nat)

section

variable (callback : PartitionEventCallback κ)

/-- The event the queue makes of a callback. -/
def nextEvent : PartitionEvent κ :=
  ⟨tick, queue.nextOrder, ⟨partition, queue.nextId⟩, queue.nextRuntimeToken, callback⟩

/-- The queue with that event in it. -/
def enqueue : PartitionQueue κ :=
  { queue with
    nextId := (queue.nextId + 1) % Memory.wordLimit
    nextOrder := (queue.nextOrder + 1) % Memory.wordLimit
    nextRuntimeToken := queue.nextRuntimeToken + 1
    pending := queue.pending.push (queue.nextEvent partition tick callback) }

def scheduleEventAt :
    Except SchedulerError PartitionEventId × PartitionQueue κ :=
  if tick < queue.now then (.error (.inThePast partition queue.now tick), queue)
  else (.ok ⟨partition, queue.nextId⟩, queue.enqueue partition tick callback)

end

def scheduleAt (callback : κ) :
    Except SchedulerError PartitionEventId × PartitionQueue κ :=
  queue.scheduleEventAt partition tick (.serial callback)

def scheduleParallelAt (callback : κ) :
    Except SchedulerError PartitionEventId × PartitionQueue κ :=
  queue.scheduleEventAt partition tick (.parallel callback)

end

/-- The least tick of a serial event no later than the horizon: the heap's order
    is by tick, so it is the first one. -/
def firstSerialTickAtOrBefore (horizon : Nat) : Option Nat :=
  (queue.pending.items.find? (fun event => event.tick ≤ horizon && event.isSerial)).map (·.tick)

/-- The serial events no later than the horizon, by tick and local id. -/
def serialBlockersWithTokensAtOrBefore (partition horizon : Nat) :
    List (SchedulerDispatchRecord × Nat) :=
  ((queue.pending.items.filter (fun event => event.tick ≤ horizon && event.isSerial)).map
    (fun event => (event.dispatchRecord partition, event.token))).insertionSort
      (fun a b => a.1.tick < b.1.tick ∨ a.1.tick = b.1.tick ∧ a.1.id.localId ≤ b.1.id.localId)

def snapshot (partition : Nat) : PartitionSnapshot :=
  ⟨partition, queue.now, queue.nextId, queue.nextOrder, queue.nextRemoteOrder,
    queue.nextProgressOrder, queue.pending.items.map PartitionEvent.snapshot⟩

/-- Put the clock and the counters of a snapshot back. The token counter stays. -/
def restoreQuiescent (snapshot : PartitionSnapshot) : PartitionQueue κ :=
  { queue with
    now := snapshot.now
    nextId := snapshot.nextEventLocal
    nextOrder := snapshot.nextEventOrder
    nextRemoteOrder := snapshot.nextRemoteOrder
    nextProgressOrder := snapshot.nextProgressOrder
    pending := Agenda.empty }

/-- Put an event back as it was, and the counters past it if they can be. -/
def restorePreservedEvent (event : PartitionEvent κ) : PartitionQueue κ :=
  { queue with
    nextId := max queue.nextId (Memory.saturatingSucc event.id.localId)
    nextOrder := max queue.nextOrder (Memory.saturatingSucc event.order)
    pending := queue.pending.push event }

/-- Raise the clock to a tick, never lower it. -/
def advanceTo (tick : Nat) : PartitionQueue κ :=
  if queue.now < tick then { queue with now := tick } else queue

theorem scheduleEventAt_of_le (ptn tick : Nat) (cb : PartitionEventCallback κ)
    (h : queue.now ≤ tick) :
    queue.scheduleEventAt ptn tick cb = (.ok ⟨ptn, queue.nextId⟩, queue.enqueue ptn tick cb) :=
  if_neg (Nat.not_lt.mpr h)

theorem scheduleEventAt_of_lt (ptn tick : Nat) (cb : PartitionEventCallback κ)
    (h : tick < queue.now) :
    queue.scheduleEventAt ptn tick cb = (.error (.inThePast ptn queue.now tick), queue) :=
  if_pos h

@[simp]
theorem mem_enqueue {cb ev} :
    ev ∈ (queue.enqueue ptn tick cb).pending ↔
      ev = queue.nextEvent ptn tick cb ∨ ev ∈ queue.pending :=
  Agenda.mem_push ..

theorem popNext_eq_some (rest : PartitionQueue κ) (ev : PartitionEvent κ)
    (h : queue.popNext = some (ev, rest)) :
    ∃ pend, queue.pending.pop = some (ev, pend) ∧ rest = { queue with pending := pend } := by
  simp only [popNext, Option.map_eq_some_iff, Prod.mk.injEq] at h
  rcases h with ⟨⟨popped, pend⟩, hpop, rfl, rfl⟩
  exact ⟨pend, hpop, rfl⟩

/-- What is left after a pop was there, and is no earlier than what was popped. -/
theorem tick_le_of_popNext {ev rest} (h : queue.popNext = some (ev, rest)) :
    ev ∈ queue.pending ∧ ∀ e ∈ rest.pending, e ∈ queue.pending ∧ ev.tick ≤ e.tick := by
  rcases popNext_eq_some queue rest ev h with ⟨pend, hpop, rfl⟩
  refine ⟨(Agenda.mem_of_pop _ _ _ _ hpop).mpr (.inl rfl), fun e he => ⟨?_, ?_⟩⟩
  · exact (Agenda.mem_of_pop _ _ _ _ hpop).mpr (.inr he)
  · exact (Agenda.pop_first _ _ _ hpop e he).tick_le

theorem peekTick_eq_some (h : queue.peekTick = some tick) :
    ∃ ev rest, queue.popNext = some (ev, rest) ∧ ev.tick = tick := by
  simp only [peekTick, Option.map_eq_some_iff] at h
  rcases h with ⟨ev, hpeek, htk⟩
  rcases Agenda.pop_of_peek _ hpeek with ⟨rest, hpop⟩
  exact ⟨ev, { queue with pending := rest }, by simp only [popNext, hpop, Option.map_some], htk⟩

theorem peekTick_le {ev} (h : ev ∈ queue.pending) :
    ∃ tick, queue.peekTick = some tick ∧ tick ≤ ev.tick := by
  cases hpop : queue.pending.pop with
  | none => simp [Agenda.mem_def, (Agenda.pop_eq_none_iff _).mp hpop] at h
  | some popped =>
    refine ⟨popped.1.tick, ?_, ?_⟩
    · simp [peekTick, Agenda.peek_of_pop _ hpop]
    · rcases (Agenda.mem_of_pop _ _ _ _ hpop).mp h with rfl | hrest
      · exact le_rfl
      · exact (Agenda.pop_first _ _ _ hpop ev hrest).tick_le

theorem peekTick_eq_none : queue.peekTick = none ↔ queue.pending.items = [] := by
  rw [peekTick, Option.map_eq_none_iff, Agenda.peek_eq_none_iff]

@[simp]
theorem now_advanceTo : (queue.advanceTo tick).now = max queue.now tick := by
  unfold advanceTo
  split
  next h => rw [Nat.max_eq_right (Nat.le_of_lt h)]
  next h => rw [Nat.max_eq_left (Nat.le_of_not_lt h)]

@[simp]
theorem pending_advanceTo : (queue.advanceTo tick).pending = queue.pending := by
  unfold advanceTo
  split <;> rfl

end PartitionQueue

end Rem6.Kernel
