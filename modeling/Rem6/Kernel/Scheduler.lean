import Mathlib.Algebra.Order.BigOperators.Group.List
import Mathlib.Algebra.Order.Group.Nat
import Mathlib.Data.List.MinMax
import Mathlib.Logic.Function.Basic
import Rem6.Kernel.Queue

/-!
# The Partitioned Scheduler

The state of the scheduler and everything that reads or changes it without
running a callback: scheduling, cancelling and rescheduling from outside,
snapshots and their restore, the checkpoint access, and the questions the
dispatchers ask (which partition is next, how far an epoch may go).

The partitions are a vector in the source. Here they are a function of the
index with the number of partitions beside it, and every operation that takes a
partition checks the index first, as the source's lookups do. The three numbers
the constructor checks are positive in every scheduler, so they are fields.

A snapshot is plain data that anybody may build, so a restore is given an
arbitrary one and has to check it.

## Main definitions

* `PartitionedScheduler`: The scheduler.
* `PartitionedScheduler.withParallelWorkerLimit`: Its constructor.
* `PartitionedScheduler.scheduleAt` and its like: The calls from outside.
* `PartitionedScheduler.restoreQuiescent`,
  `PartitionedScheduler.restoreCheckpointProjection`: Restores.
* `PartitionedScheduler.nextPartitionWithEvent`: Whose turn it is.

## Theorems

* `PartitionedScheduler.next_spec`: The partition whose turn it is has an event
  that no other pending event comes before.
* `PartitionedScheduler.partitions_of_compatible`: What a snapshot is checked for
  before it is restored.
-/

namespace Rem6.Kernel

open Lib PartitionQueue List

structure PartitionedScheduler (κ : Type) where
  (instanceId timelineRevision now minRemoteDelay maxParallelWorkers partitionCount : Nat)
  queues : Nat → PartitionQueue κ
  count_pos : 0 < partitionCount
  delay_pos : 0 < minRemoteDelay
  workers_pos : 0 < maxParallelWorkers

structure SchedulerSnapshot where
  (now minRemoteDelay maxParallelWorkers : Nat)
  partitions : List PartitionSnapshot
deriving DecidableEq, Repr

def SchedulerSnapshot.totalPendingEvents (snapshot : SchedulerSnapshot) : Nat :=
  (snapshot.partitions.map (·.pendingEvents.length)).sum

/-- The same event is listed twice, in one list or across the two. -/
def hasDuplicateOrConflictingEvents (discarded preserved : List PendingEventSnapshot) : Bool :=
  discarded.any (preserved.contains ·) || !decide discarded.Nodup || !decide preserved.Nodup

namespace PartitionedScheduler

variable {κ : Type}

def withParallelWorkerLimit (instanceId partitions minRemoteDelay maxParallelWorkers : Nat) :
    Except SchedulerError (PartitionedScheduler κ) :=
  if hcount : partitions = 0 then .error .noPartitions
  else if hdelay : minRemoteDelay = 0 then .error .zeroLookahead
  else if hworkers : maxParallelWorkers = 0 then .error .zeroParallelWorkers
  else .ok
    { instanceId
      timelineRevision := 0
      now := 0
      minRemoteDelay
      maxParallelWorkers
      partitionCount := partitions
      queues := fun _ => new
      count_pos := Nat.pos_of_ne_zero hcount
      delay_pos := Nat.pos_of_ne_zero hdelay
      workers_pos := Nat.pos_of_ne_zero hworkers }

/-- A scheduler that was just built is at tick zero, and all its queues are new. -/
theorem withParallelWorkerLimit_ok {κ} {s : PartitionedScheduler κ}
    {instanceId partitions minRemoteDelay maxWorkers : Nat}
    (h : withParallelWorkerLimit instanceId partitions minRemoteDelay maxWorkers = .ok s) :
    s.now = 0 ∧ ∀ p, s.queues p = new := by
  unfold withParallelWorkerLimit at h
  split at h
  · cases h
  split at h
  · cases h
  split at h
  · cases h
  cases h
  exact ⟨rfl, fun _ => rfl⟩

variable (s : PartitionedScheduler κ)

/-- The scheduler with one queue replaced. -/
def setQueue (partition : Nat) (queue : PartitionQueue κ) : PartitionedScheduler κ :=
  { s with queues := Function.update s.queues partition queue }

def isIdle : Bool := (range s.partitionCount).all (fun p => (s.queues p).isEmpty)

def totalPendingEvents : Nat :=
  ((range s.partitionCount).map (fun p => (s.queues p).pendingEventCount)).sum

/-- Work on the queue of a partition, if there is such a partition. -/
def onPartition {α : Type} (partition : Nat)
    (f : PartitionQueue κ → Except SchedulerError α × PartitionQueue κ) :
    Except SchedulerError α × PartitionedScheduler κ :=
  if partition < s.partitionCount then
    ((f (s.queues partition)).1, s.setQueue partition (f (s.queues partition)).2)
  else (.error (.unknownPartition partition s.partitionCount), s)

def scheduleAt (partition tick : Nat) (callback : κ) :
    Except SchedulerError PartitionEventId × PartitionedScheduler κ :=
  s.onPartition partition (fun queue => queue.scheduleAt partition tick callback)

def scheduleParallelAt (partition tick : Nat) (callback : κ) :
    Except SchedulerError PartitionEventId × PartitionedScheduler κ :=
  s.onPartition partition (fun queue => queue.scheduleParallelAt partition tick callback)

def scheduleAfter (partition delay : Nat) (callback : κ) :
    Except SchedulerError PartitionEventId × PartitionedScheduler κ :=
  match checkedAdd s.now delay with
  | none => (.error (.tickOverflow s.now delay), s)
  | some tick => s.scheduleAt partition tick callback

def cancelEvent (id : PartitionEventId) : Except SchedulerError Unit × PartitionedScheduler κ :=
  s.onPartition id.partition (fun queue => queue.cancelEvent id)

def rescheduleEvent (id : PartitionEventId) (tick : Nat) :
    Except SchedulerError Unit × PartitionedScheduler κ :=
  s.onPartition id.partition (fun queue => queue.rescheduleEvent id tick)

def pendingEventSnapshot (id : PartitionEventId) : Option PendingEventSnapshot :=
  if id.partition < s.partitionCount then
    ((s.queues id.partition).pending.items.find? (·.id = id)).map PartitionEvent.snapshot
  else none

def snapshot : SchedulerSnapshot :=
  ⟨s.now, s.minRemoteDelay, s.maxParallelWorkers,
    (range s.partitionCount).map (fun p => (s.queues p).snapshot p)⟩

def quiescentSnapshot : Except SchedulerError SchedulerSnapshot :=
  if s.snapshot.totalPendingEvents ≠ 0 then
    .error (.snapshotContainsPendingEvents s.snapshot.totalPendingEvents)
  else .ok s.snapshot

section

variable (snapshot : SchedulerSnapshot)

/-- The first partition of a snapshot that is out of place or whose clock is not
    the tick of the snapshot. -/
def partitionMismatch : Option SchedulerError :=
  snapshot.partitions.zipIdx.findSome? (fun entry =>
    if entry.1.partition ≠ entry.2 then
      some (.snapshotPartitionIdMismatch entry.2 entry.1.partition)
    else if snapshot.now < entry.1.now then
      some (.snapshotGlobalTickBeforePartitionClock snapshot.now entry.1.partition entry.1.now)
    else if entry.1.now < snapshot.now then
      some (.snapshotPartitionClockBeforeGlobalTick snapshot.now entry.1.partition entry.1.now)
    else none)

def validateQuiescentSnapshotCompatibility :
    Except SchedulerError Unit :=
  if snapshot.totalPendingEvents ≠ 0 then
    .error (.snapshotContainsPendingEvents snapshot.totalPendingEvents)
  else if snapshot.partitions.length ≠ s.partitionCount then
    .error (.snapshotPartitionCountMismatch snapshot.partitions.length s.partitionCount)
  else match partitionMismatch snapshot with
    | some error => .error error
    | none =>
      if snapshot.minRemoteDelay ≠ s.minRemoteDelay then
        .error (.snapshotLookaheadMismatch snapshot.minRemoteDelay s.minRemoteDelay)
      else if snapshot.maxParallelWorkers ≠ s.maxParallelWorkers then
        .error (.snapshotParallelWorkerLimitMismatch snapshot.maxParallelWorkers
          s.maxParallelWorkers)
      else .ok ()

def validateQuiescentRestore : Except SchedulerError Unit :=
  if snapshot.totalPendingEvents ≠ 0 then
    .error (.snapshotContainsPendingEvents snapshot.totalPendingEvents)
  else if s.totalPendingEvents ≠ 0 then
    .error (.restoreWouldDiscardPendingEvents s.totalPendingEvents)
  else s.validateQuiescentSnapshotCompatibility snapshot

/-- Every queue with the clock and counters a snapshot has for it. -/
def restoredQueues (p : Nat) : PartitionQueue κ :=
  match snapshot.partitions[p]? with
  | some partition => (s.queues p).restoreQuiescent partition
  | none => s.queues p

def restoreQuiescent :
    Except SchedulerError Unit × PartitionedScheduler κ :=
  match s.validateQuiescentRestore snapshot with
  | .error error => (.error error, s)
  | .ok () =>
    (.ok (),
      { s with
        now := snapshot.now
        queues := s.restoredQueues snapshot
        timelineRevision := s.timelineRevision + 1 })

/-- Take events off their queues, with what was taken. -/
def removeEvents (s : PartitionedScheduler κ) :
    List PendingEventSnapshot → List (PartitionEvent κ) × PartitionedScheduler κ
  | [] => ([], s)
  | event :: events =>
    let removed := (s.queues event.id.partition).removeEvent event.id
    let rest := removeEvents (s.setQueue event.id.partition removed.2) events
    (removed.1.toList ++ rest.1, rest.2)

def validateCheckpointProjection
    (discarded preserved : List PendingEventSnapshot) : Except SchedulerError Unit :=
  match s.validateQuiescentSnapshotCompatibility snapshot with
  | .error error => .error error
  | .ok () =>
    match (discarded ++ preserved).find? (fun e => s.pendingEventSnapshot e.id ≠ some e) with
    | some event => .error (.eventNotPending event.id)
    | none =>
      if hasDuplicateOrConflictingEvents discarded preserved then
        .error (.restoreWouldDiscardPendingEvents s.totalPendingEvents)
      else if s.totalPendingEvents ≠ discarded.length + preserved.length then
        .error (.restoreWouldDiscardPendingEvents (s.totalPendingEvents
          - min (discarded.length + preserved.length) s.totalPendingEvents))
      else
        -- A preserved event has to fit the clock its partition gets back.
        match preserved.findSome? (fun e =>
            match snapshot.partitions[e.id.partition]? with
            | some partition =>
              if e.tick < partition.now then some (.inThePast e.id.partition partition.now e.tick)
              else none
            | none => none) with
        | some error => .error error
        | none => .ok ()

def restoreCheckpointProjection
    (discarded preserved : List PendingEventSnapshot) :
    Except SchedulerError Unit × PartitionedScheduler κ :=
  match s.validateCheckpointProjection snapshot discarded preserved with
  | .error error => (.error error, s)
  | .ok () =>
    let kept := s.removeEvents preserved
    let dropped := kept.2.removeEvents discarded
    match dropped.2.restoreQuiescent snapshot with
    | (.error error, restored) => (.error error, restored)
    | (.ok (), restored) =>
      (.ok (), kept.1.foldl (fun s event =>
        s.setQueue event.id.partition
          ((s.queues event.id.partition).restorePreservedEvent event)) restored)

end

def discardExactEvents (events : List PendingEventSnapshot) :
    Except SchedulerError Unit × PartitionedScheduler κ :=
  match events.find? (fun e => s.pendingEventSnapshot e.id ≠ some e) with
  | some event => (.error (.eventNotPending event.id), s)
  | none =>
    if hasDuplicateOrConflictingEvents events [] then
      (.error (.restoreWouldDiscardPendingEvents events.length), s)
    else if events.isEmpty then (.ok (), s)
    else
      let removed := (s.removeEvents events).2
      (.ok (), { removed with timelineRevision := removed.timelineRevision + 1 })

/-- Raise every clock to a tick and make it the scheduler's. -/
def advancePartitionsTo (tick : Nat) : PartitionedScheduler κ :=
  { s with queues := fun p => (s.queues p).advanceTo tick, now := tick }

/-- The partitions whose next event meets a condition on its tick, with it. -/
def readyAt (ready : Nat → Bool) : List (Nat × Nat) :=
  (range s.partitionCount).filterMap (fun p =>
    match (s.queues p).peekTick with
    | some tick => if ready tick then some (tick, p) else none
    | none => none)

/-- The partition with the least next tick, the first one of several. -/
def nextPartitionWithEvent : Option Nat := ((s.readyAt (fun _ => true)).argmin (·.1)).map (·.2)

def nextPartitionWithEventAtOrBefore (horizon : Nat) : Option Nat :=
  ((s.readyAt (· ≤ horizon)).argmin (·.1)).map (·.2)

/-- How far an epoch may go: the least of the clocks plus the lookahead, if none
    of the sums overflows. -/
def nextEpochHorizon : Option Nat :=
  if (range s.partitionCount).all
      (fun p => (checkedAdd (s.queues p).now s.minRemoteDelay).isSome) then
    ((range s.partitionCount).map (fun p => (s.queues p).now + s.minRemoteDelay)).min?
  else none

theorem mem_readyAt (ready : Nat → Bool) (entry : Nat × Nat) :
    entry ∈ s.readyAt ready ↔ entry.2 < s.partitionCount ∧
      (s.queues entry.2).peekTick = some entry.1 ∧ ready entry.1 = true := by
  rcases entry with ⟨tick, p⟩
  simp only [readyAt, mem_filterMap, mem_range]
  constructor
  · rintro ⟨q, hq, h⟩
    cases hpeek : (s.queues q).peekTick with
    | none => simp [hpeek] at h
    | some t =>
      simp only [hpeek] at h
      split at h
      · rename_i hready
        cases h
        exact ⟨hq, hpeek, hready⟩
      · cases h
  · rintro ⟨hp, hpeek, hready⟩
    exact ⟨p, hp, by simp [hpeek, hready]⟩

variable {p q : Nat}

/-- The partition picked among those that are ready: its next event is the one
    popped, and no ready event has a smaller tick. -/
theorem pick_spec {ready : Nat → Bool} (h : ((s.readyAt ready).argmin (·.1)).map (·.2) = some p) :
    p < s.partitionCount ∧ ∃ ev rest, (s.queues p).popNext = some (ev, rest) ∧
      ready ev.tick = true ∧
      ∀ q < s.partitionCount, ∀ tick, (s.queues q).peekTick = some tick → ready tick = true →
        ev.tick ≤ tick := by
  rcases Option.map_eq_some_iff.mp h with ⟨⟨tick, _⟩, hmin, rfl⟩
  rcases (s.mem_readyAt ready _).mp (argmin_mem hmin) with ⟨hp, hpeek, hready⟩
  rcases peekTick_eq_some _ hpeek with ⟨ev, rest, hpop, rfl⟩
  refine ⟨hp, ev, rest, hpop, hready, fun q hq t ht hrt => ?_⟩
  exact le_of_mem_argmin ((s.mem_readyAt ready (t, q)).mpr ⟨hq, ht, hrt⟩) hmin

/-- The partition whose turn it is has an event that no pending event of any
    partition comes before. -/
theorem next_spec (h : s.nextPartitionWithEvent = some p) :
    p < s.partitionCount ∧ ∃ ev rest, (s.queues p).popNext = some (ev, rest) ∧
      ∀ q < s.partitionCount, ∀ e ∈ (s.queues q).pending, ev.tick ≤ e.tick := by
  rcases s.pick_spec h with ⟨hp, ev, rest, hpop, -, hleast⟩
  refine ⟨hp, ev, rest, hpop, fun q hq e he => ?_⟩
  rcases peekTick_le _ he with ⟨tick, hpeek, hle⟩
  exact (hleast q hq tick hpeek rfl).trans hle

theorem next_none (h : s.nextPartitionWithEvent = none) :
    ∀ p < s.partitionCount, (s.queues p).pending.items = [] := by
  intro p hp
  rw [nextPartitionWithEvent, Option.map_eq_none_iff, argmin_eq_none] at h
  cases hpeek : (s.queues p).peekTick with
  | none => exact (peekTick_eq_none _).mp hpeek
  | some tick =>
    have hmem := (s.mem_readyAt (fun _ => true) (tick, p)).mpr ⟨hp, hpeek, rfl⟩
    simp [h] at hmem

theorem nextAtOrBefore_spec (horizon p : Nat)
    (h : s.nextPartitionWithEventAtOrBefore horizon = some p) :
    p < s.partitionCount ∧ ∃ event rest, (s.queues p).popNext = some (event, rest) ∧ event.tick ≤
      horizon ∧ ∀ q < s.partitionCount, ∀ e ∈ (s.queues q).pending, event.tick ≤ e.tick := by
  rcases s.pick_spec h with ⟨hp, event, rest, hpop, hready, hleast⟩
  have hhor : event.tick ≤ horizon := of_decide_eq_true hready
  refine ⟨hp, event, rest, hpop, hhor, fun q hq e he => ?_⟩
  rcases peekTick_le _ he with ⟨tick, hpeek, hle⟩
  by_cases htk : tick ≤ horizon
  · exact (hleast q hq tick hpeek (decide_eq_true htk)).trans hle
  · omega

theorem nextAtOrBefore_none (hor : Nat) (h : s.nextPartitionWithEventAtOrBefore hor = none) :
    ∀ p < s.partitionCount, ∀ e ∈ (s.queues p).pending, hor < e.tick := by
  intro p hp e he
  rw [nextPartitionWithEventAtOrBefore, Option.map_eq_none_iff, argmin_eq_none] at h
  rcases peekTick_le _ he with ⟨tick, hpeek, hle⟩
  by_contra hlt
  have hmem := (s.mem_readyAt (· ≤ hor) (tick, p)).mpr
    ⟨hp, hpeek, decide_eq_true (show tick ≤ hor by omega)⟩
  simp [h] at hmem

/-- Of several partitions with the least tick the first one is picked: the list
    is by partition, and `argmin` takes the first of its least elements. -/
theorem argmin_first : ∀ (entries : List (Nat × Nat)), entries.Pairwise (fun a b => a.2 < b.2) →
    ∀ picked, entries.argmin (·.1) = some picked →
      ∀ entry ∈ entries, picked.1 < entry.1 ∨ picked.1 = entry.1 ∧ picked.2 ≤ entry.2 := by
  intro entries
  induction entries with
  | nil => intro _ picked _ entry hent; cases hent
  | cons head rest ih =>
    intro hsorted picked hpicked entry hent
    rcases pairwise_cons.mp hsorted with ⟨hhead, hrest⟩
    rw [argmin_cons] at hpicked
    cases hmin : rest.argmin (·.1) with
    | none =>
      rw [argmin_eq_none] at hmin
      simp only [hmin, argmin_nil, Option.some.injEq] at hpicked
      rw [hmin, mem_singleton] at hent
      rw [hent, hpicked]
      exact Or.inr ⟨rfl, le_rfl⟩
    | some least =>
      have hleast := ih hrest least hmin
      simp only [hmin] at hpicked
      split at hpicked
      · rename_i hlt
        cases hpicked
        rcases mem_cons.mp hent with rfl | hmem
        · exact .inl hlt
        · exact hleast entry hmem
      · rename_i hnot
        cases hpicked
        rcases mem_cons.mp hent with rfl | hmem
        · exact Or.inr ⟨rfl, le_rfl⟩
        · have hbef := hhead entry hmem
          rcases hleast entry hmem with hlt | ⟨hsame, -⟩ <;> omega

theorem sorted_readyAt {ready : Nat → Bool} :
    (s.readyAt ready).Pairwise (fun a b => a.2 < b.2) := by
  refine Pairwise.filterMap _ ?_ pairwise_lt_range
  intro p q hlt entry hent other hoth
  have hfirst : ∀ (r : Nat) (found : Nat × Nat), (match (s.queues r).peekTick with
      | some tick => if ready tick then some (tick, r) else none
      | none => none) = some found → found.2 = r := by
    intro r found hfound
    split at hfound
    · split at hfound
      · rw [← Option.some.inj hfound]
      · cases hfound
    · cases hfound
  rwa [hfirst p entry hent, hfirst q other hoth]

theorem next_of_nextAtOrBefore (horizon p : Nat)
    (h : s.nextPartitionWithEventAtOrBefore horizon = some p) :
    s.nextPartitionWithEvent = some p := by
  rcases Option.map_eq_some_iff.mp h with ⟨picked, hpicked, hp⟩
  rcases (s.mem_readyAt _ _).mp (argmin_mem hpicked) with ⟨hcnt, hpeek, hready⟩
  have hpickedLe : picked.1 ≤ horizon := of_decide_eq_true hready
  have hmem : picked ∈ s.readyAt (fun _ => true) := (s.mem_readyAt _ _).mpr ⟨hcnt, hpeek, rfl⟩
  unfold nextPartitionWithEvent
  cases hmin : (s.readyAt (fun _ => true)).argmin (·.1) with
  | none =>
    rw [argmin_eq_none] at hmin
    simp [hmin] at hmem
  | some least =>
    -- Each of the two is in the other's list, so each is no later than the other.
    rcases (s.mem_readyAt _ _).mp (argmin_mem hmin) with ⟨hcnt', hpeek', -⟩
    have hfor := argmin_first _ (s.sorted_readyAt) least hmin picked hmem
    have hleast : least ∈ s.readyAt (· ≤ horizon) := by
      refine (s.mem_readyAt _ _).mpr ⟨hcnt', hpeek', decide_eq_true ?_⟩
      omega
    have hback := argmin_first _ (s.sorted_readyAt) picked hpicked least hleast
    rw [Option.map_some, Option.some.injEq, ← hp]
    omega

theorem queue_setQueue {queue} :
    (s.setQueue p queue).queues q = if q = p then queue else s.queues q := by
  simp only [setQueue, Function.update_apply]

theorem total_zero_of_isIdle (h : s.isIdle = true) : s.totalPendingEvents = 0 := by
  refine sum_eq_zero (fun count hcnt => ?_)
  rcases mem_map.mp hcnt with ⟨p, hp, rfl⟩
  have hemp := all_eq_true.mp h p hp
  exact length_eq_zero_iff.mpr (isEmpty_iff.mp hemp)

/-- A compatible snapshot has one entry per partition, each with the tick of the
    snapshot as its clock. -/
theorem partitions_of_compatible {snap : SchedulerSnapshot}
    (h : s.validateQuiescentSnapshotCompatibility snap = .ok ()) :
    ∀ p < s.partitionCount, ∃ ptn, snap.partitions[p]? = some ptn ∧ ptn.now = snap.now := by
  intro p hp
  unfold validateQuiescentSnapshotCompatibility at h
  split at h
  · cases h
  split at h
  · cases h
  rename_i hlen
  split at h
  · cases h
  rename_i hmis
  have hlt : p < snap.partitions.length := by omega
  refine ⟨snap.partitions[p], getElem?_eq_getElem hlt, ?_⟩
  have hent := findSome?_eq_none_iff.mp hmis (snap.partitions[p], p)
    (mk_mem_zipIdx_iff_getElem?.mpr (getElem?_eq_getElem hlt))
  simp only at hent
  split at hent
  · cases hent
  split at hent
  · cases hent
  split at hent
  · cases hent
  omega

end PartitionedScheduler

end Rem6.Kernel
