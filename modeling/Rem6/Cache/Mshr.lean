import Mathlib.Data.Prod.Lex
import Rem6.Lib.Peel
import Rem6.Lib.Run
import Rem6.Memory.Request

/-!
# The Miss Queue

The queue of outstanding misses of a cache bank. An entry stands for a line that
is being fetched and holds the requests waiting for it, its targets; a request
for a line that has an entry joins it, unless one of them is uncacheable or
strictly ordered.

Entries are issued in an order that respects the barriers between requests:
`readyHandles` takes an entry that no other ready entry has to precede, and
again, until none is left. It reads the barriers between targets but orders
entries, and a request that joined an entry is younger than requests of other
entries, and than the entry's own first one. So an entry may have to precede
itself, alone or through others, and then nothing can be taken and the call
panics. `readyHandles_ordered` says that it takes a cycle to do so.

`Orderly` is a discipline that keeps cycles out: a request only joins an entry
when no target in the queue has to precede it. Then an entry that precedes
another is older than it, and the age is a rank.

Handles and orders are counted in 64 bits and stick to the largest word.

## Main definitions

* `MshrTarget`, `MshrEntry`, `MshrQueue`: Requests, lines and the queue.
* `MshrQueue.allocateOrMerge`, `complete`, `markInService`, `markPending`,
  `delayUntil`: The calls that change it.
* `MshrQueue.readyHandles`: The order of issue, or none for a panic.
* `Orderly`: A call that lets no ordered request join an entry.

## Theorems

* `readyHandles_ordered`: Every ready entry is listed once and in order unless there
  is a cycle.
* `aged_next`, `acyclic_of_orderly`: Orderly calls never make a cycle.
-/

namespace Rem6.Cache

open Memory Lib

inductive MshrTargetSource where
  | demand | snoop | prefetch
deriving DecidableEq, Repr

inductive MshrTargetPostFillAction where
  | satisfyLocally | forwardDownstream
deriving DecidableEq, Repr

structure MshrQosClass where
  (requestor priority : Nat)
deriving DecidableEq, Repr

/-- A request that waits for a line. -/
structure MshrTarget where
  request : MemoryRequest
  (readyTick order : Nat)
  source : MshrTargetSource
  allocOnFill : Bool
  qos : Option MshrQosClass

/-- What has to be passed on to memory is, and the rest is answered here. -/
def MshrTarget.postFillAction (target : MshrTarget) : MshrTargetPostFillAction :=
  match target.request.operation with
  | .writeClean | .writebackClean | .writebackDirty | .cleanShared | .cleanEvict
  | .invalidate => .forwardDownstream
  | _ => .satisfyLocally

structure MshrEntry where
  (handle line readyTick order : Nat)
  (inService pendingModified : Bool)
  targets : List MshrTarget

namespace MshrEntry

/-- The most urgent class of the targets, the older one of two. -/
def effectiveQos (entry : MshrEntry) : Option MshrQosClass :=
  ((entry.targets.filterMap fun target =>
      target.qos.map fun qos => (toLex (qos.priority, target.order), qos)).argmin
    Prod.fst).map Prod.snd

def canMergeRequest (entry : MshrEntry) (request : MemoryRequest) : Bool :=
  entry.line = request.lineAddress && !request.uncacheable && !request.strictOrder &&
    entry.targets.all fun target => !target.request.uncacheable && !target.request.strictOrder

/-- An older target of the entry has to be seen before a target of the other. -/
def ordersBefore (earlier later : MshrEntry) : Bool :=
  earlier.targets.any fun first =>
    later.targets.any fun second =>
      first.order < second.order && first.request.ordersBefore second.request

/-- Urgency first, the least urgent for an entry without a class, then age. -/
def readySortKey (entry : MshrEntry) : Nat ×ₗ Nat ×ₗ Nat ×ₗ Nat :=
  toLex ((entry.effectiveQos.map (·.priority)).getD 255,
    toLex (entry.readyTick, toLex (entry.order, entry.handle)))

end MshrEntry

structure MshrQueueConfig where
  (entries targetsPerMshr demandReserve : Nat)
  entries_pos : 0 < entries
  targets_pos : 0 < targetsPerMshr
  reserve_lt : demandReserve < entries

inductive MshrQueueError where
  | entrySlotsFull (entries : Nat)
  | targetSlotsFull (handle line targetsPerMshr : Nat)
  | prefetchReserveBlocked (allocated entries demandReserve : Nat)
  | unknownEntry (handle : Nat)
  | entryAlreadyInService (handle : Nat)
  | entryNotInService (handle : Nat)
deriving DecidableEq, Repr

structure MshrQueueUpdate where
  (handle line : Nat)
  allocatedNewEntry : Bool
  (targetCount allocatedCount : Nat)
deriving DecidableEq, Repr

structure MshrQueue where
  config : MshrQueueConfig
  entries : List MshrEntry
  (nextHandle nextOrder : Nat)

open MshrQueue

/-- Change the first element that passes the test. -/
def modifyFirst {α : Type} (test : α → Bool) (change : α → α) : List α → List α
  | [] => []
  | a :: rest => if test a then change a :: rest else a :: modifyFirst test change rest

namespace MshrQueue

def new (config : MshrQueueConfig) : MshrQueue := ⟨config, [], 0, 0⟩

variable (queue : MshrQueue)

def allocatedCount : Nat := queue.entries.length

def canAcceptPrefetch : Bool :=
  queue.entries.length < queue.config.entries - (queue.config.demandReserve + 1)

def canAllocateEntry (source : MshrTargetSource) : Except MshrQueueError Unit :=
  if source = .prefetch ∧ queue.canAcceptPrefetch = false then
    .error (.prefetchReserveBlocked queue.entries.length queue.config.entries
      queue.config.demandReserve)
  else if queue.config.entries ≤ queue.entries.length then
    .error (.entrySlotsFull queue.config.entries)
  else .ok ()

def findLine (line : Nat) : Option MshrEntry := queue.entries.find? fun entry => entry.line = line

/-- What a call reports about the entry it changed. -/
def updateOf (entry : MshrEntry) (allocatedNewEntry : Bool) (allocatedCount : Nat) :
    MshrQueueUpdate :=
  ⟨entry.handle, entry.line, allocatedNewEntry, entry.targets.length, allocatedCount⟩

/-- Join the first entry that takes the request, or get one of its own. -/
def allocateOrMerge (request : MemoryRequest) (readyTick : Nat) (source : MshrTargetSource)
    (allocOnFill : Bool) (qos : Option MshrQosClass) :
    Except MshrQueueError MshrQueueUpdate × MshrQueue :=
  let target : MshrTarget := ⟨request, readyTick, queue.nextOrder, source, allocOnFill, qos⟩
  match queue.entries.find? (·.canMergeRequest request) with
  | some entry =>
    if queue.config.targetsPerMshr ≤ entry.targets.length then
      (.error (.targetSlotsFull entry.handle request.lineAddress
        queue.config.targetsPerMshr), queue)
    else
      let join := fun entry : MshrEntry => { entry with targets := entry.targets ++ [target] }
      (.ok (updateOf (join entry) false queue.entries.length),
        { queue with
          entries := modifyFirst (·.canMergeRequest request) join queue.entries
          nextOrder := saturatingSucc queue.nextOrder })
  | none =>
    match queue.canAllocateEntry source with
    | .error e => (.error e, queue)
    | .ok () =>
      let entry : MshrEntry := ⟨queue.nextHandle, request.lineAddress, readyTick,
        queue.nextOrder, false, false, [target]⟩
      (.ok (updateOf entry true (queue.entries.length + 1)),
        { queue with
          entries := queue.entries ++ [entry]
          nextHandle := saturatingSucc queue.nextHandle
          nextOrder := saturatingSucc queue.nextOrder })

/-- Change the entry with a handle, unless there is none or it is refused. -/
def onEntry (handle : Nat) (refuse : MshrEntry → Option MshrQueueError)
    (change : MshrEntry → MshrEntry) : Except MshrQueueError MshrQueueUpdate × MshrQueue :=
  match queue.entries.find? fun entry => entry.handle = handle with
  | none => (.error (.unknownEntry handle), queue)
  | some entry =>
    match refuse entry with
    | some e => (.error e, queue)
    | none =>
      (.ok (updateOf (change entry) false queue.entries.length),
        { queue with
          entries := modifyFirst (fun entry => entry.handle = handle) change queue.entries })

def markInService (handle : Nat) (pendingModified : Bool) :
    Except MshrQueueError MshrQueueUpdate × MshrQueue :=
  queue.onEntry handle
    (fun entry => if entry.inService then some (.entryAlreadyInService handle) else none)
    (fun entry => { entry with inService := true, pendingModified })

def markPending (handle : Nat) : Except MshrQueueError MshrQueueUpdate × MshrQueue :=
  queue.onEntry handle
    (fun entry => if entry.inService then none else some (.entryNotInService handle))
    (fun entry => { entry with inService := false, pendingModified := false })

def delayUntil (handle : Nat) (readyTick : Nat) :
    Except MshrQueueError MshrQueueUpdate × MshrQueue :=
  queue.onEntry handle (fun _ => none) (fun entry => { entry with readyTick })

/-- Take the entry with a handle out of the queue. -/
def complete (handle : Nat) : Except MshrQueueError MshrEntry × MshrQueue :=
  match queue.entries.find? fun entry => entry.handle = handle with
  | none => (.error (.unknownEntry handle), queue)
  | some entry =>
    (.ok entry,
      { queue with entries := queue.entries.eraseP fun entry => entry.handle = handle })

/-- The entries that wait to be issued and may be by now. -/
def ready (tick : Nat) : List MshrEntry :=
  queue.entries.filter fun entry => !entry.inService && entry.readyTick ≤ tick

/-- The handles of the ready entries in the order of issue. None stands for the
    panic when every entry left has to wait for another. -/
def readyHandles (tick : Nat) : Option (List Nat) :=
  (peel MshrEntry.ordersBefore MshrEntry.readySortKey (queue.ready tick).length
    (queue.ready tick)).map (·.map (·.handle))

end MshrQueue

/-- A call that changes the queue. -/
inductive MshrCall where
  | allocateOrMerge (request : MemoryRequest) (readyTick : Nat) (source : MshrTargetSource)
      (allocOnFill : Bool) (qos : Option MshrQosClass)
  | markInService (handle : Nat) (pendingModified : Bool)
  | markPending (handle : Nat)
  | delayUntil (handle readyTick : Nat)
  | complete (handle : Nat)

/-- The queue after a call. -/
def MshrQueue.next (queue : MshrQueue) : MshrCall → MshrQueue
  | .allocateOrMerge request readyTick source allocOnFill qos =>
    (queue.allocateOrMerge request readyTick source allocOnFill qos).2
  | .markInService handle pendingModified => (queue.markInService handle pendingModified).2
  | .markPending handle => (queue.markPending handle).2
  | .delayUntil handle readyTick => (queue.delayUntil handle readyTick).2
  | .complete handle => (queue.complete handle).2

/-! ## The order of issue -/

/-- Every ready entry is listed exactly once, and none before an entry that holds an
    older target which has to be seen before one of its own, exactly when no entry
    has to wait for itself through others. -/
theorem readyHandles_ordered (queue : MshrQueue) (tick : Nat) :
    (∃ ordered : List MshrEntry, queue.readyHandles tick = some (ordered.map (·.handle)) ∧
      ordered.Perm (queue.ready tick) ∧
      ordered.Pairwise fun earlier later => later.ordersBefore earlier = false) ↔
    Acyclic MshrEntry.ordersBefore (queue.ready tick) := by
  constructor
  · rintro ⟨_, hlisted, -⟩
    obtain ⟨ordered, hpeel, -⟩ := Option.map_eq_some_iff.mp hlisted
    exact (peeled_of_peel _ _ _ hpeel).acyclic
  · intro hacyclic
    obtain ⟨ordered, hpeel⟩ := peel_of_acyclic MshrEntry.readySortKey _ _ le_rfl hacyclic
    have hpeeled := peeled_of_peel _ _ _ hpeel
    exact ⟨ordered, by rw [readyHandles, hpeel, Option.map_some], hpeeled.perm, hpeeled.pairwise⟩

/-! ## Orderly queues -/

/-- A request only joins an entry when no target of the queue has to be seen
    before it. -/
def Orderly (queue : MshrQueue) : MshrCall → Prop
  | .allocateOrMerge request _ _ _ _ =>
    ∀ joined ∈ queue.entries, joined.canMergeRequest request = true →
      ∀ entry ∈ queue.entries, ∀ target ∈ entry.targets, target.request.ordersBefore request = false
  | _ => True

/-- An entry that precedes another is older. Orders only grow, so the targets of
    an entry are no older than the entry. -/
structure Aged (queue : MshrQueue) : Prop where
  age : ∀ entry ∈ queue.entries, entry.order ≤ queue.nextOrder
  younger : ∀ entry ∈ queue.entries, ∀ target ∈ entry.targets,
    entry.order ≤ target.order ∧ target.order ≤ queue.nextOrder
  precedes : ∀ earlier ∈ queue.entries, ∀ later ∈ queue.entries,
    earlier.ordersBefore later = true → earlier.order < later.order

theorem MshrEntry.ordersBefore_iff {earlier later : MshrEntry} :
    earlier.ordersBefore later = true ↔
      ∃ first ∈ earlier.targets, ∃ second ∈ later.targets,
        first.order < second.order ∧ first.request.ordersBefore second.request = true := by
  simp [MshrEntry.ordersBefore]

theorem mem_modifyFirst {α : Type} {test : α → Bool} {change : α → α} {b : α} :
    ∀ {items : List α}, b ∈ modifyFirst test change items →
      b ∈ items ∨ ∃ a ∈ items, test a = true ∧ b = change a := by
  intro items
  induction items with
  | nil => exact .inl
  | cons a rest ih =>
    intro h
    unfold modifyFirst at h
    split at h
    next htest =>
      rcases List.mem_cons.mp h with rfl | hrest
      · exact .inr ⟨a, List.mem_cons_self, htest, rfl⟩
      · exact .inl (List.mem_cons_of_mem _ hrest)
    · rcases List.mem_cons.mp h with rfl | hrest
      · exact .inl List.mem_cons_self
      · rcases ih hrest with hmem | ⟨c, hc, hpass, rfl⟩
        · exact .inl (List.mem_cons_of_mem _ hmem)
        · exact .inr ⟨c, List.mem_cons_of_mem _ hc, hpass, rfl⟩

/-- Entries that are old ones, perhaps with one more target that nothing in the
    queue has to precede. -/
theorem Aged.grown {queue queue' : MshrQueue} (h : Aged queue) (added : Option MshrTarget)
    (hnext : queue.nextOrder ≤ queue'.nextOrder)
    (hadd : ∀ tgt, added = some tgt → tgt.order = queue.nextOrder ∧
      ∀ entry ∈ queue.entries, ∀ older ∈ entry.targets,
        older.request.ordersBefore tgt.request = false)
    (hgrown : ∀ entry ∈ queue'.entries, ∃ old ∈ queue.entries, entry.order = old.order ∧
      ∀ tgt ∈ entry.targets, tgt ∈ old.targets ∨ added = some tgt) : Aged queue' where
  age := by
    intro entry hent
    obtain ⟨old, hold, _⟩ := hgrown entry hent
    have := h.age old hold
    omega
  younger := by
    intro entry hent tgt htgt
    obtain ⟨old, hold, horder, htar⟩ := hgrown entry hent
    rcases htar tgt htgt with hkept | hnew
    · have := h.younger old hold tgt hkept
      omega
    · have := h.age old hold
      have := (hadd tgt hnew).1
      omega
  precedes := by
    intro earlier hearlier later hlater hpre
    rcases MshrEntry.ordersBefore_iff.mp hpre with
      ⟨first, hfirst, second, hsecond, hlt, hord⟩
    obtain ⟨a, ha, haorder, hatargets⟩ := hgrown earlier hearlier
    obtain ⟨b, hb, hborder, hbtargets⟩ := hgrown later hlater
    -- The new target is the youngest, so it can only be the later of the two.
    rcases hatargets first hfirst with hkept | hnew
    · rcases hbtargets second hsecond with hkept' | hnew'
      · rw [haorder, hborder]
        exact h.precedes a ha b hb
          (MshrEntry.ordersBefore_iff.mpr ⟨first, hkept, second, hkept', hlt, hord⟩)
      · simp [(hadd second hnew').2 a ha first hkept] at hord
    · have hyoungest := (hadd first hnew).1
      rcases hbtargets second hsecond with hkept' | hnew'
      · have := (h.younger b hb second hkept').2
        omega
      · rw [Option.some.inj (hnew.symm.trans hnew')] at hlt
        omega

theorem Aged.allocated {tgt entry handle order} {queue : MshrQueue} (h : Aged queue)
     (hnext : queue.nextOrder ≤ order)
    (hord : entry.order = queue.nextOrder) (htar : entry.targets = [tgt])
    (htgt : tgt.order = queue.nextOrder) :
    Aged { queue with
      entries := queue.entries ++ [entry], nextHandle := handle, nextOrder := order } where
  age := by
    intro other hoth
    rcases List.mem_append.mp hoth with hold | hnew
    · exact (h.age other hold).trans hnext
    · rwa [List.mem_singleton.mp hnew, hord]
  younger := by
    intro other hoth older holder
    rcases List.mem_append.mp hoth with hold | hnew
    · exact ⟨(h.younger other hold older holder).1,
        (h.younger other hold older holder).2.trans hnext⟩
    · rw [List.mem_singleton.mp hnew] at holder ⊢
      rw [htar] at holder
      rw [List.mem_singleton.mp holder, htgt, hord]
      exact ⟨le_rfl, hnext⟩
  precedes := by
    intro earlier hearlier later hlater hpre
    rcases MshrEntry.ordersBefore_iff.mp hpre with
      ⟨first, hfirst, second, hsecond, hlt, -⟩
    rcases List.mem_append.mp hearlier with hold | hnew
    · rcases List.mem_append.mp hlater with hold' | hnew'
      · exact h.precedes earlier hold later hold' hpre
      · have hagenda := (h.younger earlier hold first hfirst).1
        rw [List.mem_singleton.mp hnew'] at hsecond ⊢
        rw [htar] at hsecond
        rw [List.mem_singleton.mp hsecond, htgt] at hlt
        omega
    · rw [List.mem_singleton.mp hnew, htar] at hfirst
      rw [List.mem_singleton.mp hfirst, htgt] at hlt
      rcases List.mem_append.mp hlater with hold' | hnew'
      · have := (h.younger later hold' second hsecond).2
        omega
      · rw [List.mem_singleton.mp hnew', htar] at hsecond
        rw [List.mem_singleton.mp hsecond, htgt] at hlt
        omega

theorem Aged.onEntry {queue} (h : Aged queue) (handle : Nat)
    (refuse : MshrEntry → Option MshrQueueError)
    (change : MshrEntry → MshrEntry)
    (hcha : ∀ entry, (change entry).order = entry.order ∧ (change entry).targets = entry.targets) :
    Aged (queue.onEntry handle refuse change).2 := by
  unfold MshrQueue.onEntry
  split
  · exact h
  split
  · exact h
  · refine h.grown none le_rfl (fun _ hnone => by cases hnone) ?_
    intro entry hent
    rcases mem_modifyFirst hent with hkept | ⟨old, hold, -, rfl⟩
    · exact ⟨entry, hkept, rfl, fun _ ht => .inl ht⟩
    · exact ⟨old, hold, (hcha old).1, fun _ ht => .inl ((hcha old).2 ▸ ht)⟩

/-- One orderly call keeps the ages. -/
theorem aged_next {queue} {call : MshrCall} (h : Aged queue) (hord : Orderly queue call) :
    Aged (queue.next call) := by
  cases call with
  | allocateOrMerge req readyTick src allocOnFill qos =>
    unfold next allocateOrMerge
    simp only
    cases hfind : queue.entries.find? (·.canMergeRequest req) with
    | some joined =>
      simp only
      split
      · exact h
      have hunordered := hord joined (List.mem_of_find?_eq_some hfind)
        (List.find?_some (p := fun entry : MshrEntry => entry.canMergeRequest req) hfind)
      refine h.grown (some ⟨req, readyTick, queue.nextOrder, src, allocOnFill, qos⟩)
        (le_saturatingSucc _) ?_ ?_
      · intro tgt htgt
        cases htgt
        exact ⟨rfl, hunordered⟩
      · intro entry hent
        rcases mem_modifyFirst hent with hkept | ⟨old, hold, -, rfl⟩
        · exact ⟨entry, hkept, rfl, fun _ ht => .inl ht⟩
        · refine ⟨old, hold, rfl, fun tgt htgt => ?_⟩
          rcases List.mem_append.mp htgt with hkept | hnew
          · exact .inl hkept
          · exact .inr (congrArg some (List.mem_singleton.mp hnew).symm)
    | none =>
      simp only
      split
      · exact h
      · exact h.allocated (le_saturatingSucc _) rfl rfl rfl
  | markInService | markPending handle | delayUntil => exact h.onEntry _ _ _ fun _ => ⟨rfl, rfl⟩
  | complete handle =>
    unfold next complete
    simp only
    split
    · exact h
    · refine h.grown none le_rfl (fun _ hnone => by cases hnone) ?_
      exact fun entry hent => ⟨entry, List.mem_of_mem_eraseP hent, rfl, fun _ ht => .inl ht⟩

/-- A queue that was only ever called in an orderly way can always be issued. -/
theorem acyclic_of_orderly {calls tick cfg}
    (hord : Along MshrQueue.next Orderly (MshrQueue.new cfg) calls) :
    Acyclic MshrEntry.ordersBefore ((run MshrQueue.next (MshrQueue.new cfg) calls).ready tick) := by
  have hnew : Aged (MshrQueue.new cfg) :=
    ⟨fun _ h => absurd h List.not_mem_nil, fun _ h => absurd h List.not_mem_nil,
      fun _ h => absurd h List.not_mem_nil⟩
  have haged := along_invariant next Orderly Aged
    (fun _ _ hinv hcall => aged_next hinv hcall) calls _ hnew hord
  exact acyclic_of_rank MshrEntry.order fun a ha b hb =>
    haged.precedes a (List.mem_of_mem_filter ha) b (List.mem_of_mem_filter hb)

/-! ## A queue that cannot be issued -/

/-- A processor reads a byte, before any read that comes after it. -/
def fencedRead (sequence : Nat) (address : Fin 256) : MemoryRequest :=
  { readByte sequence address with ordering := ⟨none, some ⟨true, false⟩⟩ }

def smallMshr : MshrQueueConfig := ⟨2, 2, 0, by decide, by decide, by decide⟩

/-- A miss that is ready at once. -/
def missed (request : MemoryRequest) : MshrCall := .allocateOrMerge request 0 .demand true none

/-- Two lines, the second of which has to wait for the first although it is more
    urgent. -/
theorem readyHandles_ordered_fenced :
    ∃ ordered : List MshrEntry,
      (run next (new smallMshr) [missed (fencedRead 0 0),
        .allocateOrMerge (readByte 1 4) 0 .demand true (some ⟨0, 1⟩)]).readyHandles 5
        = some (ordered.map (·.handle)) ∧
      ordered.map (·.handle) = [0, 1] := by
  refine ((readyHandles_ordered _ 5).mpr (acyclic_of_orderly ?_)).imp fun ordered h => ⟨h.1, ?_⟩
  · refine ⟨fun _ h => absurd h List.not_mem_nil, ?_, trivial⟩
    intro joined hjoined hmerge
    rw [List.mem_singleton.mp hjoined] at hmerge
    cases hmerge
  · exact (Option.some.inj h.1).symm

/-- Two reads of one line of which the first is fenced: the entry has to wait
    for itself, and asking for the ready entries panics. -/
theorem fenced_line_never_ready :
    (run next (new smallMshr) [missed (fencedRead 0 0), missed (readByte 1 0)]).ready 0 ≠ [] ∧
      (run next (new smallMshr)
        [missed (fencedRead 0 0), missed (readByte 1 0)]).readyHandles 0 = none := by
  refine ⟨?_, rfl⟩
  exact List.cons_ne_nil _ _

end Rem6.Cache
