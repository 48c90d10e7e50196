import Rem6.Cache.Mshr
import Rem6.Lib.Fallible
import Rem6.Memory.Response

/-!
# The Write Queue

The queue of a cache bank for what goes back to memory: lines written back or
given up, and uncacheable writes. Entries leave one by one, the one that has
been ready longest first, and a read may be answered from what is still queued.

An entry is only made for an operation the queue knows. The record carries the
kind it was found to be, so that looking the kind up again cannot fail.

## Main definitions

* `CacheWriteQueueEntry`: A queued request with its kind.
* `CacheWriteQueue.enqueue`: Add one, from the reserve or not.
* `CacheWriteQueue.issueNext`: Take one out.
* `CacheWriteQueue.satisfyRead`: The bytes a read finds in the queue.

## Theorems

* `enqueue_entries`: An entry that is added is added at the end, and nothing else
  changes.
-/

namespace Rem6.Cache

open Memory Lib

inductive CacheWriteQueueEntryKind where
  | writebackClean | writebackDirty | cleanEvict | uncacheableWrite
deriving DecidableEq, Repr

/-- What the queue makes of an operation, if anything. -/
def entryKind (operation : MemoryOperation) (uncacheable : Bool) :
    Option CacheWriteQueueEntryKind :=
  match operation, uncacheable with
  | .writeClean, false | .writebackClean, false => some .writebackClean
  | .writebackDirty, false => some .writebackDirty
  | .cleanEvict, false => some .cleanEvict
  | .write, true => some .uncacheableWrite
  | _, _ => none

structure CacheWriteQueueConfig where
  (entries reserve : Nat)
  entries_pos : 0 < entries

structure CacheWriteQueueEntry where
  handle : Nat
  request : MemoryRequest
  secure : Bool
  (readyTick order : Nat)
  uncacheable : Bool
  kind : CacheWriteQueueEntryKind
  /-- The operation was checked before the entry was made. -/
  kind_eq : entryKind request.operation uncacheable = some kind

inductive CacheWriteQueueError where
  | entrySlotsFull (entries reserve : Nat)
  | reserveSlotsFull (totalEntries : Nat)
  | writebackOperationRequired (operation : MemoryOperation)
  | uncacheableWriteRequired (operation : MemoryOperation)
  | memory (error : MemoryError)
deriving DecidableEq, Repr

structure CacheWriteQueueUpdate where
  (handle line allocatedCount reserveUsed : Nat)
deriving DecidableEq, Repr

structure CacheWriteQueueIssue where
  handle : Nat
  request : MemoryRequest
  postIssueDownstreamRequest : Option MemoryRequest
  secure : Bool
  (readyTick order : Nat)
  kind : CacheWriteQueueEntryKind

structure CacheWriteQueue where
  config : CacheWriteQueueConfig
  entries : List CacheWriteQueueEntry
  (nextHandle nextOrder : Nat)

namespace CacheWriteQueueEntry

variable (entry : CacheWriteQueueEntry)

def line : Nat := entry.request.lineAddress

/-- The longest ready entry first, then the oldest. -/
def readySortKey : Nat ×ₗ Nat ×ₗ Nat := toLex (entry.readyTick, toLex (entry.order, entry.handle))

/-- The bytes of a range that a written-back line holds. -/
def readFromWriteback (range : AddressRange) : Option (List UInt8) :=
  let layout := entry.request.lineLayout
  match AddressRange.new entry.request.lineAddress layout.lineSize with
  | .error _ => none
  | .ok line =>
    if line.start ≤ range.start ∧ range.stop ≤ line.stop then
      match entry.request.data with
      | none => none
      | some data =>
        let offset := layout.lineOffset range.start
        if offset + range.size.bytes ≤ data.length then
          some ((data.drop offset).take range.size.bytes)
        else none
    else none

/-- The bytes of a range that an uncacheable write covers without a gap. -/
def readFromUncacheable (range : AddressRange) : Option (List UInt8) :=
  let written := entry.request.range
  if written.start ≤ range.start ∧ range.stop ≤ written.stop then
    let offset := range.start - written.start
    match entry.request.byteMask, entry.request.data with
    | some mask, some data =>
      if offset + range.size.bytes ≤ mask.bits.length ∧
          ((mask.bits.drop offset).take range.size.bytes).all id ∧
          offset + range.size.bytes ≤ data.length then
        some ((data.drop offset).take range.size.bytes)
      else none
    | _, _ => none
  else none

/-- The bytes of a range with an uncacheable write laid over them. -/
def overlayUncacheable (range : AddressRange) (bytes : List UInt8) : List UInt8 :=
  let written := entry.request.range
  match entry.request.byteMask, entry.request.data with
  | some mask, some payload =>
    bytes.mapIdx fun k byte =>
      let address := range.start + k
      if written.start ≤ address ∧ address < written.stop ∧ address < range.stop ∧
          mask.bits.getD (address - written.start) false = true then
        payload.getD (address - written.start) byte
      else byte
  | _, _ => bytes

end CacheWriteQueueEntry

namespace CacheWriteQueue

def new (config : CacheWriteQueueConfig) : CacheWriteQueue := ⟨config, [], 0, 0⟩

variable (queue : CacheWriteQueue)

def allocatedCount : Nat := queue.entries.length

def canAllocate (useReserve : Bool) : Except CacheWriteQueueError Unit :=
  let total := queue.config.entries + queue.config.reserve
  if useReserve then
    if total ≤ queue.entries.length then .error (.reserveSlotsFull total) else .ok ()
  else if queue.config.entries ≤ queue.entries.length then
    .error (.entrySlotsFull queue.config.entries queue.config.reserve)
  else .ok ()

/-- Queue a request of a known kind. -/
def enqueue (request : MemoryRequest) (secure : Bool) (readyTick : Nat)
    (uncacheable useReserve : Bool) :
    Fallible CacheWriteQueue CacheWriteQueueError CacheWriteQueueUpdate := fun queue =>
  match h : entryKind request.operation uncacheable with
  | none =>
    (.error (if uncacheable then .uncacheableWriteRequired request.operation
      else .writebackOperationRequired request.operation), queue)
  | some kind =>
    match queue.canAllocate useReserve with
    | .error e => (.error e, queue)
    | .ok () =>
      (.ok ⟨queue.nextHandle, request.lineAddress, queue.entries.length + 1,
        queue.entries.length + 1 - queue.config.entries⟩,
        { queue with
          entries := queue.entries ++
            [⟨queue.nextHandle, request, secure, readyTick, queue.nextOrder, uncacheable, kind, h⟩]
          nextHandle := saturatingSucc queue.nextHandle
          nextOrder := saturatingSucc queue.nextOrder })

def enqueueWriteback (request : MemoryRequest) (secure : Bool) (readyTick : Nat) :
    Fallible CacheWriteQueue CacheWriteQueueError CacheWriteQueueUpdate :=
  enqueue request secure readyTick false false

def enqueueUncacheableWrite (request : MemoryRequest) (secure : Bool) (readyTick : Nat) :
    Fallible CacheWriteQueue CacheWriteQueueError CacheWriteQueueUpdate :=
  enqueue request secure readyTick true false

/-- Take out the entry that has been ready longest. -/
def issueNext (tick : Nat) :
    Fallible CacheWriteQueue CacheWriteQueueError (Option CacheWriteQueueIssue) := fun queue =>
  match (queue.entries.zipIdx.filter fun entry => entry.1.readyTick ≤ tick).argmin
      (fun entry => entry.1.readySortKey) with
  | none => (.ok none, queue)
  | some (entry, place) =>
    (.ok (some ⟨entry.handle, entry.request, none, entry.secure, entry.readyTick, entry.order,
      entry.kind⟩), { queue with entries := queue.entries.eraseIdx place })

/-- The entry that a request for the line has to wait for. -/
def pendingConflict (line : Nat) (secure : Bool) : Option Nat :=
  ((queue.entries.filter fun entry => entry.line = line && entry.secure = secure).argmin
    CacheWriteQueueEntry.readySortKey).map (·.handle)

/-- What an entry makes of the bytes found in the entries before it. -/
def satisfyFrom (range : AddressRange) (found : Option (List UInt8))
    (entry : CacheWriteQueueEntry) : Option (List UInt8) :=
  match entry.kind with
  | .writebackClean | .writebackDirty => (entry.readFromWriteback range).or found
  | .uncacheableWrite =>
    match found with
    | some bytes => some (entry.overlayUncacheable range bytes)
    | none => entry.readFromUncacheable range
  | .cleanEvict => found

/-- The bytes a read finds in the queue, the youngest entry winning. -/
def satisfyRead (address : Nat) (size : AccessSize) (secure : Bool) :
    Except CacheWriteQueueError (Option (List UInt8)) :=
  match AddressRange.new address size with
  | .error e => .error (.memory e)
  | .ok range =>
    .ok ((queue.entries.filter fun entry => entry.secure = secure).foldl (satisfyFrom range) none)

/-- An entry that is added is added at the end. -/
theorem enqueue_entries (req : MemoryRequest) (secure : Bool) (readyTick : Nat)
    (uncacheable useReserve : Bool) (queue : CacheWriteQueue) :
    (∃ e, enqueue req secure readyTick uncacheable useReserve queue = (.error e, queue)) ∨
    ∃ upd queue' entry, enqueue req secure readyTick uncacheable useReserve queue =
      (.ok upd, queue') ∧ queue'.entries = queue.entries ++ [entry] ∧ entry.request = req ∧
      entryKind req.operation uncacheable = some entry.kind := by
  unfold enqueue
  split
  · exact .inl ⟨_, rfl⟩
  · rename_i kind hkind
    split
    · exact .inl ⟨_, rfl⟩
    · exact .inr ⟨_, _, _, rfl, rfl, rfl, hkind⟩

end CacheWriteQueue

end Rem6.Cache
