import Rem6.Lib.Run
import Rem6.Memory.Types

/-!
# Byte-Range Locks

The lock table of the 9p file system. It keeps a list of ranges, and a request
splits, trims and replaces the ranges of its owner. What the table is for is
simpler: every owner holds at most one type of lock at every offset of a node,
`Holds`. A request is blocked by the offsets others hold, and changes those of
its own range only.

An end is the sum of start and length, held at the largest offset if it does not
fit a word. A range that reaches past the offsets so loses its last one, which
two owners can then both lock: `last_offset_locked_twice`. Requests that end
within the offsets, or have no end, are answered as they should be:
`apply_refines`.

## Main definitions

* `Virtio9pLockTable.apply`: A request to lock or to unlock.
* `covers`: The offsets of a range.
* `Virtio9pLockTable.Holds`: An owner holds a lock at an offset.

## Theorems

* `pushUnlockedRanges_covers`: What is left of a range that is unlocked in part.
* `holds_unlock`: Unlocking clears exactly the owner's offsets in the range.
* `apply_refines`: Every run of requests, read offset by offset.
-/

namespace Rem6.Virtio

open Lib Memory

inductive Virtio9pLockType where
  | read | write | unlock
deriving DecidableEq, Repr

inductive Virtio9pLockStatus where
  | success | blocked
deriving DecidableEq, Repr

/-- The process and the client a lock belongs to. -/
structure Virtio9pLockOwner where
  procId : Nat
  clientId : String
deriving DecidableEq, Repr

structure Virtio9pLockRequest where
  fid : Nat
  lockType : Virtio9pLockType
  flags : Nat
  owner : Virtio9pLockOwner
  (start length : Nat)
  start_lt : start < wordLimit
deriving DecidableEq, Repr

structure Virtio9pHeldLock where
  (node fid : Nat)
  lockType : Virtio9pLockType
  (flags start length : Nat)
  owner : Virtio9pLockOwner
deriving DecidableEq, Repr

/-! ## The code -/

def lockTypesConflict (left right : Virtio9pLockType) : Bool := left = .write || right = .write

/-- A range without length has no end. -/
def lockEnd (start length : Nat) : Option Nat :=
  if length ≠ 0 then some (min (start + length) (wordLimit - 1)) else none

def rangesOverlap (leftStart leftLength rightStart rightLength : Nat) : Bool :=
  !((lockEnd leftStart leftLength).any (· ≤ rightStart) ||
    (lockEnd rightStart rightLength).any (· ≤ leftStart))

def lockLength (start : Nat) : Option Nat → Option Nat
  | some stop => if start < stop then some (stop - start) else none
  | none => some 0

namespace Virtio9pHeldLock

def new (node fid : Nat) (request : Virtio9pLockRequest) : Virtio9pHeldLock :=
  ⟨node, fid, request.lockType, request.flags, request.start, request.length, request.owner⟩

variable (lock : Virtio9pHeldLock)

def pushLockRange (start : Nat) (stop : Option Nat) : List Virtio9pHeldLock :=
  (lockLength start stop).toList.map fun length => { lock with start, length }

/-- The parts of a lock on both sides of a range. -/
def pushUnlockedRanges (unlockStart unlockLength : Nat) : List Virtio9pHeldLock :=
  let heldEnd := lockEnd lock.start lock.length
  (if lock.start < unlockStart then lock.pushLockRange lock.start (some unlockStart) else []) ++
    match lockEnd unlockStart unlockLength with
    | none => []
    | some unlockEnd =>
      if heldEnd.all (unlockEnd < ·) then lock.pushLockRange (max unlockEnd lock.start) heldEnd
      else []

end Virtio9pHeldLock

structure Virtio9pLockTable where
  locks : List Virtio9pHeldLock := []
deriving DecidableEq, Repr

open Virtio9pLockTable

namespace Virtio9pLockTable

variable (table : Virtio9pLockTable) (node : Nat) (request : Virtio9pLockRequest)

def unlock : Virtio9pLockTable :=
  ⟨table.locks.flatMap fun lock =>
    if lock.node = node ∧ lock.owner = request.owner ∧
        rangesOverlap lock.start lock.length request.start request.length then
      lock.pushUnlockedRanges request.start request.length
    else [lock]⟩

def conflict : Option Virtio9pHeldLock :=
  table.locks.find? fun lock =>
    lock.node = node ∧ lock.owner ≠ request.owner ∧ lockTypesConflict lock.lockType request.lockType
      ∧ rangesOverlap lock.start lock.length request.start request.length

def apply : Virtio9pLockStatus × Virtio9pLockTable :=
  if request.lockType = .unlock then (.success, table.unlock node request)
  else if (table.conflict node request).isSome then (.blocked, table)
  else (.success, ⟨(table.unlock node request).locks ++ [.new node request.fid request]⟩)

/-- The table after a request for a node. -/
def next (table : Virtio9pLockTable) (call : Nat × Virtio9pLockRequest) : Virtio9pLockTable :=
  (table.apply call.1 call.2).2

end Virtio9pLockTable

/-! ## Offsets -/

/-- A range covers an offset; without a length it covers all from its start. -/
def covers (start length offset : Nat) : Prop :=
  start ≤ offset ∧ (length = 0 ∨ offset < start + length)

/-- A range that has no end, or one among the offsets. -/
def Fits (start length : Nat) : Prop :=
  start < wordLimit ∧ (length = 0 ∨ start + length < wordLimit)

/-- The owner holds a lock of the type at an offset of the node. -/
def Virtio9pLockTable.Holds (table : Virtio9pLockTable) (node : Nat) (owner : Virtio9pLockOwner)
    (offset : Nat) (lockType : Virtio9pLockType) : Prop :=
  ∃ lock ∈ table.locks, lock.node = node ∧ lock.owner = owner ∧ lock.lockType = lockType ∧
    covers lock.start lock.length offset

section Ranges

variable {start length start' length' offset : Nat}

theorem lockEnd_of_fits (h : Fits start length) :
    lockEnd start length = if length = 0 then none else some (start + length) := by
  unfold lockEnd
  rcases h with ⟨-, hzero | hlt⟩
  · simp [hzero]
  · rw [min_eq_left (by omega)]
    split <;> simp_all

theorem rangesOverlap_iff (h : Fits start length) (h' : Fits start' length') :
    rangesOverlap start length start' length' = true ↔
      ∃ offset < wordLimit, covers start length offset ∧ covers start' length' offset := by
  obtain ⟨hlt, hend⟩ := id h
  obtain ⟨hlt', hend'⟩ := id h'
  simp only [rangesOverlap, lockEnd_of_fits h, lockEnd_of_fits h', covers]
  constructor
  · intro hoverlap
    -- The later start is in both ranges.
    refine ⟨max start start', by omega, ?_⟩
    split at hoverlap <;> split at hoverlap <;> simp at hoverlap <;> omega
  · rintro ⟨offset, -, hleft, hright⟩
    split <;> split <;> simp <;> omega

variable {lock : Virtio9pHeldLock}

/-- What is left of a lock: a part before the range, and one behind it. -/
theorem mem_pushUnlockedRanges {part} (hlock : Fits lock.start lock.length)
    (h : Fits start length) :
    part ∈ lock.pushUnlockedRanges start length ↔
      (lock.start < start ∧ part = { lock with length := start - lock.start }) ∨
      (length ≠ 0 ∧ (lock.length = 0 ∨ start + length < lock.start + lock.length) ∧
        part = { lock with
          start := max (start + length) lock.start
          length := lock.start + lock.length - max (start + length) lock.start }) := by
  unfold Virtio9pHeldLock.pushUnlockedRanges Virtio9pHeldLock.pushLockRange
  rw [lockEnd_of_fits hlock, lockEnd_of_fits h, List.mem_append]
  refine or_congr ?_ ?_
  · by_cases hbef : lock.start < start
    · simp [hbef, lockLength]
    · simp [hbef]
  · by_cases hzero : length = 0
    · simp [hzero]
    by_cases hopen : lock.length = 0
    · have hnone := Nat.sub_eq_zero_of_le (le_max_right (start + length) lock.start)
      simp [hzero, hopen, lockLength, hnone]
    by_cases hbehind : start + length < lock.start + lock.length
    · have hmax : max (start + length) lock.start < lock.start + lock.length := by omega
      simp [hzero, hopen, hbehind, lockLength, hmax]
    · simp [hzero, hopen, hbehind]

/-- Of a lock that is unlocked in part there are left its offsets outside the
    range. -/
theorem pushUnlockedRanges_covers (hlock : Fits lock.start lock.length) (h : Fits start length)
    (hoverlap : rangesOverlap lock.start lock.length start length = true) :
    (∃ part ∈ lock.pushUnlockedRanges start length, covers part.start part.length offset) ↔
      covers lock.start lock.length offset ∧ ¬ covers start length offset := by
  obtain ⟨common, -, hcom⟩ := (rangesOverlap_iff hlock h).mp hoverlap
  simp only [covers] at hcom
  simp only [mem_pushUnlockedRanges hlock h]
  constructor
  · rintro ⟨_, ⟨hbef, rfl⟩ | ⟨hlen, hbehind, rfl⟩, hcovers⟩ <;> simp only [covers] at hcovers ⊢ <;>
      omega
  · rintro ⟨hheld, hfree⟩
    simp only [covers] at hheld hfree
    by_cases hbef : offset < start
    · exact ⟨_, .inl ⟨by omega, rfl⟩, hheld.1, .inr (by simp only; omega)⟩
    · refine ⟨_, .inr ⟨by omega, by omega, rfl⟩, ?_⟩
      simp only [covers]
      omega

end Ranges

/-! ## Requests -/

section Requests

variable {table : Virtio9pLockTable} {node : Nat} {request : Virtio9pLockRequest}

/-- The ranges fit, and an owner holds one type of lock at most at an offset. -/
structure Virtio9pLockTable.Sound (table : Virtio9pLockTable) : Prop where
  fits : ∀ lock ∈ table.locks, Fits lock.start lock.length
  single : ∀ node owner offset lockType lockType', offset < wordLimit → table.Holds node owner
    offset lockType → table.Holds node owner offset lockType' → lockType = lockType'

/-- Another owner holds a lock in the range, and one of the two is a write lock. -/
def Virtio9pLockTable.Blocks (table : Virtio9pLockTable) (node : Nat)
    (request : Virtio9pLockRequest) : Prop :=
  request.lockType ≠ .unlock ∧ ∃ owner ≠ request.owner, ∃ offset < wordLimit,
    covers request.start request.length offset ∧
      ∃ lockType, table.Holds node owner offset lockType ∧
        (lockType = .write ∨ request.lockType = .write)

/-- The offset is one of those the request is about. -/
def Virtio9pLockRequest.Selects (request : Virtio9pLockRequest) (node node' : Nat)
    (owner : Virtio9pLockOwner) (offset : Nat) : Prop :=
  node' = node ∧ owner = request.owner ∧ covers request.start request.length offset

/-- The selected offsets are set to the type, or cleared, and no others change. -/
def Virtio9pLockTable.SetTo (table after : Virtio9pLockTable) (node : Nat)
    (request : Virtio9pLockRequest) : Prop :=
  ∀ node' owner offset lockType, offset < wordLimit →
    (after.Holds node' owner offset lockType ↔
      (request.Selects node node' owner offset ∧ request.lockType ≠ .unlock ∧
          lockType = request.lockType) ∨
        (¬ request.Selects node node' owner offset ∧ table.Holds node' owner offset lockType))

theorem holds_unlock {offset node' owner lockType} (hsound : table.Sound)
    (h : Fits request.start request.length)
    (hoff : offset < wordLimit) :
    (table.unlock node request).Holds node' owner offset lockType ↔
      ¬ request.Selects node node' owner offset ∧ table.Holds node' owner offset lockType := by
  constructor
  · rintro ⟨part, hpart, rfl, rfl, rfl, hcovers⟩
    obtain ⟨lock, hlock, hpart⟩ := List.mem_flatMap.mp hpart
    have hfits := hsound.fits lock hlock
    split at hpart
    next hsel =>
      obtain ⟨hheld, hfree⟩ := (pushUnlockedRanges_covers hfits h hsel.2.2).mp
        ⟨part, hpart, hcovers⟩
      refine ⟨fun hselects => hfree hselects.2.2, lock, hlock, ?_⟩
      rcases (mem_pushUnlockedRanges hfits h).mp hpart with ⟨-, rfl⟩ | ⟨-, -, rfl⟩ <;>
        exact ⟨rfl, rfl, rfl, hheld⟩
    next hoth =>
      obtain rfl := List.mem_singleton.mp hpart
      refine ⟨fun ⟨hnode, hown, hrange⟩ => hoth ⟨hnode, hown, ?_⟩, part, hlock, rfl, rfl, rfl,
        hcovers⟩
      exact (rangesOverlap_iff hfits h).mpr ⟨offset, hoff, hcovers, hrange⟩
  · rintro ⟨hfree, lock, hlock, rfl, rfl, rfl, hcovers⟩
    have hfits := hsound.fits lock hlock
    by_cases hsel : lock.node = node ∧ lock.owner = request.owner ∧
        rangesOverlap lock.start lock.length request.start request.length = true
    · obtain ⟨part, hpart, hleft⟩ := (pushUnlockedRanges_covers hfits h hsel.2.2).mpr
        ⟨hcovers, fun hrange => hfree ⟨hsel.1, hsel.2.1, hrange⟩⟩
      refine ⟨part, List.mem_flatMap.mpr ⟨lock, hlock, by rwa [if_pos hsel]⟩, ?_⟩
      rcases (mem_pushUnlockedRanges hfits h).mp hpart with ⟨-, rfl⟩ | ⟨-, -, rfl⟩ <;>
        exact ⟨rfl, rfl, rfl, hleft⟩
    · exact ⟨lock, List.mem_flatMap.mpr ⟨lock, hlock, by simp [hsel]⟩, rfl, rfl, rfl, hcovers⟩

theorem fits_unlock (hsound : table.Sound) (h : Fits request.start request.length) :
    ∀ lock ∈ (table.unlock node request).locks, Fits lock.start lock.length := by
  intro part hpart
  obtain ⟨lock, hlock, hpart⟩ := List.mem_flatMap.mp hpart
  have hfits := hsound.fits lock hlock
  split at hpart
  · rcases (mem_pushUnlockedRanges hfits h).mp hpart with ⟨hbef, rfl⟩ | ⟨-, hbehind, rfl⟩ <;>
      simp only [Fits] at hfits h ⊢ <;> omega
  · rwa [List.mem_singleton.mp hpart]

theorem conflict_isSome_iff (hsound : table.Sound) (h : Fits request.start request.length)
    (hlock : request.lockType ≠ .unlock) :
    (table.conflict node request).isSome = true ↔ table.Blocks node request := by
  simp only [conflict, List.find?_isSome, Blocks,
    lockTypesConflict, decide_eq_true_eq, Bool.or_eq_true]
  constructor
  · rintro ⟨lock, hmem, rfl, hown, htypes, hoverlap⟩
    obtain ⟨offset, hoff, hheld, hrange⟩ := (rangesOverlap_iff (hsound.fits lock hmem) h).mp
      hoverlap
    exact ⟨hlock, lock.owner, hown, offset, hoff, hrange, lock.lockType,
      ⟨lock, hmem, rfl, rfl, rfl, hheld⟩, htypes⟩
  · rintro ⟨-, owner, hown, offset, hoff, hrange, lockType, ⟨lock, hmem, rfl, rfl, rfl, hheld⟩,
      htypes⟩
    exact ⟨lock, hmem, rfl, hown, htypes,
      (rangesOverlap_iff (hsound.fits lock hmem) h).mpr ⟨offset, hoff, hheld, hrange⟩⟩

theorem apply_of_free (hlock : request.lockType ≠ .unlock)
    (hfree : ¬ (table.conflict node request).isSome = true) :
    table.apply node request = (.success, ⟨(table.unlock node request).locks ++
      [.new node request.fid request]⟩) := by
  rw [apply, if_neg hlock, if_neg hfree]

/-- What an answer means for the table. -/
structure Virtio9pLockTable.Answers (table : Virtio9pLockTable) (node : Nat)
    (request : Virtio9pLockRequest) : Prop where
  blocked_iff : (table.apply node request).1 = .blocked ↔ table.Blocks node request
  blocked : (table.apply node request).1 = .blocked → (table.apply node request).2 = table
  success : (table.apply node request).1 = .success →
    table.SetTo (table.apply node request).2 node request

theorem apply_answers (hsound : table.Sound) (h : Fits request.start request.length) :
    table.Answers node request := by
  by_cases hunl : request.lockType = .unlock
  · have happly : table.apply node request = (.success, table.unlock node request) := if_pos hunl
    refine ⟨?_, ?_, fun _ node' owner offset lockType hoff => ?_⟩ <;> rw [happly]
    · simp [Blocks, hunl]
    · simp
    · simp [holds_unlock hsound h hoff, hunl]
  have hcon : _ ↔ table.Blocks node request := conflict_isSome_iff hsound h hunl
  by_cases hblocks : (table.conflict node request).isSome = true
  · have happly : table.apply node request = (.blocked, table) := by
      rw [apply, if_neg hunl, if_pos hblocks]
    refine ⟨?_, ?_, ?_⟩ <;> rw [happly]
    · simp [hcon.mp hblocks]
    · simp
    · simp
  · have happly := apply_of_free hunl hblocks
    refine ⟨?_, ?_, fun _ node' owner offset lockType hoff => ?_⟩ <;> rw [happly]
    · simp [← hcon, hblocks]
    · simp
    · rw [Holds]
      simp only [List.mem_append, List.mem_singleton, or_and_right, exists_or, exists_eq_left]
      rw [or_comm, ← Holds, holds_unlock hsound h hoff]
      refine or_congr ?_ Iff.rfl
      simp only [Virtio9pHeldLock.new, Virtio9pLockRequest.Selects]
      grind

theorem apply_sound (hsound : table.Sound) (h : Fits request.start request.length) :
    (table.apply node request).2.Sound := by
  have hanswers : table.Answers node request := apply_answers hsound h
  cases hstatus : (table.apply node request).1 with
  | blocked => rwa [hanswers.blocked hstatus]
  | success =>
    refine ⟨fun lock hlock => ?_, fun node' owner offset left right hoff hleft hright => ?_⟩
    · unfold apply at hlock
      split at hlock
      · exact fits_unlock hsound h lock hlock
      split at hlock
      · exact hsound.fits lock hlock
      rcases List.mem_append.mp hlock with hkept | hnew
      · exact fits_unlock hsound h lock hkept
      · rwa [List.mem_singleton.mp hnew]
    · have hset := hanswers.success hstatus node' owner offset
      rcases (hset left hoff).mp hleft with ⟨hin, -, hl⟩ | ⟨hout, hl⟩ <;>
        rcases (hset right hoff).mp hright with ⟨hin', -, hr⟩ | ⟨hout', hr⟩
      · rw [hl, hr]
      · exact absurd hin hout'
      · exact absurd hin' hout
      · exact hsound.single node' owner offset left right hoff hl hr

/-- In every run of requests that end within the offsets, or have no end, an
    owner has one type of lock at most at an offset; a request is blocked exactly
    by what others hold in its range, and then changes nothing; a request that is
    granted sets the owner's offsets in its range, or clears them. -/
theorem apply_refines (calls : List (Nat × Virtio9pLockRequest)) (node : Nat)
    (request : Virtio9pLockRequest)
    (hends : ∀ call ∈ calls ++ [(node, request)],
      call.2.length = 0 ∨ call.2.start + call.2.length < wordLimit) :
    (run next {} calls).Sound ∧ (run next {} calls).Answers node request := by
  have hfits : ∀ call ∈ calls ++ [(node, request)], Fits call.2.start call.2.length :=
    fun call hcall => ⟨call.2.start_lt, hends call hcall⟩
  have hsound := along_invariant next (fun _ call => Fits call.2.start call.2.length) Sound
    (fun _ _ hsound h => apply_sound hsound h) calls {} ⟨by simp, by simp [Holds]⟩
    (along_of_forall _ _ calls _ fun call hcall => hfits call (List.mem_append_left _ hcall))
  exact ⟨hsound, apply_answers hsound (hfits (node, request) (by simp))⟩

/-- The process asks for a lock of its client on a range. -/
def lockRange (lockType : Virtio9pLockType) (procId : Nat) (start length : Nat)
    (start_lt : start < wordLimit) : Virtio9pLockRequest :=
  ⟨0, lockType, 0, ⟨procId, "client"⟩, start, length, start_lt⟩

theorem apply_refines_shared :
    (run next {} [(0, lockRange .read 1 0 8 (by decide))]).Answers 0
      (lockRange .write 2 4 0 (by decide)) :=
  (apply_refines [(0, lockRange .read 1 0 8 (by decide))] 0 (lockRange .write 2 4 0 (by decide))
    (by simp [lockRange]; decide)).2

/-- The end of the last offset does not fit a word: two processes lock it for
    writing. -/
theorem last_offset_locked_twice :
    let table := run next {} [(0, lockRange .write 1 (wordLimit - 1) 1 (by decide))]
    let request := lockRange .write 2 (wordLimit - 1) 1 (by decide)
    table.Blocks 0 request ∧ (table.apply 0 request).1 = .success := by
  refine ⟨⟨by decide, ⟨1, "client"⟩, by decide, wordLimit - 1, by decide, ?_, .write, ?_,
    .inl rfl⟩, ?_⟩
  · exact ⟨le_rfl, .inr (by decide)⟩
  · exact ⟨_, List.mem_singleton_self _, rfl, rfl, rfl, le_rfl, .inr (by decide)⟩
  · decide

end Requests

end Rem6.Virtio
