import Mathlib.Algebra.Ring.Nat
import Mathlib.Data.Nat.Bits
import Mathlib.Data.List.Basic

/-!
# Addresses, Lines and Operations

The vocabulary of the memory crate: addresses and sizes, the line layout that
cuts the address space into lines, the operations a request can carry and the
errors a malformed request or response is refused with.

Addresses, agents and sequence numbers are machine words in the source. Every
address the model computes is bounded by an `AddressRange`, whose constructor
is where the source checks for overflow, so plain naturals lose nothing: a
start that does not fit in 64 bits cannot be put into a range at all.

A line layout is a power of two, so masking the low bits of an address away is
rounding down to a multiple of the line size. `lineAddress` is written that
way, and `lineOffset` is what the rounding removed.

## Main definitions

* `AccessSize`, `AddressRange`: Non-empty sizes and ranges that do not wrap.
* `CacheLineLayout`: A line size, a power of two.
* `MemoryOperation`: What a request asks for, with the source's classifiers.
* `MemoryError`: Why a request or a response is refused.

## Theorems

* `lineAddress_add_lineOffset`: An address is its line plus its offset.
* `lineAddress_lineAddress`: A line address is its own line.
-/

namespace Rem6.Memory

/-- An agent, a `u32` newtype of which only equality and order matter. -/
abbrev AgentId := Nat

/-- One past the largest value of a 64-bit word. -/
def wordLimit : Nat := 2 ^ 64

/-- Count up, and stay at the largest word. -/
def saturatingSucc (n : Nat) : Nat := if n + 1 < wordLimit then n + 1 else n

theorem le_saturatingSucc (n : Nat) : n ≤ saturatingSucc n := by
  unfold saturatingSucc
  split <;> omega

/-- `isize::MAX`, the longest vector that can be allocated. -/
def maxVectorAllocationBytes : Nat := 2 ^ 63 - 1

/-- A size in bytes. Zero is refused at construction. -/
structure AccessSize where
  bytes : Nat
  pos : 0 < bytes
deriving DecidableEq, Repr

theorem AccessSize.four_pos : 0 < 4 := by decide

structure MemoryRequestId where
  agent : AgentId
  sequence : Nat
deriving DecidableEq, Repr

inductive MemoryOperation where
  | noAccess | instructionFetch | readShared | readUnique | loadLocked | lockedRmwRead
  | lockedRmwWrite | write | cacheBlockZero | storeConditional | storeConditionalFail
  | storeConditionalUpgrade | storeConditionalUpgradeFail | upgrade | atomic | atomicNoReturn
  | prefetchRead | prefetchWrite | writeClean | writebackClean | writebackDirty | cleanShared
  | cleanEvict | invalidate | invalidateWritable
deriving DecidableEq, Repr

inductive MemoryAtomicOp where
  | swap | compareSwap | add | xor | or | and | minSigned | maxSigned | minUnsigned | maxUnsigned
deriving DecidableEq, Repr

namespace MemoryOperation

def isAtomic : MemoryOperation → Bool
  | .atomic | .atomicNoReturn => true
  | _ => false

def requiresResponse : MemoryOperation → Bool
  | .prefetchRead | .prefetchWrite | .writeClean | .writebackClean | .writebackDirty
  | .cleanEvict => false
  | _ => true

def returnsData : MemoryOperation → Bool
  | .instructionFetch | .readShared | .readUnique | .loadLocked | .lockedRmwRead
  | .storeConditionalUpgradeFail | .atomic => true
  | _ => false

def carriesRequestData : MemoryOperation → Bool
  | .write | .storeConditional | .storeConditionalFail | .lockedRmwWrite | .atomic
  | .atomicNoReturn | .writeClean | .writebackClean | .writebackDirty => true
  | _ => false

/-- The operations whose payload comes with a byte mask. Write-backs carry a
    whole line and no mask. -/
def carriesByteMask : MemoryOperation → Bool
  | .write | .storeConditional | .storeConditionalFail | .lockedRmwWrite | .atomic
  | .atomicNoReturn => true
  | _ => false

end MemoryOperation

structure MemoryBarrierSet where
  (read write : Bool)
deriving DecidableEq, Repr

structure MemoryAccessOrdering where
  (before after : Option MemoryBarrierSet)
deriving DecidableEq, Repr

def MemoryAccessOrdering.none : MemoryAccessOrdering := ⟨.none, .none⟩

/-- A range of addresses that does not run past the end of the address space.
    The end is exclusive and has to fit in a word itself, so the last byte of
    the address space belongs to no range. -/
structure AddressRange where
  start : Nat
  size : AccessSize
  bound : start + size.bytes < wordLimit
deriving DecidableEq, Repr

/-- The errors of the memory crate that the modelled functions can return. -/
inductive MemoryError where
  | zeroAccessSize
  | addressOverflow (start : Nat) (size : AccessSize)
  | accessSizeTooLarge (size : AccessSize)
  | unalignedLineAddress (address : Nat) (lineSize : Nat)
  | payloadSizeMismatch (expected : AccessSize) (actual : Nat)
  | byteMaskSizeMismatch (expected : AccessSize) (actual : Nat)
  | atomicCompareSizeMismatch (expected : AccessSize) (actual : Nat)
  | missingRequestData (request : MemoryRequestId)
  | unexpectedRequestData (request : MemoryRequestId)
  | missingByteMask (request : MemoryRequestId)
  | unexpectedByteMask (request : MemoryRequestId)
  | missingAtomicOp (request : MemoryRequestId)
  | unexpectedAtomicOp (request : MemoryRequestId)
  | missingAtomicCompare (request : MemoryRequestId)
  | unexpectedAtomicCompare (request : MemoryRequestId)
  | unsupportedAtomicAccessSize (request : MemoryRequestId) (op : MemoryAtomicOp)
      (size : AccessSize)
  | responseNotExpected (request : MemoryRequestId)
  | missingResponseData (request : MemoryRequestId)
  | unexpectedResponseData (request : MemoryRequestId)
  | invalidStoreConditionalFailureResponse (request : MemoryRequestId)
  | unmappedAddress (address : Nat)
  | overlappingAddressRegion (existing requested : AddressRange)
  | sparseHoleOutsideRange (base hole : AddressRange)
  | overlappingSparseHole (existing requested : AddressRange)
  | zeroInterleaveStripes
  | interleaveMatchOutOfRange (stripes matchIndex : Nat)
deriving DecidableEq, Repr

def AccessSize.new (bytes : Nat) : Except MemoryError AccessSize :=
  if h : 0 < bytes then .ok ⟨bytes, h⟩ else .error .zeroAccessSize

namespace AddressRange

def new (start : Nat) (size : AccessSize) : Except MemoryError AddressRange :=
  if h : start + size.bytes < wordLimit then .ok ⟨start, size, h⟩
  else .error (.addressOverflow start size)

variable (range : AddressRange)

/-- The exclusive end of the range. -/
def stop : Nat := range.start + range.size.bytes

def contains (address : Nat) : Bool := range.start ≤ address && address < range.stop

def containsRange (other : AddressRange) : Bool :=
  range.start ≤ other.start && other.stop ≤ range.stop

def overlaps (other : AddressRange) : Bool := range.start < other.stop && other.start < range.stop

theorem contains_iff (adr : Nat) :
    range.contains adr = true ↔ range.start ≤ adr ∧ adr < range.stop := by
  simp [contains]

theorem containsRange_iff {other} :
    range.containsRange other = true ↔ range.start ≤ other.start ∧ other.stop ≤ range.stop := by
  simp [containsRange]

theorem overlaps_iff {other} :
    range.overlaps other = true ↔ range.start < other.stop ∧ other.start < range.stop := by
  simp [overlaps]

theorem start_lt_stop : range.start < range.stop := by
  have hsize := range.size.pos
  unfold stop
  omega

end AddressRange

/-- A line size: a power of two that fits in a vector. -/
structure CacheLineLayout where
  bytes : Nat
  powerOfTwo : ∃ k, bytes = 2 ^ k
  fits : bytes ≤ maxVectorAllocationBytes

namespace CacheLineLayout

variable (layout : CacheLineLayout)

theorem pos : 0 < layout.bytes := by
  rcases layout.powerOfTwo with ⟨k, hk⟩
  rw [hk]
  exact Nat.two_pow_pos k

/-- The line size as an access size, as the controllers request it. -/
def lineSize : AccessSize := ⟨layout.bytes, layout.pos⟩

/-- The address with its low bits masked away. -/
def lineAddress (address : Nat) : Nat := address / layout.bytes * layout.bytes

def lineOffset (address : Nat) : Nat := address - layout.lineAddress address

theorem lineAddress_add_lineOffset (address : Nat) :
    layout.lineAddress address + layout.lineOffset address = address := by
  unfold lineOffset lineAddress
  have h : address / layout.bytes * layout.bytes ≤ address := Nat.div_mul_le_self _ _
  omega

/-- A line address is its own line. -/
@[simp]
theorem lineAddress_lineAddress (address : Nat) :
    layout.lineAddress (layout.lineAddress address) = layout.lineAddress address := by
  unfold lineAddress
  rw [Nat.mul_div_cancel _ layout.pos]

end CacheLineLayout

end Rem6.Memory
