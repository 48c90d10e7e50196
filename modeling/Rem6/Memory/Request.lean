import Rem6.Memory.Types

/-!
# Memory Requests

A request as the agents and controllers exchange it, with the checks its
constructor runs, and the order barriers impose between two of them.

`MemoryRequest.validate` is the constructor's chain of checks, in its order. A
`MemoryRequest` carries the fact that the chain accepted it, so a request with a
missing payload, a mask of the wrong length or a stray atomic operation cannot
be built, and every length the controllers rely on can be read off the record.

The source answers a request only when a response is expected. Operations that
need one have it set at construction, and a caller can ask for one on top, but
never take it away: this is the other invariant of the record.

## Main definitions

* `MemoryRequest`: A request that passed its constructor's checks.
* `MemoryRequest.newEmpty`: The requests the controllers send downstream.
* `MemoryRequest.ordersBefore`: The request has to be seen before a later one.

## Theorems

* `data_of_carriesData`: A payload is as long as the access.
* `newEmpty_eq`: A request without payload is refused for its range only.
-/

namespace Rem6.Memory

/-- One bit per byte of the access; never empty. -/
structure ByteMask where
  bits : List Bool
  nonempty : bits ≠ []
deriving DecidableEq, Repr

/-- The mask of a single byte that is written. -/
def fullMask : ByteMask := ⟨[true], List.cons_ne_nil _ _⟩

namespace MemoryRequest

variable (id : MemoryRequestId)

section

variable (operation : MemoryOperation)

def validatePayload (size : AccessSize) (data : Option (List UInt8)) :
    Except MemoryError Unit :=
  match operation.carriesRequestData, data with
  | true, some bytes =>
    if bytes.length = size.bytes then .ok ()
    else .error (.payloadSizeMismatch size bytes.length)
  | true, none => .error (.missingRequestData id)
  | false, some _ => .error (.unexpectedRequestData id)
  | false, none => .ok ()

def validateMask (size : AccessSize) (byteMask : Option ByteMask) :
    Except MemoryError Unit :=
  match operation.carriesByteMask, byteMask with
  | true, some mask =>
    if mask.bits.length = size.bytes then .ok ()
    else .error (.byteMaskSizeMismatch size mask.bits.length)
  | true, none => .error (.missingByteMask id)
  | false, some _ => .error (.unexpectedByteMask id)
  | false, none => .ok ()

def validateAtomicOp (atomicOp : Option MemoryAtomicOp) :
    Except MemoryError Unit :=
  match operation.isAtomic, atomicOp with
  | true, some _ => .ok ()
  | true, none => .error (.missingAtomicOp id)
  | false, some _ => .error (.unexpectedAtomicOp id)
  | false, none => .ok ()

def validateAtomicCompare (size : AccessSize)
    (atomicOp : Option MemoryAtomicOp) (compare : Option (List UInt8)) :
    Except MemoryError Unit :=
  match operation.isAtomic, atomicOp, compare with
  | true, some .compareSwap, some bytes =>
    if bytes.length = size.bytes then .ok ()
    else .error (.atomicCompareSizeMismatch size bytes.length)
  | true, some .compareSwap, none => .error (.missingAtomicCompare id)
  | _, _, some _ => .error (.unexpectedAtomicCompare id)
  | _, _, none => .ok ()

def validateCacheBlockZeroShape (address : Nat)
    (size : AccessSize) (layout : CacheLineLayout) : Except MemoryError Unit :=
  if operation ≠ .cacheBlockZero then .ok ()
  else if layout.lineOffset address ≠ 0 then .error (.unalignedLineAddress address layout.bytes)
  else if size.bytes ≠ layout.bytes then .error (.payloadSizeMismatch layout.lineSize size.bytes)
  else .ok ()

/-- The checks of the constructor, in its order. The range has been built, and
    so has been checked for overflow, before any of them. -/
def validate (range : AddressRange) (layout : CacheLineLayout)
    (data : Option (List UInt8)) (byteMask : Option ByteMask) (atomicOp : Option MemoryAtomicOp)
    (atomicCompare : Option (List UInt8)) :
    Except MemoryError Unit := do
  validatePayload id operation range.size data
  validateMask id operation range.size byteMask
  validateAtomicOp id operation atomicOp
  validateAtomicCompare id operation range.size atomicOp atomicCompare
  validateCacheBlockZeroShape operation range.start range.size layout

end

end MemoryRequest

structure MemoryRequest where
  id : MemoryRequestId
  operation : MemoryOperation
  range : AddressRange
  lineLayout : CacheLineLayout
  ordering : MemoryAccessOrdering := .none
  (uncacheable strictOrder : Bool := false)
  responseRequired : Bool := operation.requiresResponse
  data : Option (List UInt8) := none
  byteMask : Option ByteMask := none
  atomicOp : Option MemoryAtomicOp := none
  atomicCompare : Option (List UInt8) := none
  /-- The constructor accepted the payload. -/
  valid : MemoryRequest.validate id operation range lineLayout data byteMask atomicOp
    atomicCompare = .ok ()
  /-- A response the operation needs is never waived. -/
  answered : operation.requiresResponse = true → responseRequired = true

namespace MemoryRequest

variable (request : MemoryRequest)

variable (id : MemoryRequestId)

/-- A request without payload, as the controllers build their downstream
    requests. The three operations they use carry no data, so after the range
    has been checked nothing is left to refuse. -/
def newEmpty (operation : MemoryOperation) (address : Nat) (size : AccessSize)
    (layout : CacheLineLayout) : Except MemoryError MemoryRequest :=
  match AddressRange.new address size with
  | .error e => .error e
  | .ok range =>
    match h : validate id operation range layout none none none none with
    | .error e => .error e
    | .ok () =>
      .ok { id, operation, range, lineLayout := layout, valid := h, answered := fun h => h }

def readShared (address : Nat) (size : AccessSize) (layout : CacheLineLayout) :
    Except MemoryError MemoryRequest :=
  newEmpty id .readShared address size layout

def readUnique (address : Nat) (size : AccessSize) (layout : CacheLineLayout) :
    Except MemoryError MemoryRequest :=
  newEmpty id .readUnique address size layout

def newUpgrade (address : Nat) (size : AccessSize) (layout : CacheLineLayout) :
    Except MemoryError MemoryRequest :=
  newEmpty id .upgrade address size layout

/-- A dirty line on its way back to memory. The address has to be the line's. -/
def writebackDirty (address : Nat) (data : List UInt8) (layout : CacheLineLayout) :
    Except MemoryError MemoryRequest :=
  if layout.lineOffset address ≠ 0 then .error (.unalignedLineAddress address layout.bytes)
  else
    match AddressRange.new address layout.lineSize with
    | .error e => .error e
    | .ok range =>
      match h : validate id .writebackDirty range layout (some data) none none none with
      | .error e => .error e
      | .ok () =>
        .ok { id, operation := .writebackDirty, range, lineLayout := layout
              data := some data, valid := h, answered := fun h => h }

/-- A downstream request inherits ordering and cacheability from the request
    it is sent for. -/
def withSourceAttributes (downstream source : MemoryRequest) : MemoryRequest :=
  { downstream with
    ordering := source.ordering
    uncacheable := downstream.uncacheable || source.uncacheable
    strictOrder := downstream.strictOrder || source.strictOrder }

def lineAddress : Nat := request.lineLayout.lineAddress request.range.start

def lineOffset : Nat := request.lineLayout.lineOffset request.range.start

def size : AccessSize := request.range.size

def returnsData : Bool := request.operation.returnsData

def carriesData : Bool := request.operation.carriesRequestData

/-- The bytes of one load-locked reservation granule. -/
def llscReservationBytes : Nat := 16

/-- The granule the access starts in: its start with the low bits masked away. -/
def llscReservationAddress : Nat :=
  request.range.start / llscReservationBytes * llscReservationBytes

/-- The access touches the granule that starts at `reservation`. The end of the
    granule saturates at the top of the address space. -/
def overlapsLlscReservation (reservation : Nat) : Bool :=
  request.range.start < min (reservation + llscReservationBytes) (wordLimit - 1)
    && reservation < request.range.stop

theorem start_eq : request.range.start = request.lineAddress + request.lineOffset :=
  (request.lineLayout.lineAddress_add_lineOffset request.range.start).symm

theorem valid_parts :
    validatePayload request.id request.operation request.size request.data = .ok () ∧
    validateMask request.id request.operation request.size request.byteMask = .ok () ∧
    validateAtomicOp request.id request.operation request.atomicOp = .ok () ∧
    validateAtomicCompare request.id request.operation request.size request.atomicOp
      request.atomicCompare = .ok () ∧
    validateCacheBlockZeroShape request.operation request.range.start request.size
      request.lineLayout = .ok () := by
  have h := request.valid
  unfold validate at h
  -- A check that failed would have ended the chain with its error.
  cases hp : validatePayload request.id request.operation request.range.size request.data <;>
    simp only [hp, bind, Except.bind, reduceCtorEq] at h
  cases hm : validateMask request.id request.operation request.range.size request.byteMask <;>
    simp only [hm, reduceCtorEq] at h
  cases ho : validateAtomicOp request.id request.operation request.atomicOp <;>
    simp only [ho, reduceCtorEq] at h
  cases hc : validateAtomicCompare request.id request.operation request.range.size
      request.atomicOp request.atomicCompare <;>
    simp only [hc, reduceCtorEq] at h
  exact ⟨hp, hm, rfl, hc, h⟩

/-- A request that carries data has a payload of its own size. -/
theorem data_of_carriesData (h : request.carriesData = true) :
    ∃ bytes, request.data = some bytes ∧ bytes.length = request.size.bytes := by
  have hv := request.valid_parts.1
  unfold carriesData at h
  unfold validatePayload at hv
  rw [h] at hv
  cases hd : request.data with
  | none => simp only [hd, reduceCtorEq] at hv
  | some bytes =>
    simp only [hd] at hv
    by_cases hlen : bytes.length = request.size.bytes
    · exact ⟨bytes, rfl, hlen⟩
    · simp [if_neg hlen] at hv

theorem data_of_not_carriesData (h : request.carriesData = false) : request.data = none := by
  have hv := request.valid_parts.1
  unfold carriesData at h
  unfold validatePayload at hv
  rw [h] at hv
  cases hd : request.data with
  | none => rfl
  | some bytes => simp only [hd, reduceCtorEq] at hv

theorem atomicOp_of_isAtomic (h : request.operation.isAtomic = true) :
    ∃ op, request.atomicOp = some op := by
  have hv := request.valid_parts.2.2.1
  unfold validateAtomicOp at hv
  rw [h] at hv
  cases ho : request.atomicOp with
  | none => simp only [ho, reduceCtorEq] at hv
  | some op => exact ⟨op, rfl⟩

theorem atomicCompare_of_compareSwap (h : request.operation.isAtomic = true)
    (hop : request.atomicOp = some .compareSwap) : ∃ bytes, request.atomicCompare = some bytes := by
  have hv := request.valid_parts.2.2.2.1
  unfold validateAtomicCompare at hv
  rw [h, hop] at hv
  cases hc : request.atomicCompare with
  | none => simp only [hc, reduceCtorEq] at hv
  | some bytes => exact ⟨bytes, rfl⟩

/-- A request without payload is refused only for its range: none of the three
    operations the controllers send downstream carries data. -/
theorem newEmpty_eq {operation : MemoryOperation} (adr : Nat) (size : AccessSize)
    (layout : CacheLineLayout)
    (hop : operation = .readShared ∨ operation = .readUnique ∨ operation = .upgrade) :
    (wordLimit ≤ adr + size.bytes ∧
      newEmpty id operation adr size layout = .error (.addressOverflow adr size)) ∨
    ∃ request, newEmpty id operation adr size layout = .ok request ∧ request.id = id ∧
      request.operation = operation ∧ request.range.start = adr ∧ request.size = size ∧
      request.lineLayout = layout ∧ request.responseRequired = true := by
  unfold newEmpty AddressRange.new
  by_cases hr : adr + size.bytes < wordLimit
  · refine .inr ?_
    rcases hop with rfl | rfl | rfl <;>
      exact ⟨_, by rw [dif_pos hr]; rfl, rfl, rfl, rfl, rfl, rfl, rfl⟩
  · refine .inl ⟨not_lt.mp hr, ?_⟩
    rw [dif_neg hr]

theorem writebackDirty_inv {id : MemoryRequestId} {address : Nat} {data : List UInt8}
    {layout : CacheLineLayout} {request : MemoryRequest}
    (h : writebackDirty id address data layout = .ok request) :
    request.operation = .writebackDirty ∧ request.range.start = address ∧
      request.data = some data ∧ request.lineLayout = layout := by
  unfold writebackDirty AddressRange.new at h
  split at h
  · cases h
  split at h
  · cases h
  rename_i range hrange
  have hstart : range.start = address := by
    split at hrange
    · exact Except.ok.inj hrange ▸ rfl
    · cases hrange
  split at h
  · cases h
  · exact Except.ok.inj h ▸ ⟨rfl, hstart, rfl, rfl⟩

/-- The number of lines an access touches. -/
def lineSpan : Nat :=
  (request.lineLayout.lineAddress (request.range.stop - 1) - request.lineAddress)
    / request.lineLayout.bytes + 1

end MemoryRequest

/-! ## Ordering -/

namespace MemoryOperation

def readsForOrdering : MemoryOperation → Bool
  | .instructionFetch | .readShared | .readUnique | .loadLocked | .lockedRmwRead
  | .storeConditionalUpgradeFail | .atomic | .atomicNoReturn | .prefetchRead => true
  | _ => false

def writesForOrdering : MemoryOperation → Bool
  | .readUnique | .lockedRmwRead | .write | .cacheBlockZero | .storeConditional
  | .storeConditionalFail | .storeConditionalUpgrade | .storeConditionalUpgradeFail
  | .lockedRmwWrite | .upgrade | .atomic | .atomicNoReturn | .prefetchWrite | .writeClean
  | .writebackClean | .writebackDirty | .cleanShared | .cleanEvict | .invalidate
  | .invalidateWritable => true
  | _ => false

end MemoryOperation

/-- Serving the operation needs the line to be writable. -/
def MemoryOperation.requiresWritable : MemoryOperation → Bool
  | .readUnique | .lockedRmwRead | .write | .cacheBlockZero | .storeConditional
  | .storeConditionalFail | .storeConditionalUpgrade | .storeConditionalUpgradeFail
  | .lockedRmwWrite | .upgrade | .atomic | .atomicNoReturn | .prefetchWrite
  | .invalidateWritable => true
  | _ => false

def MemoryBarrierSet.matchesOperation (barrier : MemoryBarrierSet) (operation : MemoryOperation) :
    Bool :=
  (barrier.read && operation.readsForOrdering) || (barrier.write && operation.writesForOrdering)

/-- The request has to be seen before a later one of the same agent. -/
def MemoryRequest.ordersBefore (request later : MemoryRequest) : Bool :=
  request.id.agent = later.id.agent &&
    (request.strictOrder || later.strictOrder ||
      later.ordering.before.any (·.matchesOperation request.operation) ||
      request.ordering.after.any (·.matchesOperation later.operation))

/-! ## A small line

Lines of four bytes and reads of one byte, for runs that are evaluated. -/

def quadLayout : CacheLineLayout := ⟨4, ⟨2, rfl⟩, by decide⟩

/-- One byte of the lower addresses. -/
def byteAt (address : Fin 256) : AddressRange :=
  ⟨address, ⟨1, Nat.one_pos⟩, by simp only [wordLimit]; omega⟩

instance neZero_addresses : NeZero 256 := ⟨by decide⟩

/-- A processor reads a byte. -/
def readByte (sequence : Nat) (address : Fin 256) : MemoryRequest :=
  { id := ⟨1, sequence⟩, operation := .readShared, range := byteAt address
    lineLayout := quadLayout, valid := rfl, answered := fun h => h }

end Rem6.Memory
