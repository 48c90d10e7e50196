import Rem6.Memory.Flat

/-!
# The Backing Line

The memory behind the caches of one line. A harness is given one, asks it for
the line when no cache supplies it, and writes an owner's data back into it.

The backing line has a layout of its own. A harness only checks that it starts
at the right address, so its line may be shorter or longer than the one the
caches hold, and the sizes are compared when data moves: `readSlice` refuses a
line that is too short, `replaceData` one of any other size.

## Main definitions

* `LineBackingStore`: The record.
* `LineBackingStore.respond`: Serve a request from the backing line.
* `LineBackingStore.replaceData`: Write a whole line back.

## Theorems

* `respond_readLine`: A whole-line read answers with the first bytes held.
-/

namespace Rem6.Coherence

open Memory Lib MemoryResponse

inductive BackingError where
  | wrongLine (expected actual : Nat)
  | lineDataSizeMismatch (expected actual : Nat)
  | memory (error : MemoryError)
deriving DecidableEq, Repr

/-- A line of memory. Its data fills its layout. -/
structure LineBackingStore where
  layout : CacheLineLayout
  lineAddress : Nat
  data : List UInt8
  lockedReservations : AgentId → Option Nat
  full : data.length = layout.bytes

namespace LineBackingStore

def new (layout : CacheLineLayout) (address : Nat) (data : List UInt8) :
    Except BackingError LineBackingStore :=
  if h : data.length = layout.bytes then
    .ok ⟨layout, layout.lineAddress address, data, fun _ => none, h⟩
  else .error (.lineDataSizeMismatch layout.bytes data.length)

variable (b : LineBackingStore)

/-- Write a whole line back, which ends every reservation. -/
def replaceData (data : List UInt8) : Except BackingError LineBackingStore :=
  if h : data.length = b.layout.bytes then
    .ok { b with data, lockedReservations := fun _ => none, full := h }
  else .error (.lineDataSizeMismatch b.layout.bytes data.length)

section

variable (request : MemoryRequest)

def checkLine : Except BackingError Unit :=
  if request.lineAddress ≠ b.lineAddress then .error (.wrongLine b.lineAddress request.lineAddress)
  else .ok ()

def readSlice : Except BackingError (List UInt8) :=
  if b.data.length < request.lineOffset + request.size.bytes then
    .error (.lineDataSizeMismatch b.layout.bytes (request.lineOffset + request.size.bytes))
  else .ok ((b.data.drop request.lineOffset).take request.size.bytes)

def trackLoadLocked : LineBackingStore :=
  { b with
    lockedReservations := Function.update b.lockedReservations request.id.agent
      (some request.llscReservationAddress) }

def storeConditionalAllowed : Bool :=
  b.lockedReservations request.id.agent = some request.llscReservationAddress

def clearLockedReservations : LineBackingStore :=
  { b with
    lockedReservations := fun agent =>
      (b.lockedReservations agent).filter fun reserved =>
        !request.overlapsLlscReservation reserved }

def applyWriteData (payload : List UInt8) : LineBackingStore :=
  { b with
    data := overlay request.maskAt request.lineOffset payload b.data
    full := by rw [overlay_length, b.full] }

def respondWith (response : Except MemoryError MemoryResponse) :
    Except BackingError MemoryResponse :=
  response.mapError .memory

/-- Store the payload and answer. -/
def applyWrite : Except BackingError MemoryResponse × LineBackingStore :=
  match request.data with
  | none => (.error (.memory (.missingRequestData request.id)), b)
  | some payload =>
    (respondWith (completed request none),
      (b.applyWriteData request payload).clearLockedReservations request)

/-- Take the data of a write-back, which has to be a whole line. -/
def replaceLine (data : List UInt8) : Except BackingError LineBackingStore :=
  if h : data.length = b.layout.bytes then .ok { b with data, full := h }
  else .error (.lineDataSizeMismatch b.layout.bytes data.length)

/-- Serve a request from the backing line. A write-back replaces the line and
    is told to retry, as it expects no answer. -/
def respond : Except BackingError MemoryResponse × LineBackingStore :=
  match b.checkLine request with
  | .error e => (.error e, b)
  | .ok () =>
    match request.operation with
    | .readShared | .readUnique | .lockedRmwRead =>
      match b.readSlice request with
      | .error e => (.error e, b)
      | .ok data => (respondWith (completed request (some data)), b)
    | .loadLocked =>
      match b.readSlice request with
      | .error e => (.error e, b)
      | .ok data => (respondWith (completed request (some data)), b.trackLoadLocked request)
    | .storeConditional =>
      if b.storeConditionalAllowed request then b.applyWrite request
      else (respondWith (storeConditionalFailed request), b)
    | .storeConditionalFail => (respondWith (storeConditionalFailed request), b)
    | .write | .lockedRmwWrite => b.applyWrite request
    | .atomic | .atomicNoReturn =>
      match b.readSlice request with
      | .error e => (.error e, b)
      | .ok data =>
        match request.atomicWriteData data with
        | .error e => (.error (.memory e), b)
        | .ok new =>
          (respondWith (completed request (if request.returnsData then some data else none)),
            (b.applyWriteData request new).clearLockedReservations request)
    | .writeClean | .writebackClean | .writebackDirty =>
      match request.data with
      | none => (.error (.memory (.missingRequestData request.id)), b)
      | some data =>
        match b.replaceLine data with
        | .error e => (.error e, b)
        | .ok b => (.ok (retry request), b.clearLockedReservations request)
    | _ => (respondWith (completed request none), b)

end

/-- A whole-line request at the start of the backing line. -/
structure IsLineRequest (b : LineBackingStore) (request : MemoryRequest) : Prop where
  line : request.lineAddress = b.lineAddress
  offset : request.lineOffset = 0
  answered : request.responseRequired = true

/-- A whole-line read answers with the first bytes of the backing line, unless
    the line is too short to have them. -/
theorem respond_readLine {req} (h : IsLineRequest b req)
    (hop : req.operation = .readShared ∨ req.operation = .readUnique) :
    (b.data.length < req.size.bytes ∧ ∃ e, b.respond req = (.error e, b)) ∨
    (req.size.bytes ≤ b.data.length ∧
      b.respond req = (.ok ⟨req.id, .completed, some (b.data.take req.size.bytes)⟩, b)) := by
  have hcheck : b.checkLine req = .ok () := by
    rw [checkLine, if_neg (not_not.mpr h.line)]
  have hret : req.returnsData = true := by
    unfold MemoryRequest.returnsData
    rcases hop with hop | hop <;> rw [hop] <;> rfl
  by_cases hshort : b.data.length < req.size.bytes
  · have hread : b.readSlice req
        = .error (.lineDataSizeMismatch b.layout.bytes (0 + req.size.bytes)) := by
      rw [readSlice, h.offset, if_pos (by omega)]
    refine .inl ⟨hshort, .lineDataSizeMismatch b.layout.bytes (0 + req.size.bytes), ?_⟩
    rcases hop with hop | hop <;> simp only [respond, hcheck, hop, hread]
  · have hread : b.readSlice req = .ok (b.data.take req.size.bytes) := by
      rw [readSlice, h.offset, if_neg (by omega), List.drop_zero]
    have hlen : (b.data.take req.size.bytes).length = req.size.bytes := by
      rw [List.length_take]
      omega
    have hdone := completed_some h.answered hret hlen
    refine .inr ⟨by omega, ?_⟩
    rcases hop with hop | hop <;>
      simp only [respond, hcheck, hop, hread, respondWith, hdone, Except.mapError]

end LineBackingStore

end Rem6.Coherence
