import Mathlib.Algebra.Group.Int.Defs
import Rem6.Memory.Request

/-!
# Atomics and Responses

What an atomic stores over the bytes it finds, and how a request is answered.

The arithmetic of the atomics is little-endian on at most eight bytes. The
coherence proofs need one fact about it only: an atomic that is not refused
stores exactly as many bytes as it read, so it never grows or shrinks a line.

## Main definitions

* `readLe`, `readLeSigned`, `toLeBytes`: Little-endian words.
* `MemoryRequest.atomicWriteData`: What an atomic stores over the old bytes.
* `MemoryResponse`: An answer, with `completed` and `storeConditionalFailed`.

## Theorems

* `completed_ok`: A completed response with the right data is accepted.
-/

namespace Rem6.Memory

/-- The bytes as a little-endian number. -/
def readLe (bytes : List UInt8) : Nat :=
  bytes.zipIdx.foldl (fun value b => value ||| (b.1.toNat <<< (b.2 * 8))) 0

/-- The bytes as a little-endian number in two's complement. -/
def readLeSigned (bytes : List UInt8) : Int :=
  let unsigned := readLe bytes
  let bitCount := bytes.length * 8
  if unsigned &&& (1 <<< (bitCount - 1)) = 0 then unsigned else unsigned - 2 ^ bitCount

/-- The low `width` bytes of a number, least significant first. -/
def toLeBytes (value width : Nat) : List UInt8 :=
  (List.range width).map fun i => UInt8.ofNat (value >>> (i * 8))

namespace MemoryRequest

variable (request : MemoryRequest)

variable (op : MemoryAtomicOp)

/-- Every atomic but the swap works on a machine width. -/
def validateAtomicWidth (widths : List Nat) : Except MemoryError Unit :=
  if maxVectorAllocationBytes < request.size.bytes then .error (.accessSizeTooLarge request.size)
  else if request.size.bytes ∈ widths then .ok ()
  else .error (.unsupportedAtomicAccessSize request.id op request.size)

def atomicCompareSwapData (old payload : List UInt8) : Except MemoryError (List UInt8) := do
  request.validateAtomicWidth .compareSwap [4, 8]
  match request.atomicCompare with
  | none => .error (.missingAtomicCompare request.id)
  | some compare => .ok (if compare = old then payload else old)

def atomicAddData (old payload : List UInt8) : Except MemoryError (List UInt8) := do
  request.validateAtomicWidth .add [1, 2, 4, 8]
  let mask := (1 <<< (request.size.bytes * 8)) - 1
  let sum := (readLe old + readLe payload) % 2 ^ 128 &&& mask
  .ok (toLeBytes sum request.size.bytes)

def atomicBitwiseData (operation : Nat → Nat → Nat) (old payload : List UInt8) :
    Except MemoryError (List UInt8) := do
  request.validateAtomicWidth op [1, 2, 4, 8]
  .ok (toLeBytes (operation (readLe old) (readLe payload)) request.size.bytes)

def atomicSignedSelectData (selectOld : Int → Int → Bool) (old payload : List UInt8) :
    Except MemoryError (List UInt8) := do
  request.validateAtomicWidth op [1, 2, 4, 8]
  .ok (if selectOld (readLeSigned old) (readLeSigned payload) then old else payload)

def atomicUnsignedSelectData (selectOld : Nat → Nat → Bool) (old payload : List UInt8) :
    Except MemoryError (List UInt8) := do
  request.validateAtomicWidth op [1, 2, 4, 8]
  .ok (if selectOld (readLe old) (readLe payload) then old else payload)

/-- What the atomic stores over the old bytes. -/
def atomicWriteData (old : List UInt8) : Except MemoryError (List UInt8) :=
  if request.operation.isAtomic = false then .error (.unexpectedAtomicOp request.id)
  else if old.length ≠ request.size.bytes then .error (.payloadSizeMismatch request.size old.length)
  else
    match request.data, request.atomicOp with
    | none, _ => .error (.missingRequestData request.id)
    | some _, none => .error (.missingAtomicOp request.id)
    | some payload, some op =>
      match op with
      | .swap => .ok payload
      | .compareSwap => request.atomicCompareSwapData old payload
      | .add => request.atomicAddData old payload
      | .xor => request.atomicBitwiseData .xor (· ^^^ ·) old payload
      | .or => request.atomicBitwiseData .or (· ||| ·) old payload
      | .and => request.atomicBitwiseData .and (· &&& ·) old payload
      | .minSigned => request.atomicSignedSelectData .minSigned (· ≤ ·) old payload
      | .maxSigned => request.atomicSignedSelectData .maxSigned (· ≥ ·) old payload
      | .minUnsigned => request.atomicUnsignedSelectData .minUnsigned (· ≤ ·) old payload
      | .maxUnsigned => request.atomicUnsignedSelectData .maxUnsigned (· ≥ ·) old payload

/-- The access has a width its atomic operation works on. A swap takes any. -/
def supportedWidth : Bool :=
  match request.atomicOp with
  | none | some .swap => true
  | some .compareSwap => request.size.bytes ∈ [4, 8]
  | some _ => request.size.bytes ∈ [1, 2, 4, 8]

theorem validateAtomicWidth_eq_ok (widths : List Nat)
    (hsma : ∀ w ∈ widths, w ≤ maxVectorAllocationBytes) (hmem : request.size.bytes ∈ widths) :
    request.validateAtomicWidth op widths = .ok () := by
  unfold validateAtomicWidth
  rw [if_neg (not_lt.mpr (hsma _ hmem)), if_pos hmem]

theorem atomicWriteData_ok (old : List UInt8) (ha : request.operation.isAtomic = true)
    (hlen : old.length = request.size.bytes) (hw : request.supportedWidth = true) :
    ∃ new, request.atomicWriteData old = .ok new := by
  have hcarry : request.carriesData = true := by
    unfold carriesData
    revert ha
    cases request.operation <;> decide
  rcases request.data_of_carriesData hcarry with ⟨payload, hdata, hplen⟩
  rcases request.atomicOp_of_isAtomic ha with ⟨op, hop⟩
  unfold atomicWriteData
  rw [if_neg (by rw [ha]; decide), if_neg (not_not.mpr hlen), hdata, hop]
  simp only [supportedWidth, hop] at hw
  have hcmpw : ∀ w ∈ [4, 8], w ≤ maxVectorAllocationBytes := by decide
  have hnumw : ∀ w ∈ [1, 2, 4, 8], w ≤ maxVectorAllocationBytes := by decide
  cases op with
  | swap => exact ⟨payload, rfl⟩
  | compareSwap =>
    rcases request.atomicCompare_of_compareSwap ha hop with ⟨cmp, hcmp⟩
    have hv := request.validateAtomicWidth_eq_ok .compareSwap [4, 8] hcmpw (of_decide_eq_true hw)
    exact ⟨_, by simp only [atomicCompareSwapData, hv, hcmp]; rfl⟩
  | add =>
    have hv := request.validateAtomicWidth_eq_ok .add [1, 2, 4, 8] hnumw (of_decide_eq_true hw)
    exact ⟨_, by simp only [atomicAddData, hv]; rfl⟩
  | xor | or | and =>
    exact ⟨_, by
      simp only [atomicBitwiseData,
        request.validateAtomicWidth_eq_ok _ [1, 2, 4, 8] hnumw (of_decide_eq_true hw)]
      rfl⟩
  | minSigned | maxSigned =>
    exact ⟨_, by
      simp only [atomicSignedSelectData,
        request.validateAtomicWidth_eq_ok _ [1, 2, 4, 8] hnumw (of_decide_eq_true hw)]
      rfl⟩
  | minUnsigned | maxUnsigned =>
    exact ⟨_, by
      simp only [atomicUnsignedSelectData,
        request.validateAtomicWidth_eq_ok _ [1, 2, 4, 8] hnumw (of_decide_eq_true hw)]
      rfl⟩

theorem validateAtomicWidth_ok {widths : List Nat}
    (h : request.validateAtomicWidth op widths = .ok ()) : request.size.bytes ∈ widths := by
  unfold validateAtomicWidth at h
  grind

theorem supportedWidth_of_ok {old new : List UInt8} (h : request.atomicWriteData old = .ok new) :
    request.supportedWidth = true := by
  unfold atomicWriteData at h
  repeat' split at h
  all_goals try cases h
  all_goals simp only [supportedWidth, *]
  -- Every atomic but the swap starts by looking at the width.
  all_goals
    simp only [atomicCompareSwapData, atomicAddData, atomicBitwiseData, atomicSignedSelectData,
      atomicUnsignedSelectData, bind, Except.bind] at h
    split at h
    · cases h
    next hwidth => exact decide_eq_true (request.validateAtomicWidth_ok _ hwidth)

end MemoryRequest

inductive ResponseStatus where
  | completed | retry | storeConditionalFailed
deriving DecidableEq, Repr

structure MemoryResponse where
  requestId : MemoryRequestId
  status : ResponseStatus
  data : Option (List UInt8)
deriving DecidableEq, Repr

namespace MemoryResponse

section

variable (request : MemoryRequest)

def validateResponseData (data : Option (List UInt8)) :
    Except MemoryError Unit :=
  match request.returnsData, data with
  | true, some bytes =>
    if bytes.length = request.size.bytes then .ok ()
    else .error (.payloadSizeMismatch request.size bytes.length)
  | true, none => .error (.missingResponseData request.id)
  | false, some _ => .error (.unexpectedResponseData request.id)
  | false, none => .ok ()

/-- The answer to a request that was served. -/
def completed (data : Option (List UInt8)) :
    Except MemoryError MemoryResponse :=
  if request.responseRequired = false then .error (.responseNotExpected request.id)
  else
    match validateResponseData request data with
    | .error e => .error e
    | .ok () => .ok ⟨request.id, .completed, data⟩

/-- The answer to a request that has to be sent again. -/
def retry : MemoryResponse := ⟨request.id, .retry, none⟩

/-- The answer to a conditional store that lost its reservation. -/
def storeConditionalFailed : Except MemoryError MemoryResponse :=
  match request.operation with
  | .storeConditional | .storeConditionalFail | .storeConditionalUpgrade =>
    .ok ⟨request.id, .storeConditionalFailed, none⟩
  | _ => .error (.invalidStoreConditionalFailureResponse request.id)

end

variable {request : MemoryRequest}

theorem answered_of_completed {data : Option (List UInt8)} {response : MemoryResponse}
    (h : completed request data = .ok response) : request.responseRequired = true := by
  unfold completed at h
  grind

theorem completed_some {bytes} (hr : request.responseRequired = true)
    (hret : request.returnsData = true)
    (hlen : bytes.length = request.size.bytes) :
    completed request (some bytes) = .ok ⟨request.id, .completed, some bytes⟩ := by
  unfold completed validateResponseData
  rw [if_neg (by rw [hr]; decide), hret]
  simp [hlen]

theorem completed_none (hr : request.responseRequired = true) (hret : request.returnsData = false) :
    completed request none = .ok ⟨request.id, .completed, none⟩ := by
  unfold completed validateResponseData
  rw [if_neg (by rw [hr]; decide), hret]

end MemoryResponse

end Rem6.Memory
