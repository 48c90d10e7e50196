import Rem6.Cache.Controller

/-!
# Serving a Request on a Held Line

What `completeCpuRequest` does, said once. A controller that holds the line
either serves the request on its bytes, refuses a conditional store, or fails.
Served, it answers with the bytes the request reads and leaves the line as
`lineEffect` says; the state of the line, its identity and the pending miss are
never touched.

The two ways to fail matter to a run that goes on after an error. Normally a
failed request has changed nothing. The exception is a request that expects no
answer, such as a write-back handed in by a processor: its store happens, and
only the answer is refused.

The last section compares the effect with the flat memory: on a window of a
memory, `lineEffect` is the window of the served memory, except for a block
zero, which the controllers answer without zeroing anything.

## Main definitions

* `MemoryRequest.slice`: The bytes of a line a request reads.
* `lineEffect`: The line after a served request.
* `Completion`: What serving a request can lead to.

## Theorems

* `completeCpuRequest_sameLine`: Serving a request moves no line.
* `completeCpuRequest_served`: It leaves the line's bytes, or the request's.
* `completeCpuRequest_spec`: The cases of `completeCpuRequest`.
* `lineEffect_window`: The effect is that of the flat memory.
* `slice_window_eq_load`: So are the bytes read.
* `completeCpuRequest_of_servable`: When a request is answered for sure.
-/

namespace Rem6

namespace Memory

open Lib MemoryRequest

section

variable (request : MemoryRequest)

/-- The bytes of a line a request reads. -/
def MemoryRequest.slice (line : List UInt8) : List UInt8 :=
  (line.drop request.lineOffset).take request.size.bytes

/-- The line after a request was served on it by a controller. A block zero
    carries no data, so the controllers leave the line as it is. -/
def MemoryRequest.lineEffect (line : List UInt8) : List UInt8 :=
  if request.operation.isAtomic then
    match request.atomicWriteData (request.slice line) with
    | .ok new => overlay request.maskAt request.lineOffset new line
    | .error _ => line
  else
    match request.data with
    | some payload => overlay request.maskAt request.lineOffset payload line
    | none => line

/-- The reservations after a request was served: a load-locked adds one, a
    store ends those it touches. -/
def MemoryRequest.reservationEffect
    (reservations : AgentId → Option Nat) : AgentId → Option Nat :=
  if request.operation = .loadLocked then
    Function.update reservations request.id.agent (some request.llscReservationAddress)
  else if request.carriesData then
    fun agent => (reservations agent).filter fun reserved =>
      !request.overlapsLlscReservation reserved
  else reservations

/-- The data a served request is answered with. -/
def MemoryRequest.answer (line : List UInt8) : Option (List UInt8) :=
  if request.returnsData then some (request.slice line) else none

end

variable (request : MemoryRequest)

@[simp]
theorem MemoryRequest.lineEffect_length {line} :
    (request.lineEffect line).length = line.length := by
  unfold lineEffect
  split
  · cases request.atomicWriteData (request.slice line) with
    | ok new => exact overlay_length
    | error e => rfl
  · cases request.data with
    | some payload => exact overlay_length
    | none => rfl

theorem MemoryRequest.lineEffect_of_loads {line} (h : request.carriesData = false) :
    request.lineEffect line = line := by
  have hatomic : ¬ request.operation.isAtomic = true := by
    intro ha
    unfold carriesData at h
    revert ha h
    cases request.operation <;> decide
  unfold lineEffect
  rw [if_neg hatomic, request.data_of_not_carriesData h]

theorem MemoryRequest.slice_length (line : List UInt8)
    (h : request.lineOffset + request.size.bytes ≤ line.length) :
    (request.slice line).length = request.size.bytes := by
  rw [slice, List.length_take, List.length_drop]
  omega

/-! ## Comparison with the flat memory -/

variable {length : Nat}

/-- On a window of a memory, a request reads what it loads from the memory. -/
theorem MemoryRequest.slice_window_eq_load {memory : Nat → UInt8}
    (hfit : request.lineOffset + request.size.bytes ≤ length) :
    request.slice (window memory request.lineAddress length) = request.load memory := by
  rw [slice, slice_window hfit, ← request.start_eq]
  rfl

/-- On a window of a memory, the effect of a request other than a block zero is
    its effect on the memory. -/
theorem MemoryRequest.lineEffect_window {memory : Nat → UInt8}
    (hzero : request.operation ≠ .cacheBlockZero)
    (hfit : request.carriesData = true → request.lineOffset + request.size.bytes ≤ length) :
    request.lineEffect (window memory request.lineAddress length)
      = window (serve memory request) request.lineAddress length := by
  cases hc : request.carriesData with
  | false => rw [request.lineEffect_of_loads hc, serve_of_loads hzero hc]
  | true =>
    unfold lineEffect
    by_cases ha : request.operation.isAtomic = true
    · rw [if_pos ha, request.slice_window_eq_load (hfit hc)]
      cases hnew : request.atomicWriteData (request.load memory) with
      | ok new =>
        rw [serve_of_atomic ha hnew, request.start_eq]
        exact overlay_window _ _ _ _ _ _
      | error e => rw [serve_of_refused_atomic ha hnew]
    · obtain ⟨payload, hdata, -⟩ := request.data_of_carriesData hc
      rw [if_neg ha, hdata, serve_of_data (Bool.not_eq_true _ ▸ ha) hc hdata, request.start_eq]
      exact overlay_window _ _ _ _ _ _

end Memory

namespace Cache

open Memory Protocol Lib

namespace CacheController

variable {S E : Type} (c : CacheController S E) (request : MemoryRequest)

/-- The controller after it served a request on a line. -/
def afterServing (line : List UInt8) : CacheController S E :=
  { c with
    data := some (request.lineEffect line)
    lockedReservations := request.reservationEffect c.lockedReservations }

/-- What serving a request on a held line can lead to. -/
inductive Completion (line : List UInt8) :
    Except (CacheControllerError S E) MemoryResponse × CacheController S E → Prop where
  /-- The request was served. -/
  | served
      (hfit : request.carriesData = true ∨ request.returnsData = true →
        request.lineOffset + request.size.bytes ≤ c.layout.bytes)
      (hreserved : request.operation = .storeConditional → c.storeConditionalAllowed request = true)
      (hfail : request.operation ≠ .storeConditionalFail) :
      Completion line
        (.ok ⟨request.id, .completed, request.answer line⟩, c.afterServing request line)
  /-- A conditional store lost its reservation, or was told to fail. -/
  | conditionFailed
      (hop : request.operation = .storeConditional ∨ request.operation = .storeConditionalFail)
      (hreserved : request.operation = .storeConditional →
        c.storeConditionalAllowed request = false) :
      Completion line (.ok ⟨request.id, .storeConditionalFailed, none⟩, c)
  /-- The request was refused before it did anything: it leaves the line, it is
      an atomic of a width the operation does not have, or it expects no answer. -/
  | refused (e : CacheControllerError S E)
      (why : c.layout.bytes < request.lineOffset + request.size.bytes ∨
        (request.operation.isAtomic = true ∧ request.supportedWidth = false) ∨
        request.responseRequired = false) :
      Completion line (.error e, c)
  /-- A store that expects no answer happened, and the answer was refused. -/
  | unanswered (e : CacheControllerError S E) (hnone : request.responseRequired = false)
      (hcarry : request.carriesData = true)
      (hfit : request.lineOffset + request.size.bytes ≤ c.layout.bytes) :
      Completion line (.error e, c.afterServing request line)

variable {c request}

variable {line payload : List UInt8}

theorem readSlice_of_data (hd : c.data = some line) :
    c.readSlice request = if c.layout.bytes < request.lineOffset + request.size.bytes then
          .error (.accessOutsideLine c.line request.range.start request.size)
        else .ok (request.slice line) := by
  unfold readSlice checkedOffset
  by_cases hout : c.layout.bytes < request.lineOffset + request.size.bytes
  · rw [if_pos hout, if_pos hout]
    rfl
  · rw [if_neg hout, if_neg hout, hd]
    rfl

theorem applyStoreData_of_data (hd : c.data = some line) :
    c.applyStoreData request payload
      = if c.layout.bytes < request.lineOffset + request.size.bytes then
          .error (.accessOutsideLine c.line request.range.start request.size)
        else .ok
          { c with data := some (overlay request.maskAt request.lineOffset payload line) } := by
  unfold applyStoreData checkedOffset
  by_cases hout : c.layout.bytes < request.lineOffset + request.size.bytes
  · rw [if_pos hout, if_pos hout]
    rfl
  · rw [if_neg hout, if_neg hout, hd]
    rfl

/-- Serving a request that stores nothing and reserves nothing changes nothing. -/
theorem afterServing_of_loads (hd : c.data = some line) (hcarry : request.carriesData = false)
    (hop : request.operation ≠ .loadLocked) : c.afterServing request line = c := by
  have hres : request.reservationEffect c.lockedReservations = c.lockedReservations := by
    unfold MemoryRequest.reservationEffect
    rw [if_neg hop, if_neg (by rw [hcarry]; decide)]
  unfold afterServing
  rw [request.lineEffect_of_loads hcarry, hres, ← hd]

theorem afterServing_of_loadLocked (hd : c.data = some line)
    (hop : request.operation = .loadLocked) :
    c.afterServing request line = c.trackLoadLocked request := by
  have hcarry : request.carriesData = false := by
    unfold MemoryRequest.carriesData
    rw [hop]
    rfl
  unfold afterServing trackLoadLocked MemoryRequest.reservationEffect
  rw [request.lineEffect_of_loads hcarry, if_pos hop, ← hd]

/-- A store that is served writes its bytes and ends the reservations it
    touches. -/
theorem afterServing_of_store (hcarry : request.carriesData = true) :
    c.afterServing request line
      = { c with data := some (request.lineEffect line) }.clearLockedReservations request := by
  have hop : request.operation ≠ .loadLocked := by
    intro hop
    unfold MemoryRequest.carriesData at hcarry
    rw [hop] at hcarry
    cases hcarry
  unfold afterServing clearLockedReservations MemoryRequest.reservationEffect
  rw [if_neg hop, if_pos hcarry]

variable {data : Option (List UInt8)} {response : MemoryResponse}

theorem finishStore_completion (hcarry : request.carriesData = true)
    (hfit : request.lineOffset + request.size.bytes ≤ c.layout.bytes)
    (hreserved : request.operation = .storeConditional → c.storeConditionalAllowed request = true)
    (hfail : request.operation ≠ .storeConditionalFail) (hanswer : data = request.answer line)
    (hlen : line.length = c.layout.bytes) :
    Completion c request line
      (c.finishStore request (.ok { c with data := some (request.lineEffect line) }) data) := by
  have hstore : c.afterServing request line = _ := afterServing_of_store hcarry
  unfold finishStore
  simp only
  rw [← hstore]
  cases hr : request.responseRequired with
  | false =>
    have hdone : MemoryResponse.completed request data
        = .error (.responseNotExpected request.id) := by
      rw [MemoryResponse.completed, if_pos hr]
    rw [hdone]
    exact .unanswered _ hr hcarry hfit
  | true =>
    have hdone : MemoryResponse.completed request data
        = .ok ⟨request.id, .completed, request.answer line⟩ := by
      subst hanswer
      unfold MemoryRequest.answer
      cases hret : request.returnsData with
      | true =>
        rw [if_pos rfl]
        exact MemoryResponse.completed_some hr hret
          (request.slice_length line (by rw [hlen]; exact hfit))
      | false =>
        rw [if_neg (by decide)]
        exact MemoryResponse.completed_none hr hret
    rw [hdone]
    exact .served (fun _ => hfit) hreserved hfail

theorem readSlice_completion (hd : c.data = some line) (hlen : line.length = c.layout.bytes)
    (hret : request.returnsData = true) (hcarry : request.carriesData = false) :
    Completion c request line (match c.readSlice request with
        | .error e => (.error e, c)
        | .ok data =>
          (respond (MemoryResponse.completed request (some data)), c.afterServing request line)) ∨
    request.responseRequired = false := by
  cases hr : request.responseRequired with
  | false => exact .inr rfl
  | true =>
    refine .inl ?_
    rw [readSlice_of_data hd]
    by_cases hout : c.layout.bytes < request.lineOffset + request.size.bytes
    · rw [if_pos hout]
      exact .refused _ (.inl hout)
    · have hfit : request.lineOffset + request.size.bytes ≤ c.layout.bytes := by omega
      have hdone := MemoryResponse.completed_some hr hret
        (request.slice_length line (by rw [hlen]; exact hfit))
      have hanswer : some (request.slice line) = request.answer line := by
        unfold MemoryRequest.answer
        rw [if_pos hret]
      rw [if_neg hout]
      simp only [hdone, respond, Except.mapError]
      rw [hanswer]
      refine .served (fun _ => hfit) (fun hop => ?_) (fun hop => ?_) <;>
        · unfold MemoryRequest.carriesData at hcarry
          rw [hop] at hcarry
          cases hcarry

theorem applyStore_completion (hd : c.data = some line) (hlen : line.length = c.layout.bytes)
    (hcarry : request.carriesData = true) (hatomic : request.operation.isAtomic = false)
    (hret : request.returnsData = false)
    (hreserved : request.operation = .storeConditional → c.storeConditionalAllowed request = true)
    (hfail : request.operation ≠ .storeConditionalFail) :
    Completion c request line (c.finishStore request (c.applyStore request) none) := by
  obtain ⟨payload, hdata, -⟩ := request.data_of_carriesData hcarry
  have heffect : request.lineEffect line
      = overlay request.maskAt request.lineOffset payload line := by
    unfold MemoryRequest.lineEffect
    rw [if_neg (by rw [hatomic]; decide), hdata]
  unfold applyStore
  rw [hdata]
  simp only [applyStoreData_of_data hd]
  split
  next hout => exact .refused _ (.inl hout)
  · rw [← heffect]
    refine finishStore_completion hcarry (by omega) hreserved hfail ?_ hlen
    unfold MemoryRequest.answer
    rw [if_neg (by rw [hret]; decide)]

theorem atomic_completion (hd : c.data = some line) (hlen : line.length = c.layout.bytes)
    (hatomic : request.operation.isAtomic = true) :
    Completion c request line (c.completeCpuRequest request) := by
  have hcarry : request.carriesData = true := by
    unfold MemoryRequest.carriesData
    revert hatomic
    cases request.operation <;> decide
  unfold completeCpuRequest
  rw [if_pos hatomic, readSlice_of_data hd]
  by_cases hout : c.layout.bytes < request.lineOffset + request.size.bytes
  · rw [if_pos hout]
    exact .refused _ (.inl hout)
  · rw [if_neg hout]
    simp only
    cases hnew : request.atomicWriteData (request.slice line) with
    | error e =>
      refine .refused _ (.inr (.inl ⟨hatomic, Bool.not_eq_true _ ▸ fun hwid => ?_⟩))
      rcases request.atomicWriteData_ok _ hatomic (request.slice_length line (by omega)) hwid with
        ⟨new, hok⟩
      cases hnew.symm.trans hok
    | ok new =>
      have heffect : request.lineEffect line
          = overlay request.maskAt request.lineOffset new line := by
        unfold MemoryRequest.lineEffect
        rw [if_pos hatomic, hnew]
      simp only [applyStoreData_of_data hd]
      rw [if_neg hout, ← heffect]
      refine finishStore_completion hcarry (by omega) (fun hop => ?_) (fun hop => ?_) rfl hlen <;>
        · rw [hop] at hatomic
          cases hatomic

/-- What serving a request on a held line can lead to. -/
theorem completeCpuRequest_spec (hd : c.data = some line) (hlen : line.length = c.layout.bytes) :
    Completion c request line (c.completeCpuRequest request) := by
  by_cases hatomic : request.operation.isAtomic = true
  · exact atomic_completion hd hlen hatomic
  have hatomic' : request.operation.isAtomic = false := Bool.not_eq_true _ ▸ hatomic
  unfold completeCpuRequest
  rw [if_neg hatomic]
  by_cases hll : request.operation = .loadLocked
  · -- A load-locked always expects its answer.
    have hr : request.responseRequired = true := request.answered (by rw [hll]; rfl)
    rw [if_pos hll, ← afterServing_of_loadLocked hd hll]
    refine (readSlice_completion hd hlen ?_ ?_).resolve_right (by rw [hr]; decide)
    · unfold MemoryRequest.returnsData
      rw [hll]
      rfl
    · unfold MemoryRequest.carriesData
      rw [hll]
      rfl
  rw [if_neg hll]
  by_cases hsc : request.operation = .storeConditional
  · rw [if_pos hsc]
    split
    next hall =>
      refine applyStore_completion hd hlen ?_ hatomic' ?_ (fun _ => hall) ?_
      · unfold MemoryRequest.carriesData
        rw [hsc]
        rfl
      · unfold MemoryRequest.returnsData
        rw [hsc]
        rfl
      · rw [hsc]
        decide
    next hall =>
      rw [MemoryResponse.storeConditionalFailed, hsc]
      exact .conditionFailed (.inl hsc) (fun _ => Bool.not_eq_true _ ▸ hall)
  rw [if_neg hsc]
  by_cases hscf : request.operation = .storeConditionalFail
  · rw [if_pos hscf, MemoryResponse.storeConditionalFailed, hscf]
    exact .conditionFailed (.inr hscf) (fun h => absurd h hsc)
  rw [if_neg hscf]
  by_cases hcarry : request.carriesData = true
  · rw [if_pos hcarry]
    refine applyStore_completion hd hlen hcarry hatomic' ?_ (fun h => absurd h hsc) hscf
    unfold MemoryRequest.carriesData at hcarry
    unfold MemoryRequest.returnsData
    revert hcarry hatomic
    cases request.operation <;> decide
  have hcarry' : request.carriesData = false := Bool.not_eq_true _ ▸ hcarry
  have hsame := afterServing_of_loads hd hcarry' hll
  rw [if_neg hcarry]
  by_cases hret : request.returnsData = true
  · -- Every operation that returns data expects its answer.
    have hr : request.responseRequired = true := by
      refine request.answered ?_
      unfold MemoryRequest.returnsData at hret
      revert hret
      cases request.operation <;> decide
    rw [if_pos hret]
    have hdone := (readSlice_completion hd hlen hret hcarry').resolve_right (by rw [hr]; decide)
    rw [hsame] at hdone
    exact hdone
  · rw [if_neg hret]
    cases hr : request.responseRequired with
    | false =>
      rw [MemoryResponse.completed, if_pos hr]
      exact .refused _ (.inr (.inr hr))
    | true =>
      have hnone : request.answer line = none := by
        unfold MemoryRequest.answer
        rw [if_neg hret]
      rw [MemoryResponse.completed_none hr (Bool.not_eq_true _ ▸ hret)]
      have hserved : Completion c request line
          (.ok ⟨request.id, .completed, request.answer line⟩, c.afterServing request line) :=
        .served (fun h => absurd h (not_or.mpr ⟨hcarry, hret⟩)) (fun h => absurd h hsc) hscf
      rwa [hnone, hsame] at hserved

/-- A controller in the same state, of the same agent and for the same line. -/
structure SameLine (c d : CacheController S E) : Prop where
  state_eq : d.state = c.state
  agent_eq : d.agent = c.agent
  layout_eq : d.layout = c.layout
  line_eq : d.line = c.line

/-- The line is as it was, or as the request leaves it, and the pending miss is
    not touched. -/
structure Served (c : CacheController S E) (request : MemoryRequest) (d : CacheController S E) :
    Prop where
  pending_eq : d.pending = c.pending
  data_eq : d.data = c.data ∨ ∃ line, c.data = some line ∧ d.data = some (request.lineEffect line)

theorem applyStoreData_ok {d : CacheController S E}
    (h : c.applyStoreData request payload = .ok d) :
    SameLine c d ∧ d.pending = c.pending ∧ ∃ line, c.data = some line ∧
      d.data = some (overlay request.maskAt request.lineOffset payload line) := by
  unfold applyStoreData checkedOffset at h
  split at h
  · cases h
  · cases hd : c.data with
    | none => simp only [bind, Except.bind, hd, reduceCtorEq] at h
    | some line =>
      simp only [bind, Except.bind, hd, Except.ok.injEq] at h
      exact h ▸ ⟨⟨rfl, rfl, rfl, rfl⟩, rfl, line, rfl, rfl⟩

theorem finishStore_ok {stored answer}
    (hstr : ∀ d, stored = .ok d → SameLine c d ∧ Served c request d) :
    SameLine c (c.finishStore request stored answer).2 ∧
      Served c request (c.finishStore request stored answer).2 := by
  unfold finishStore
  cases stored with
  | error e => exact ⟨⟨rfl, rfl, rfl, rfl⟩, rfl, .inl rfl⟩
  | ok d =>
    obtain ⟨⟨hst, hag, hlayout, hline⟩, hpend, hdata⟩ := hstr d rfl
    exact ⟨⟨hst, hag, hlayout, hline⟩, hpend, hdata⟩

theorem completeCpuRequest_ok (c : CacheController S E) (request : MemoryRequest) :
    SameLine c (c.completeCpuRequest request).2 ∧
      Served c request (c.completeCpuRequest request).2 := by
  have hsame : SameLine c c ∧ Served c request c := ⟨⟨rfl, rfl, rfl, rfl⟩, rfl, .inl rfl⟩
  have hstore : request.operation.isAtomic = false →
      ∀ d, c.applyStore request = .ok d → SameLine c d ∧ Served c request d := by
    intro hatomic d hd
    unfold applyStore at hd
    split at hd
    next => cases hd
    next payload hdata =>
      obtain ⟨hline, hpend, line, hheld, hd⟩ := applyStoreData_ok hd
      refine ⟨hline, hpend, .inr ⟨line, hheld, ?_⟩⟩
      unfold MemoryRequest.lineEffect
      rw [if_neg (by rw [hatomic]; decide), hdata, hd]
  unfold completeCpuRequest
  -- One case per operation, in the order of the source.
  by_cases hatomic : request.operation.isAtomic = true
  · rw [if_pos hatomic]
    cases hread : c.readSlice request with
    | error e => exact hsame
    | ok old =>
      simp only
      cases hnew : request.atomicWriteData old with
      | error e => exact hsame
      | ok new =>
        refine finishStore_ok (fun d hd => ?_)
        obtain ⟨hline, hpend, line, hheld, hd⟩ := applyStoreData_ok hd
        refine ⟨hline, hpend, .inr ⟨line, hheld, ?_⟩⟩
        -- What was read is the slice of the line that was there.
        have hsli : old = request.slice line := by
          rw [readSlice_of_data hheld] at hread
          split at hread
          · cases hread
          · exact (Except.ok.inj hread).symm
        unfold MemoryRequest.lineEffect
        rw [if_pos hatomic, ← hsli, hnew, hd]
  · have hplace : request.operation.isAtomic = false := Bool.not_eq_true _ ▸ hatomic
    rw [if_neg hatomic]
    split
    · split
      · exact hsame
      · exact ⟨⟨rfl, rfl, rfl, rfl⟩, rfl, .inl rfl⟩
    split
    · split
      · exact finishStore_ok (hstore hplace)
      · exact hsame
    split
    · exact hsame
    split
    · exact finishStore_ok (hstore hplace)
    split
    · split <;> exact hsame
    · exact hsame

/-- Serving a request moves no line, whether or not it is held. -/
theorem completeCpuRequest_sameLine (c : CacheController S E) (request : MemoryRequest) :
    SameLine c (c.completeCpuRequest request).2 :=
  (completeCpuRequest_ok c request).1

/-- What serving a request does to a line, whatever its length. -/
theorem completeCpuRequest_served (c : CacheController S E) (request : MemoryRequest) :
    Served c request (c.completeCpuRequest request).2 :=
  (completeCpuRequest_ok c request).2

/-! ## Lines without data, and requests that cannot fail -/

theorem completeCpuRequest_dataless (hd : c.data = none) :
    (c.completeCpuRequest request).2 = c := by
  have hread : ∃ e, c.readSlice request = .error e := by
    unfold readSlice checkedOffset
    split <;> simp only [bind, Except.bind, hd] <;> exact ⟨_, rfl⟩
  have happly : ∀ payload, ∃ e, c.applyStoreData request payload = .error e := by
    intro payload
    unfold applyStoreData checkedOffset
    split <;> simp only [bind, Except.bind, hd] <;> exact ⟨_, rfl⟩
  have hstore : ∃ e, c.applyStore request = .error e := by
    unfold applyStore
    cases request.data with
    | none => exact ⟨_, rfl⟩
    | some payload => exact happly payload
  obtain ⟨eread, hread⟩ := hread
  obtain ⟨estore, hstore⟩ := hstore
  unfold completeCpuRequest
  simp only [hread, hstore, finishStore]
  repeat' split
  all_goals rfl

/-- What data there is, is a whole line. -/
def Sized (c : CacheController S E) : Prop :=
  ∀ data, c.data = some data → data.length = c.layout.bytes

theorem completeCpuRequest_sized (request : MemoryRequest) (h : Sized c) :
    Sized (c.completeCpuRequest request).2 := by
  cases hd : c.data with
  | none => rwa [completeCpuRequest_dataless hd]
  | some line =>
    have hserved : Sized (c.afterServing request line) := by
      intro data hdata
      unfold afterServing at hdata ⊢
      rw [← Option.some.inj hdata, MemoryRequest.lineEffect_length]
      exact h line hd
    have hspec : Completion c request line _ := completeCpuRequest_spec hd (h line hd)
    generalize c.completeCpuRequest request = oc at hspec ⊢
    cases hspec with
    | served | unanswered => exact hserved
    | conditionFailed | refused => exact h

/-- The request can be served on a line with this data. A conditional store without
    its reservation is answered at once. Any other request has to expect its answer
    and to stay inside the line, and an atomic has to have a width its operation works
    on. -/
def Servable (layout : CacheLineLayout) (data : Option (List UInt8)) (reserved : Bool)
    (request : MemoryRequest) : Prop :=
  request.operation = .storeConditionalFail ∨
  request.operation = .storeConditional ∧ reserved = false ∨
  request.responseRequired = true ∧
    (request.operation.isAtomic = true → request.supportedWidth = true) ∧
    (request.carriesData = true ∨ request.returnsData = true →
      data ≠ none ∧ request.lineOffset + request.size.bytes ≤ layout.bytes)

/-- Such a request is answered. -/
theorem completeCpuRequest_of_servable (hsized : Sized c)
    (h : Servable c.layout c.data (c.storeConditionalAllowed request) request) :
    ∃ response, (c.completeCpuRequest request).1 = .ok response := by
  rcases h with hop | ⟨hop, hreserved⟩ | ⟨hanswered, hwidth, hinside⟩
  · simp [completeCpuRequest, MemoryResponse.storeConditionalFailed, hop, respond, Except.mapError,
      MemoryOperation.isAtomic]
  · simp [completeCpuRequest, MemoryResponse.storeConditionalFailed, hop, hreserved, respond,
      Except.mapError, MemoryOperation.isAtomic]
  by_cases hbytes : request.carriesData = true ∨ request.returnsData = true
  · obtain ⟨hdata, hfit⟩ := hinside hbytes
    obtain ⟨line, hline⟩ := Option.ne_none_iff_exists'.mp hdata
    have hspec : Completion c request line _ := completeCpuRequest_spec hline (hsized line hline)
    generalize c.completeCpuRequest request = outcome at hspec ⊢
    cases hspec with
    | served | conditionFailed => exact ⟨_, rfl⟩
    | refused e why =>
      rcases why with hout | ⟨hatomic, hwid⟩ | hnone
      · omega
      · exact absurd (hwidth hatomic) (by rw [hwid]; decide)
      · exact absurd hanswered (by rw [hnone]; decide)
    | unanswered e hnone => exact absurd hanswered (by rw [hnone]; decide)
  · -- Neither bytes to store nor bytes to read: only the answer is left.
    have hcarry : request.carriesData = false := Bool.not_eq_true _ ▸ fun h => hbytes (.inl h)
    have hret : request.returnsData = false := Bool.not_eq_true _ ▸ fun h => hbytes (.inr h)
    have hop : request.operation.isAtomic = false ∧ request.operation ≠ .loadLocked ∧
        request.operation ≠ .storeConditional ∧ request.operation ≠ .storeConditionalFail := by
      unfold MemoryRequest.carriesData at hcarry
      unfold MemoryRequest.returnsData at hret
      revert hcarry hret
      cases request.operation <;> decide
    unfold completeCpuRequest
    rw [if_neg (by rw [hop.1]; decide), if_neg hop.2.1, if_neg hop.2.2.1, if_neg hop.2.2.2,
      if_neg (by rw [hcarry]; decide), if_neg (by rw [hret]; decide),
      MemoryResponse.completed_none hanswered hret]
    exact ⟨_, rfl⟩

theorem answered_of_respond
    (h : respond (S := S) (E := E) (MemoryResponse.completed request data) = .ok response) :
    request.responseRequired = true := by
  cases hdone : MemoryResponse.completed request data with
  | error e => simp [hdone, respond, Except.mapError] at h
  | ok => exact MemoryResponse.answered_of_completed hdone

theorem inside_of_readSlice {data : List UInt8} (h : c.readSlice request = .ok data) :
    c.data ≠ none ∧ request.lineOffset + request.size.bytes ≤ c.layout.bytes := by
  simp only [readSlice, checkedOffset, bind, Except.bind] at h
  grind

/-- A store that is answered was inside a line with data. -/
theorem inside_of_finishStore {payload : List UInt8} {answer : Option (List UInt8)}
   
    (h : (c.finishStore request (c.applyStoreData request payload) answer).1 = .ok response) :
    request.responseRequired = true ∧ c.data ≠ none ∧
      request.lineOffset + request.size.bytes ≤ c.layout.bytes := by
  cases hstore : c.applyStoreData request payload with
  | error e => simp [hstore, finishStore] at h
  | ok d =>
    refine ⟨answered_of_respond (by simpa [hstore, finishStore] using h), ?_⟩
    simp only [applyStoreData, checkedOffset, bind, Except.bind] at hstore
    grind

/-- Only such a request is answered. -/
theorem servable_of_completeCpuRequest
    (h : (c.completeCpuRequest request).1 = .ok response) :
    Servable c.layout c.data (c.storeConditionalAllowed request) request := by
  have hstore : ¬ request.operation.isAtomic = true →
      (c.finishStore request (c.applyStore request) none).1 = .ok response →
      Servable c.layout c.data (c.storeConditionalAllowed request) request := by
    intro hplain hstore
    unfold applyStore at hstore
    split at hstore
    · cases hstore
    · have hin := inside_of_finishStore hstore
      exact .inr (.inr ⟨hin.1, fun hatomic => absurd hatomic hplain, fun _ => hin.2⟩)
  have hload : ¬ request.operation.isAtomic = true → ∀ {data},
      c.readSlice request = .ok data →
      respond (S := S) (E := E) (MemoryResponse.completed request (some data)) = .ok response →
      Servable c.layout c.data (c.storeConditionalAllowed request) request :=
    fun hplain _ hread h => .inr (.inr ⟨answered_of_respond h,
      fun hatomic => absurd hatomic hplain, fun _ => inside_of_readSlice hread⟩)
  unfold completeCpuRequest at h
  split at h
  next hatomic =>
    split at h
    · cases h
    split at h
    · cases h
    next hnew =>
      have hin := inside_of_finishStore h
      exact .inr (.inr ⟨hin.1, fun _ => request.supportedWidth_of_ok hnew, fun _ => hin.2⟩)
  next hplain =>
    split at h
    · split at h
      · cases h
      next hread => exact hload hplain hread h
    split at h
    next hop =>
      split at h
      · exact hstore hplain h
      next hnot => exact .inr (.inl ⟨hop, Bool.not_eq_true _ ▸ hnot⟩)
    split at h
    next hop => exact .inl hop
    split at h
    · exact hstore hplain h
    next hcarries =>
      split at h
      · split at h
        · cases h
        next hread => exact hload hplain hread h
      next hreturns =>
        exact .inr (.inr ⟨answered_of_respond h, fun hatomic => absurd hatomic hplain,
          fun hbytes => absurd hbytes (not_or.mpr ⟨hcarries, hreturns⟩)⟩)

end CacheController

end Cache

end Rem6
