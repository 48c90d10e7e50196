import Rem6.Coherence.Soundness
import Rem6.Lib.Run

/-!
# Runs of a Line Harness

Whole runs: a fresh harness and a list of calls, failed ones included. What the
processors see of a run is the response each call leaves, and the history of a
run is the list of requests that were answered as completed.

The value that reads are compared with is `latest`: the flat memory that starts
with the backing line and has served the history, in the order of the calls.
`Holds` says that a copy is a window of that memory, and `data_step` is the step
lemma for it: a harness whose copies all are windows of the memory answers a
read from the memory, and its copies are then windows of the memory after the
request.

A block zero is left out. The controllers answer it as completed and zero
nothing, so it is the one request after which the copies are not windows of the
memory any more.

## Main definitions

* `Call`, `Harness.next`, `Harness.reply`: One call and what comes of it.
* `Harness.history`: The requests a run completed.
* `Harness.initialMemory`: The flat memory of a fresh harness.
* `Holds`, `AnyCopy`: A copy is a window of a memory; a copy is any.
* `Answerable`: Nothing about the call itself speaks against answering it.
* `byteRead`, `byteWrite`, `byteZero`: Calls on a line of one byte, for evaluated runs.

## Theorems

* `new_spec`: What a fresh harness is.
* `coherent_new`: A fresh harness follows every discipline its tables start in.
* `coherent_next`: A call that succeeds keeps a harness coherent.
* `data_step`: The step lemma for the bytes.
* `succeeds_of_answerable`: Over a backing line of its size a harness answers.
-/

namespace Rem6.Coherence

open Memory Protocol Cache Directory Lib Harness

variable {D S E : Type}

/-- A call to a harness: an agent hands in a request. -/
structure Call where
  agent : AgentId
  request : MemoryRequest

namespace Harness

variable [DecidableEq S] (R : HarnessRules D S E)

section

variable (h : Harness D S E)

/-- The harness after a call, whether or not the call succeeded. -/
def next (call : Call) : Harness D S E :=
  (h.submitCpuRequest R call.agent call.request).2

/-- The call returned without an error. -/
def Succeeds (call : Call) : Prop :=
  ∃ result, (h.submitCpuRequest R call.agent call.request).1 = .ok result

/-- The response the call left for its processor. -/
def reply (call : Call) : Option CpuResponseRecord :=
  (h.next R call).cpuResponses[h.cpuResponses.length]?

/-- The request of the call, if the call completed it. -/
def completedRequest (call : Call) : Option MemoryRequest :=
  if (h.reply R call).any fun record => record.status = .completed then some call.request else none

/-- The requests a run completed, in the order of the calls. -/
def history (calls : List Call) : List MemoryRequest :=
  observe (next R) (completedRequest R) h calls

end

end Harness

/-- The flat memory a fresh harness stands for: the bytes of its backing line. -/
def Harness.initialMemory (h : Harness D S E) (address : Nat) : UInt8 :=
  h.backing.data.getD (address - h.line) 0

/-- A copy is a window of a memory. -/
def Holds (layout : CacheLineLayout) (line : Nat) (memory : Nat → UInt8) : CopyPred :=
  fun _ data _ => data = window memory line layout.bytes

theorem holds_copyable {layout} {line : Nat} {mem : Nat → UInt8} :
    Copyable (Holds layout line mem) := by
  intro _ _ data _ h
  exact h

/-- Nothing is asked of a copy but its length. -/
def AnyCopy : CopyPred := fun _ _ _ => True

/-! ## The smallest line

A line of one byte at address zero, for runs that are evaluated. -/

def byteLayout : CacheLineLayout := ⟨1, ⟨0, rfl⟩, by decide⟩

def byteBacking (value : UInt8) : LineBackingStore := ⟨byteLayout, 0, [value], fun _ => none, rfl⟩

def byteRange : AddressRange := ⟨0, ⟨1, Nat.one_pos⟩, by decide⟩

/-- An agent reads the byte. -/
def byteRead (agent : AgentId) : Call where
  agent
  request :=
    { id := ⟨agent, 0⟩, operation := .readShared, range := byteRange, lineLayout := byteLayout
      valid := rfl, answered := fun h => h }

/-- An agent writes the byte. -/
def byteWrite (agent : AgentId) (value : UInt8) : Call where
  agent
  request :=
    { id := ⟨agent, 0⟩, operation := .write, range := byteRange, lineLayout := byteLayout
      data := some [value], byteMask := some fullMask
      valid := rfl, answered := fun h => h }

/-- An agent zeroes the line. -/
def byteZero (agent : AgentId) : Call where
  agent
  request :=
    { id := ⟨agent, 0⟩, operation := .cacheBlockZero, range := byteRange, lineLayout := byteLayout
      valid := rfl, answered := fun h => h }

/-! ## A fresh harness -/

theorem addCaches_spec {layout ags line} {R : HarnessRules D S E} :
    ∀ (caches caches' : AgentId → Option (CacheController S E)),
      (∀ ag c, caches ag = some c → c = CacheController.new R.protocol ag layout line) →
      Harness.addCaches R layout line caches ags = .ok caches' →
      ∀ ag c, caches' ag = some c → c = CacheController.new R.protocol ag layout line := by
  induction ags with
  | nil =>
    intro caches caches' hnew hrun
    rw [addCaches] at hrun
    cases hrun
    exact hnew
  | cons a rest ih =>
    intro caches caches' hnew hrun
    rw [addCaches] at hrun
    split at hrun
    · cases hrun
    · refine ih _ caches' (fun ag c hc => ?_) hrun
      by_cases hag : ag = a
      · subst hag
        rw [Function.update_self, Option.some.injEq] at hc
        exact hc.symm
      · rw [Function.update_of_ne hag] at hc
        exact hnew ag c hc

/-- What a fresh harness is. -/
structure IsNew (R : HarnessRules D S E) (layout : CacheLineLayout) (lineAddress : Nat)
    (backing : LineBackingStore) (h : Harness D S E) : Prop where
  line_eq : h.line = layout.lineAddress lineAddress
  backing_eq : h.backing = backing
  backing_line : backing.lineAddress = h.line
  directory_eq : ∀ line, h.directory line = R.directory.empty
  responses_eq : h.cpuResponses = []
  caches_new : ∀ agent c, h.caches agent = some c →
    c = CacheController.new R.protocol agent layout h.line

theorem new_spec {layout lineAddress ags h backing} {R : HarnessRules D S E}
    (hnew : Harness.new R layout lineAddress backing ags = .ok h) :
    IsNew R layout lineAddress backing h := by
  unfold new at hnew
  by_cases hline : backing.lineAddress = layout.lineAddress lineAddress
  · simp only [hline, ne_eq, not_true_eq_false, if_false] at hnew
    cases hadd : addCaches R layout (layout.lineAddress lineAddress) (fun _ => none) ags with
    | error e => simp only [hadd, reduceCtorEq] at hnew
    | ok caches =>
      simp only [hadd] at hnew
      cases hnew
      refine ⟨rfl, rfl, hline, fun _ => rfl, rfl, ?_⟩
      exact addCaches_spec _ caches
        (fun _ _ h => absurd h (by simp)) hadd
  · simp only [ne_eq, hline, not_false_eq_true, if_true, reduceCtorEq] at hnew

variable {R : HarnessRules D S E} {Δ : Discipline D S} {layout : CacheLineLayout}
  {lineAddress : Nat} {backing : LineBackingStore} {h : Harness D S E}

variable {Good : CopyPred}

section

variable (hnew : IsNew R layout lineAddress backing h)
include hnew

theorem IsNew.states_eq
    (hinv : R.protocol.isStable R.protocol.invalid = true) :
    h.states R.protocol = fun _ => R.protocol.invalid := by
  funext agent
  unfold states
  cases hc : h.caches agent with
  | none => rfl
  | some c =>
    rw [hnew.caches_new agent c hc]
    exact settled_of_stable hinv

/-- A fresh harness follows every discipline that fits an empty record, if the
    backing line is good. -/
theorem coherent_new
    (hinv : R.protocol.isStable R.protocol.invalid = true)
    (hagree : Δ.agree R.directory.empty fun _ => R.protocol.invalid)
    (hgood : layout.bytes ≤ backing.layout.bytes → Backed layout Good backing) :
    Coherent R Δ layout h.line backing.layout.bytes Good h := by
  have hsts := hnew.states_eq hinv
  have haligned : layout.lineAddress h.line = h.line := by
    rw [hnew.line_eq, CacheLineLayout.lineAddress_lineAddress]
  refine ⟨rfl, haligned, ?_, by rw [hnew.backing_eq], ?_, ?_, ?_, ?_, ?_⟩
  · rw [hnew.backing_eq, hnew.backing_line]
  · intro ag c hc
    have hcnew := hnew.caches_new ag c hc
    subst hcnew
    refine ⟨rfl, rfl, haligned, fun hheld => ?_⟩
    exact absurd (settled_of_stable hinv) hheld
  · intro _ ag c hc
    rwa [hnew.caches_new ag c hc]
  · intro _ ag
    rw [hsts]
  · rwa [hnew.directory_eq, hsts]
  · intro _ hsize
    rw [hnew.backing_eq]
    exact hgood hsize

theorem IsNew.backing_window {length}
    (hlen : length ≤ backing.layout.bytes) :
    backing.data.take length = window h.initialMemory h.line length := by
  have hfull := backing.full
  refine List.ext_getElem? (fun k => ?_)
  rw [window_getElem?]
  by_cases hk : k < length
  · have hlt : k < backing.data.length := by omega
    rw [if_pos hk, List.getElem?_take_of_lt hk, initialMemory, hnew.backing_eq,
      Nat.add_sub_cancel_left, List.getD_eq_getElem?_getD, List.getElem?_eq_getElem hlt]
    rfl
  · rw [if_neg hk]
    refine List.getElem?_eq_none_iff.mpr ?_
    rw [List.length_take]
    omega

/-! ## The step lemma for the bytes -/

end

section Data

variable [DecidableEq S] {line size : Nat} {call : Call} {init : Nat → UInt8}
  {seen : List MemoryRequest}

theorem Harness.reply_of_append {record}
    (hresp : (h.next R call).cpuResponses = h.cpuResponses ++ [record]) :
    h.reply R call = some record := by
  rw [reply, hresp, List.getElem?_concat_length]

theorem Harness.reply_of_same (hresp : (h.next R call).cpuResponses = h.cpuResponses) :
    h.reply R call = none := by
  rw [reply, hresp]
  exact List.getElem?_eq_none_iff.mpr le_rfl

theorem Harness.completedRequest_of_completed {record} (hrep : h.reply R call = some record)
    (hstatus : record.status = .completed) : h.completedRequest R call = some call.request := by
  rw [completedRequest, hrep, Option.any_some, if_pos (decide_eq_true hstatus)]

theorem Harness.completedRequest_of_failed {record} (hrep : h.reply R call = some record)
    (hstatus : record.status ≠ .completed) : h.completedRequest R call = none := by
  rw [completedRequest, hrep, Option.any_some, if_neg (by rw [decide_eq_true_eq]; exact hstatus)]

theorem Harness.completedRequest_of_none (hrep : h.reply R call = none) :
    h.completedRequest R call = none := by
  rw [completedRequest, hrep, Option.any_none, if_neg (by decide)]

/-- Serving a request on a window of a memory leaves a window of the memory the
    request was served on. -/
theorem serves_holds {ag req} {mem : Nat → UInt8}
    (hline : req.lineAddress = line) (hzero : req.operation ≠ .cacheBlockZero) :
    Serves layout ag req (Holds layout line mem) (Holds layout line (serve mem req)) where
  own := by
    intro data resvs _ hdata hfit
    unfold Holds at hdata ⊢
    rw [hdata, ← hline]
    exact req.lineEffect_window hzero hfit
  others := by
    intro hread b data resvs hdata
    have hcarry : req.carriesData = false := by
      unfold MemoryRequest.carriesData
      revert hread
      cases req.operation <;> decide
    unfold Holds at hdata ⊢
    rw [hdata, serve_of_loads hzero hcarry]

/-- A call that succeeds keeps a harness coherent, if what is good does not
    depend on the requests served. -/
theorem coherent_next (sound : Sound R Δ) (hcopyable : Copyable Good)
    (hcoh : Coherent R Δ layout line size Good h)
    (hall : call.request.operation ≠ .noAccess → Δ.allowed (h.directory line) call.agent
      (CacheController.isCpuRead call.request.operation))
    (hfresh : (∃ c, h.caches call.agent = some c ∧ c.state = R.protocol.invalid) →
      Δ.unowned (h.directory line) → layout.bytes ≤ size → Backed layout Good h.backing)
    (hserves : Serves layout call.agent call.request Good Good) (hok : h.Succeeds R call) :
    Coherent R Δ layout line size Good (h.next R call) := by
  obtain ⟨res, hok⟩ := hok
  have hout := submit_outcome sound hcopyable hcoh call.agent call.request hall hfresh
  have hnext : h.next R call = (h.submitCpuRequest R call.agent call.request).2 := rfl
  rw [hnext]
  generalize h.submitCpuRequest R call.agent call.request = oc at hout hok
  cases hout with
  | served res h' kind data resvs hline hlen hgood hfit hreserved hcoherent =>
      exact hcoherent Good hserves
  | idled res h' hop hcoherent | conditionFailed res h' kind hop hcoherent => exact hcoherent
  | refused | unanswered | starved | unwritten => cases hok

/-- A read was answered from a memory. -/
def AnsweredFrom (memory : Nat → UInt8) (request : MemoryRequest)
    (reply : Option CpuResponseRecord) : Prop :=
  ∀ record, reply = some record → record.status = .completed → request.returnsData = true →
    record.data = some (request.load memory)

/-- The harness can fail half-way: its backing line is too short to be read, or
    of another size and written back to. -/
def CanBreak (R : HarnessRules D S E) (layout : CacheLineLayout) (size : Nat) : Prop :=
  size < layout.bytes ∨ (size ≠ layout.bytes ∧ ∃ decision, R.writesBack decision = true)

/-- The step lemma for the bytes. -/
theorem data_step (sound : Sound R Δ)
    (hcoh : Coherent R Δ layout line size (Holds layout line (latest init seen)) h)
    (hall : call.request.operation ≠ .noAccess → Δ.allowed (h.directory line) call.agent
      (CacheController.isCpuRead call.request.operation))
    (hfresh : (∃ c, h.caches call.agent = some c ∧ c.state = R.protocol.invalid) →
      Δ.unowned (h.directory line) → layout.bytes ≤ size →
      h.backing.data.take layout.bytes = window (latest init seen) line layout.bytes)
    (hzero : call.request.operation ≠ .cacheBlockZero)
    (hanswer : h.Succeeds R call ∨ call.request.responseRequired = true) :
    (¬ h.Succeeds R call ∧ h.reply R call = none ∧ CanBreak R layout size) ∨
    (Coherent R Δ layout line size
        (Holds layout line (latest init (seen ++ (h.completedRequest R call).toList)))
        (h.next R call) ∧
      AnsweredFrom (latest init seen) call.request (h.reply R call)) := by
  have hout := submit_outcome sound (holds_copyable) hcoh call.agent call.request
    hall (fun hinv hunowned hlong _ => hfresh hinv hunowned hlong)
  generalize hrun : h.submitCpuRequest R call.agent call.request = oc at hout
  have hnext : h.next R call = oc.2 := congrArg Prod.snd hrun
  cases hout with
  | served res h' kind data resvs hline hlen hgood hfit hreserved hcoherent hresp =>
    have hrep : h.reply R call = _ := reply_of_append (by rw [hnext]; exact hresp)
    refine .inr ⟨?_, ?_⟩
    · rw [hnext, completedRequest_of_completed hrep rfl, Option.toList_some,
        latest_append_singleton]
      exact hcoherent _ (serves_holds hline hzero)
    · intro record hrecord _ hret
      rw [hrep] at hrecord
      cases hrecord
      -- The copy is a window of the memory, so the slice read is what the memory holds.
      unfold Holds at hgood
      simp only [MemoryRequest.answer, hret, if_true]
      rw [hgood, ← hline, call.request.slice_window_eq_load (hfit (.inr hret))]
  | idled res h' hop hcoherent hresp =>
    have hrep : h.reply R call = _ := reply_of_append (by rw [hnext]; exact hresp)
    have hcarry : call.request.carriesData = false := by
      unfold MemoryRequest.carriesData
      rw [hop]
      rfl
    refine .inr ⟨?_, ?_⟩
    · rw [hnext, completedRequest_of_completed hrep rfl, Option.toList_some,
        latest_append_singleton, serve_of_loads hzero hcarry]
      exact hcoherent
    · intro record _ _ hret
      unfold MemoryRequest.returnsData at hret
      rw [hop] at hret
      cases hret
  | conditionFailed res h' kind hop hcoherent hresp =>
    have hrep : h.reply R call = _ := reply_of_append (by rw [hnext]; exact hresp)
    refine .inr ⟨?_, ?_⟩
    · rwa [hnext, completedRequest_of_failed hrep
        (by simp), Option.toList_none,
        List.append_nil]
    · intro record hrecord hstatus _
      rw [hrep] at hrecord
      cases hrecord
      cases hstatus
  | refused e h' why hcoherent hresp =>
    have hrep : h.reply R call = none := reply_of_same (by rw [hnext]; exact hresp)
    refine .inr ⟨?_, ?_⟩
    · rwa [hnext, completedRequest_of_none hrep, Option.toList_none, List.append_nil]
    · intro record hrecord
      cases hrep.symm.trans hrecord
  | unanswered e h' hnone =>
    rcases hanswer with ⟨res, hok⟩ | hexp
    · simp [hrun] at hok
    · cases hnone.symm.trans hexp
  | starved e h' hshort hresp =>
    refine .inl ⟨?_, reply_of_same (by rw [hnext]; exact hresp), .inl hshort⟩
    rintro ⟨res, hok⟩
    simp [hrun] at hok
  | unwritten e c waiting hsize hwaiting hst hag hlayout hline granted hwrites =>
    refine .inl ⟨?_, reply_of_same (by rw [hnext]; rfl), .inr ⟨hsize, _,
      (granted.writesBack_eq 0 ⟨0, 0⟩).trans hwrites⟩⟩
    rintro ⟨res, hok⟩
    simp [hrun] at hok

/-- The call comes from an agent of the harness, for its line and inside it, and
    an atomic has a width that is implemented. -/
structure Answerable (layout : CacheLineLayout) (h : Harness D S E) (call : Call) : Prop where
  known : ∃ c, h.caches call.agent = some c
  line_eq : call.request.lineAddress = h.line
  fits : call.request.lineOffset + call.request.size.bytes ≤ layout.bytes
  width : call.request.operation.isAtomic = true → call.request.supportedWidth = true

/-- Over a backing line of its size, and below the top of the address space, a
    coherent harness answers every such call that expects an answer. -/
theorem succeeds_of_answerable (sound : Sound R Δ) (hcopyable : Copyable Good)
    (hcoh : Coherent R Δ layout line size Good h) (hsize : size = layout.bytes)
    (htop : line + layout.bytes < wordLimit)
    (hall : call.request.operation ≠ .noAccess → Δ.allowed (h.directory line) call.agent
      (CacheController.isCpuRead call.request.operation))
    (hfresh : (∃ c, h.caches call.agent = some c ∧ c.state = R.protocol.invalid) →
      Δ.unowned (h.directory line) → layout.bytes ≤ size → Backed layout Good h.backing)
    (hcall : Answerable layout h call) (hexp : call.request.responseRequired = true) :
    h.Succeeds R call := by
  have hout := submit_outcome sound hcopyable hcoh call.agent call.request hall hfresh
  unfold Succeeds
  generalize h.submitCpuRequest R call.agent call.request = oc at hout
  cases hout with
  | served res | idled res | conditionFailed res => exact ⟨res, rfl⟩
  | refused e h' why =>
    -- Each reason is one of the conditions on the call.
    cases why with
    | unknownAgent hnone =>
      obtain ⟨c, hc⟩ := hcall.known
      cases hnone.symm.trans hc
    | wrongLine hline => exact absurd (hcall.line_eq.trans hcoh.line_eq) hline
    | topmost h => omega
    | unexpected hnone =>
      cases hnone.symm.trans hexp
    | outside hout =>
      have hfits := hcall.fits
      omega
    | atomicWidth hatomic hwid =>
      have hsup := hcall.width hatomic
      cases hwid.symm.trans hsup
  | unanswered e h' hnone =>
    cases hnone.symm.trans hexp
  | starved => omega
  | unwritten e c waiting hoth => exact absurd hsize hoth

end Data

end Rem6.Coherence
