import Rem6.Cache.Guards

/-!
# Dirty Lines

A bank never drops dirty data on its own. A line that is modified before a call
is modified after it, with the bytes it had or with those that the request of
the call leaves, or its bytes are queued as a write-back. This holds of calls
that fail midway as well, and of every replacement policy. Only a snoop takes
dirty data away, and a snoop is not the bank's own doing.

## Main definitions

* `Accepts`: What a request of the processor does to dirty lines.
* `Kept`: What becomes of a dirty line in a call.

## Theorems

* `acceptCpuRequest_accepts`: A request stores on its own line only.
* `run_fillsData`: Every miss waits for data, over every run.
* `dirty_kept`: Dirty data is never dropped.
-/

namespace Rem6.Cache

open Memory Protocol Lib Fallible CacheController

namespace MsiCacheBank

variable {δ τ κ ε α β : Type} {bank after : MsiCacheBank δ τ κ}

section Steps

variable (B : Backends δ τ κ ε)

/-! ## Cacheable requests -/

/-- What a call with a request of the processor does to dirty lines: the line of
    the request may get the bytes that the request leaves. -/
structure Accepts (request : MemoryRequest) (bank after : MsiCacheBank δ τ κ) : Prop where
  fills : bank.FillsData → after.FillsData
  dirty : bank.FillsData → ∀ line data, bank.DirtyAt line data →
    after.DirtyAt line data ∨ after.Held line data ∨
      request.lineAddress = line ∧ after.DirtyAt line (request.lineEffect data)

theorem Guards.accepts (req : MemoryRequest) (h : Guards (fun _ => False) bank after) :
    Accepts req bank after where
  fills := h.fills
  dirty hfills line data hdirty := (h.dirty hfills line id data hdirty).imp_right .inl

theorem Accepts.of_same {req last} (h : Accepts req bank after) (hsame : Same after last) :
    Accepts req bank last where
  fills hfills := by
    unfold FillsData
    rw [hsame.lines]
    exact h.fills hfills
  dirty hfills line data hdirty := by
    unfold DirtyAt Held MsiCacheBank.queued
    rw [hsame.lines, hsame.writeQueue]
    exact h.dirty hfills line data hdirty

theorem acceptAtController_line {req} :
    Accepts req bank (bank.setLine req.lineAddress
      (some (CacheController.acceptCpuRequest msi
        { bank.controllerAt req.lineAddress with nextSequence := bank.nextSequence }
        req).2)) := by
  have hawaits : bank.FillsData → (bank.controllerAt req.lineAddress).AwaitsData := by
    intro hfills
    unfold controllerAt
    cases hc : bank.lines req.lineAddress with
    | none => exact awaitsData_of_none rfl
    | some c => exact hfills _ c hc
  constructor
  · intro hfills line d hd
    by_cases heq : line = req.lineAddress
    · rw [heq, lines_setLine_self] at hd
      cases hd
      exact acceptCpuRequest_awaitsData (hawaits hfills)
    · rw [lines_setLine_of_ne _ heq] at hd
      exact hfills line d hd
  · rintro - line data ⟨d, hd, hst, hdata⟩
    by_cases heq : line = req.lineAddress
    · subst heq
      have hat : bank.controllerAt req.lineAddress = d := by
        unfold controllerAt
        rw [hd, Option.getD_some]
      rw [hat]
      obtain ⟨hmod, hkept | ⟨-, heffect⟩⟩ := acceptCpuRequest_dirty
        (c := { d with nextSequence := bank.nextSequence }) req hst hdata
      · exact .inl ⟨_, lines_setLine_self .., hmod, hkept⟩
      · exact .inr (.inr ⟨rfl, _, lines_setLine_self .., hmod, heffect⟩)
    · exact .inl ⟨d, by rw [lines_setLine_of_ne _ heq, hd], hst, hdata⟩

/-- After the controller was asked, neither the lines nor the queue are touched. -/
theorem acceptAtController_accepts {req qos} : Accepts req bank
    (acceptAtController B qos req bank).2 := by
  refine (acceptAtController_line).of_same ?_
  unfold acceptAtController
  -- the steps behind the one that sets the line
  refine check_bind_within ⟨rfl, rfl⟩ fun res _ => ?_
  refine bind_same ⟨rfl, rfl⟩ fun _ next _ => ?_
  cases res.downstreamRequest with
  | none =>
    simp only
    split
    · exact bind_same (touchReplacementLine_same B _ next) fun _ _ _ => ⟨rfl, rfl⟩
    · exact ⟨rfl, rfl⟩
  | some downstream =>
    simp only
    split
    · exact bind_same (onMshr_same _ next) fun _ _ _ => ⟨rfl, rfl⟩
    · exact ⟨rfl, rfl⟩

theorem acceptCacheableRequest_accepts {req qos} :
    Accepts req bank (acceptCacheableRequest B qos req bank).2 := by
  have hrefl : Accepts req bank bank := (Guards.refl bank).accepts req
  unfold acceptCacheableRequest
  show Accepts req bank ((if _ then _ else _ : Bank δ τ κ ε MsiCacheBankResult) bank).2
  split
  · exact hrefl
  split
  · refine (check_guards fun _ _ => ?_).accepts req
    exact bind_guards (enqueue_guards ..) fun _ _ _ => .refl _
  split
  · exact (bind_guards (onMshr_same _ bank).guards fun _ _ _ => .refl _).accepts req
  split
  · cases bank.mshr with
    | none => exact hrefl
    | some q => exact check_bind_within hrefl fun _ _ => acceptAtController_accepts B
  · exact acceptAtController_accepts B

theorem acceptCpuRequest_accepts (qos : Option MshrQosClass) (req : MemoryRequest)
    (bank : MsiCacheBank δ τ κ) : Accepts req bank (acceptCpuRequest B qos req bank).2 := by
  have hrefl : Accepts req bank bank := (Guards.refl bank).accepts req
  unfold acceptCpuRequest
  refine check_bind_within (R := Accepts req) hrefl fun _ _ => ?_
  split
  · exact hrefl
  show Accepts req bank ((if _ then _ else _ : Bank δ τ κ ε MsiCacheBankResult) bank).2
  split
  · exact hrefl
  split
  · split
    · exact hrefl
    split
    · exact (acceptUncacheableWriteRequest_guards B).accepts req
    · exact (acceptUncacheableRequest_guards B).accepts req
  · refine check_bind_within hrefl fun res _ => ?_
    cases res with
    | some res => exact hrefl
    | none => exact acceptCacheableRequest_accepts B

/-! ## Runs -/

def SameLines (bank after : MsiCacheBank δ τ κ) : Prop := after.lines = bank.lines

theorem issueWriteQueue_sameLines {tick} :
    SameLines bank (issueWriteQueue (ε := ε) tick bank).2 := by
  have hissue : ∀ issue : CacheWriteQueueIssue, ∀ bank : MsiCacheBank δ τ κ,
      SameLines bank (attachPostIssueUncacheableRead (ε := ε) issue bank).2 := by
    intro issue bank
    unfold attachPostIssueUncacheableRead
    show SameLines bank ((if _ then _ else _ : Bank δ τ κ ε CacheWriteQueueIssue) bank).2
    split
    · rfl
    · cases bank.blockedFill issue with
      | none | some blocked => rfl
  unfold issueWriteQueue
  refine bind_within (R := SameLines) (fun h h' => h'.trans h) ?_ fun issue next _ => ?_
  · unfold onWriteQueue
    split <;> rfl
  · cases issue with
    | none => rfl
    | some issue =>
      refine bind_within (R := SameLines) (fun h h' => h'.trans h) (hissue issue next)
        fun issue last _ => ?_
      split <;> rfl

theorem enqueueWrite_guards {exempt} (req : MemoryRequest) (secure : Bool) (readyTick : Nat)
    (uncacheable useReserve : Bool) (bank : MsiCacheBank δ τ κ) :
    Guards exempt bank
      (enqueueWrite (ε := ε) req secure readyTick uncacheable useReserve bank).2 := by
  unfold enqueueWrite
  exact get_guards (check_guards fun _ _ => enqueue_guards ..)

theorem acceptUncacheableWriteResponse_same {resp} :
    Same bank (acceptUncacheableWriteResponse (ε := ε) resp bank).2 := by
  unfold acceptUncacheableWriteResponse
  rw [bind_of_ok (get_apply)]
  cases Assoc.find bank.inflightUncacheableWrites resp.requestId with
  | none => exact ⟨rfl, rfl⟩
  | some orig => exact check_bind_within ⟨rfl, rfl⟩ fun _ _ => ⟨rfl, rfl⟩

theorem fillsData_of_lines_eq (h : after.lines = bank.lines) (hfills : bank.FillsData) :
    after.FillsData := by
  unfold FillsData
  rwa [h]

theorem acceptSnoop_fillsData {adr ev} (hfills : bank.FillsData) :
    (acceptSnoop (ε := ε) adr ev bank).2.FillsData := by
  unfold acceptSnoop
  rw [bind_of_ok (get_apply)]
  cases hc : bank.lines (bank.layout.lineAddress adr) with
  | none => exact hfills
  | some c =>
    have hawaits := acceptSnoop_awaitsData ev (hfills _ c hc)
    have hset : (bank.setLine (bank.layout.lineAddress adr)
        (some (c.acceptSnoop msi ev).2)).FillsData := by
      intro line d hd
      by_cases heq : line = bank.layout.lineAddress adr
      · rw [heq, lines_setLine_self] at hd
        exact Option.some.inj hd ▸ hawaits
      · rw [lines_setLine_of_ne _ heq] at hd
        exact hfills line d hd
    show ((check _ >>= _ : Bank δ τ κ ε MsiCacheBankResult) _).2.FillsData
    exact check_bind_within (R := fun _ => FillsData) hset fun _ _ => hset

end Steps

variable (B : Backends δ τ κ ε)

theorem next_fillsData {call} (hfills : bank.FillsData) : (next B bank call).FillsData := by
  cases call with
  | acceptCpuRequest qos req =>
    rw [next, perform, bind_pure_snd]
    exact (acceptCpuRequest_accepts B qos req bank).fills hfills
  | acceptFill resp bits =>
    rw [next, perform, bind_pure_snd]
    have hguards : Guards (fun _ => False) bank (acceptFill B resp bits bank).2 :=
      acceptFill_guards B hfills
    exact hguards.fills hfills
  | acceptSnoop adr ev =>
    rw [next, perform, bind_pure_snd]
    exact acceptSnoop_fillsData hfills
  | issueWriteQueue tick =>
    rw [next, perform, bind_pure_snd]
    exact fillsData_of_lines_eq (issueWriteQueue_sameLines) hfills
  | enqueueWrite req secure readyTick uncacheable useReserve =>
    rw [next, perform, bind_pure_snd]
    have hguards : Guards (fun _ => False) bank (enqueueWrite (ε := ε) req secure readyTick
      uncacheable useReserve bank).2 := enqueueWrite_guards ..
    exact hguards.fills hfills
  | acceptUncacheableWriteResponse resp =>
    rw [next, perform, bind_pure_snd]
    exact fillsData_of_lines_eq (acceptUncacheableWriteResponse_same).lines hfills

theorem run_fillsData (calls : List BankCall) (hfills : bank.FillsData) :
    (calls.foldl (next B) bank).FillsData := by
  induction calls generalizing bank with
  | nil => exact hfills
  | cons call rest ih => exact ih (next_fillsData B hfills)

/-- What becomes of a dirty line in a call: it stays dirty, with its bytes or
    with those that the request of the call leaves, or its bytes are queued or
    issued as a write-back. -/
def Kept (call : BankCall) (line : Nat) (data : List UInt8)
    (outcome : Except (MsiCacheBankError ε) BankAnswer × MsiCacheBank δ τ κ) : Prop :=
  (∃ kept, outcome.2.DirtyAt line kept ∧
    (kept = data ∨ ∃ qos request, call = .acceptCpuRequest qos request ∧
      request.lineAddress = line ∧ kept = request.lineEffect data)) ∨
  outcome.2.Held line data ∨
  ∃ issue, outcome.1 = .ok (.issued (some issue)) ∧ WritesBack issue.kind issue.request line data

/-- A bank never drops dirty data on its own: in every run from an empty bank,
    with any combination of queues and tag stores, a call other than a snoop
    keeps the bytes of every dirty line, whether or not it fails. -/
theorem dirty_kept (agent : AgentId) (layout : CacheLineLayout)
    (mshrConfig : Option MshrQueueConfig) (writeQueueConfig : Option CacheWriteQueueConfig)
    (directory : Option δ) (sectors : Option τ) (compressed : Option κ) (calls : List BankCall)
    (call : BankCall) (hcall : ∀ address event, call ≠ .acceptSnoop address event) (line : Nat)
    (data : List UInt8)
    (hdirty : (calls.foldl (next B) (new agent layout mshrConfig writeQueueConfig directory sectors
      compressed)).DirtyAt line data) :
    Kept call line data (perform B call (calls.foldl (next B)
      (new agent layout mshrConfig writeQueueConfig directory sectors compressed))) := by
  have hnew : (new agent layout mshrConfig writeQueueConfig directory sectors compressed :
      MsiCacheBank δ τ κ).FillsData := fun _ _ h => by
    cases h
  have hfills := run_fillsData B calls hnew
  generalize calls.foldl (next B) (new agent layout mshrConfig writeQueueConfig directory sectors
    compressed) = bank at hdirty hfills ⊢
  -- a call that stores nothing
  have hguards : Guards (fun _ => False) bank (perform B call bank).2 →
      Kept call line data (perform B call bank) := by
    intro h
    rcases h.dirty hfills line id data hdirty with hkept | hheld
    · exact .inl ⟨data, hkept, .inl rfl⟩
    · exact .inr (.inl hheld)
  cases call with
  | acceptCpuRequest qos request =>
    have haccepts := acceptCpuRequest_accepts B qos request bank
    have hstate : (perform B (.acceptCpuRequest qos request) bank).2 =
        (acceptCpuRequest B qos request bank).2 := bind_pure_snd ..
    unfold Kept
    rw [hstate]
    rcases haccepts.dirty hfills line data hdirty with hkept | hheld | ⟨hline, hstored⟩
    · exact .inl ⟨data, hkept, .inl rfl⟩
    · exact .inr (.inl hheld)
    · exact .inl ⟨_, hstored, .inr ⟨qos, request, rfl, hline, rfl⟩⟩
  | acceptFill response bits =>
    refine hguards ?_
    rw [perform, bind_pure_snd]
    exact acceptFill_guards B hfills
  | acceptSnoop address event => exact absurd rfl (hcall address event)
  | issueWriteQueue tick =>
    have hlines : (perform B (.issueWriteQueue tick) bank).2.lines = bank.lines := by
      rw [perform, bind_pure_snd]
      exact issueWriteQueue_sameLines
    refine .inl ⟨data, ?_, .inl rfl⟩
    unfold DirtyAt
    rwa [hlines]
  | enqueueWrite =>
    refine hguards ?_
    rw [perform, bind_pure_snd]
    exact enqueueWrite_guards ..
  | acceptUncacheableWriteResponse response =>
    refine hguards ?_
    rw [perform, bind_pure_snd]
    exact acceptUncacheableWriteResponse_same.guards

/-- A bank with a write queue of two entries and no tags of any kind. -/
def quadBank : MsiCacheBank Unit Unit Unit :=
  new 1 quadLayout none (some ⟨2, 0, Nat.two_pos⟩) none none none

/-- Tags that are never asked. -/
def noBackends : Backends Unit Unit Unit Unit :=
  ⟨⟨fun _ _ => pure none, fun _ => pure (), fun _ => pure (), fun _ => pure ()⟩,
    ⟨fun _ _ => pure [], fun _ => pure (), fun _ => pure (), fun _ => pure ()⟩,
    ⟨fun _ _ => pure [], fun _ => pure (), fun _ => pure (), fun _ => pure ()⟩⟩

/-- A line is fetched to be written. -/
def fetchedCalls : List BankCall :=
  [.acceptCpuRequest none { readByte 0 0 with operation := .readUnique },
    .acceptFill ⟨⟨1, 0⟩, .completed, some [1, 2, 3, 4]⟩ none]

/-- An uncacheable read of a line. -/
def bypassCall : BankCall := .acceptCpuRequest none { readByte 1 0 with uncacheable := true }

/-- A line that was fetched to be written is queued when an uncacheable read
    comes by. -/
theorem dirty_kept_for_uncacheable :
    (fetchedCalls.foldl (next noBackends) quadBank).DirtyAt 0 [1, 2, 3, 4] ∧
      Kept bypassCall 0 [1, 2, 3, 4]
        (perform noBackends bypassCall (fetchedCalls.foldl (next noBackends) quadBank)) := by
  have hdirty : (fetchedCalls.foldl (next noBackends) quadBank).DirtyAt 0 [1, 2, 3, 4] :=
    ⟨_, rfl, rfl, rfl⟩
  exact ⟨hdirty, dirty_kept noBackends 1 quadLayout none (some ⟨2, 0, by decide⟩) none none none
    fetchedCalls bypassCall (fun _ _ => nofun) 0 _ hdirty⟩

end MsiCacheBank

end Rem6.Cache
