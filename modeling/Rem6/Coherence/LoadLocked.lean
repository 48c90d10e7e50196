import Rem6.Coherence.Stuck

/-!
# Load-Locked and Store-Conditional

A load-locked leaves a reservation of its granule in the cache of its agent, and
a conditional store succeeds only with one. Reservations are never looked at from
outside: they end with the copy they stand beside, with the data a fill brings,
or with a store of the cache that touches the granule. What makes them sound is
coherence. Another agent can store only when it has taken the line away, and the
reservation is gone with the copy.

The invariant is `Reserved`: a reservation is its cache's own, and since the
load-locked that made it no completed store has touched the granule. It is a
condition on copies like any other, so it is carried through a run by the step
lemmas of the harness. Failed calls are part of the runs, and so are backing
lines of any size: over a short one nobody is ever served, and over a long one
the harness may get stuck, where the owner that is left keeps what holds of its
reservations.

## Main definitions

* `Touches`: The access and the granule share a byte.
* `Unbroken`: A load-locked of the granule, and no store that touches it since.
* `Reserved`: Every reservation beside a copy is unbroken.

## Theorems

* `touches_iff`: The test of the controllers is exact.
* `reserved_step`: One call.
* `mesi_store_conditional_sound`: Conditional stores over whole runs.
-/

namespace Rem6.Coherence

open Memory Protocol Cache Directory Lib Harness MemoryRequest

/-- The access and the granule share a byte. -/
def Touches (request : MemoryRequest) (granule : Nat) : Prop :=
  ∃ address, request.range.start ≤ address ∧ address < request.range.stop ∧
    granule ≤ address ∧ address < granule + llscReservationBytes

variable {granule : Nat} {layout : Memory.CacheLineLayout}

/-- The controllers test for a shared byte exactly. The end of the granule is cut
    off at the top of the address space, which no access reaches. -/
theorem touches_iff {request} :
    Touches request granule ↔ request.overlapsLlscReservation granule = true := by
  have hbnd := request.range.bound
  have hpos := request.range.size.pos
  have hstop : request.range.stop = request.range.start + request.range.size.bytes := rfl
  unfold Touches overlapsLlscReservation
  rw [Bool.and_eq_true, decide_eq_true_eq, decide_eq_true_eq]
  constructor
  · rintro ⟨adr, hstart, hend, hfrom, hto⟩
    exact ⟨Nat.lt_min.mpr ⟨by omega, by omega⟩, by omega⟩
  · rintro ⟨hstart, hend⟩
    have hto := (Nat.lt_min.mp hstart).1
    -- The first byte they share is where the later of the two starts.
    rcases Nat.le_total request.range.start granule with hle | hle
    · exact ⟨granule, hle, hend, le_rfl, Nat.lt_add_of_pos_right (by decide)⟩
    · exact ⟨request.range.start, le_rfl, by omega, hle, hto⟩

/-- The agent load-locked the granule, and no store since then touched it. -/
def Unbroken (history : List MemoryRequest) (agent : AgentId) (granule : Nat) : Prop :=
  ∃ before locked after, history = before ++ locked :: after ∧ locked.operation = .loadLocked ∧
    locked.id.agent = agent ∧ locked.llscReservationAddress = granule ∧ ∀ request ∈ after,
    request.carriesData = true → ¬ Touches request granule

variable {agent : AgentId} {request : MemoryRequest}

theorem Unbroken.append {history} (h : Unbroken history agent granule)
    (hreq : request.carriesData = true → ¬ Touches request granule) :
    Unbroken (history ++ [request]) agent granule := by
  obtain ⟨before, locked, after, rfl, hop, hag, hgranule, haft⟩ := h
  refine ⟨before, locked, after ++ [request], ?_, hop, hag, hgranule, fun other hmem => ?_⟩
  · rw [List.append_assoc, List.cons_append]
  · rcases List.mem_append.mp hmem with hmem | hmem
    · exact haft other hmem
    · rwa [List.mem_singleton.mp hmem]

variable {history : List MemoryRequest}

theorem unbroken_loadLocked (hop : request.operation = .loadLocked) :
    Unbroken (history ++ [request]) request.id.agent request.llscReservationAddress :=
  ⟨history, request, [], rfl, hop, rfl, rfl, by simp⟩

/-- Every reservation beside a copy is its own agent's, and unbroken. -/
def Reserved (history : List MemoryRequest) : CopyPred :=
  fun agent _ reservations => ∀ owner granule, reservations owner = some granule →
    owner = agent ∧ Unbroken history agent granule

theorem reserved_copyable : Copyable (Reserved history) := by
  intro _ _ _ _ _ owner granule h
  cases h

theorem Reserved.append {data history} {reservations : AgentId → Option Nat}
    (h : Reserved history agent data reservations) (hloads : request.carriesData = false) :
    Reserved (history ++ [request]) agent data reservations := by
  intro owner granule hreserved
  obtain ⟨hown, hunbroken⟩ := h owner granule hreserved
  refine ⟨hown, hunbroken.append (fun hcarry => ?_)⟩
  cases hloads.symm.trans hcarry

/-- Serving a request keeps the reservations of its copy, by the history that
    the request has become part of. -/
theorem serves_reserved (hid : request.id.agent = agent) :
    Serves layout agent request (Reserved history) (Reserved (history ++ [request])) where
  own := by
    intro data reservations _ hgood _ owner granule hreserved
    unfold reservationEffect at hreserved
    split at hreserved
    · rename_i hop
      by_cases hown : owner = request.id.agent
      · rw [hown, Function.update_self, Option.some.injEq] at hreserved
        rw [hown, ← hreserved, ← hid]
        exact ⟨rfl, unbroken_loadLocked hop⟩
      · rw [Function.update_of_ne hown] at hreserved
        exact absurd ((hgood owner granule hreserved).1.trans hid.symm) hown
    · split at hreserved
      · -- What the store left, it did not touch.
        obtain ⟨hbef, hleft⟩ := Option.filter_eq_some_iff.mp hreserved
        obtain ⟨hown, hunbroken⟩ := hgood owner granule hbef
        refine ⟨hown, hunbroken.append (fun _ htouches => ?_)⟩
        simp [(touches_iff).mp htouches] at hleft
      · rename_i hloads
        rw [Bool.not_eq_true] at hloads
        have hkept : Reserved (history ++ [request]) agent data reservations := hgood.append hloads
        exact hkept owner granule hreserved
  others := by
    intro hread b data reservations hgood
    exact hgood.append (carriesData_of_isCpuRead hread)

theorem serves_unanswered (hcarry : request.carriesData = true) :
    Serves layout agent request (Reserved history) (Reserved history) where
  own := by
    intro data resvs _ hgood _ owner granule hreserved
    unfold reservationEffect at hreserved
    split at hreserved
    · rename_i hop
      unfold carriesData at hcarry
      rw [hop] at hcarry
      cases hcarry
    · exact hgood owner granule (Option.filter_eq_some_iff.mp hreserved).1
  others := fun _ _ _ _ hgood => hgood

/-! ## Runs -/

/-- A conditional store that was answered as completed had an unbroken
    reservation of its granule. -/
def StoreSound (history : List MemoryRequest) (call : Call) (reply : Option CpuResponseRecord) :
    Prop :=
  ∀ record, reply = some record → record.status = .completed → call.request.operation =
    .storeConditional → Unbroken history call.agent call.request.llscReservationAddress

/-- One call keeps the reservations unbroken, whatever it does. -/
theorem reserved_of_effect {seen call} {h : MesiHarness} {Keeps : CopyPred → Prop}
    (hid : call.request.id.agent = call.agent)
    (hmono : ∀ Good Good' : CopyPred, (∀ agent data resvs, Good agent data resvs →
      Good' agent data resvs) → Keeps Good → Keeps Good')
    (heffect : Effect layout (Reserved seen) call (h.reply mesiHarness call) Keeps) :
    Keeps (Reserved (seen ++ (h.completedRequest mesiHarness call).toList)) ∧
      StoreSound seen call (h.reply mesiHarness call) := by
  cases heffect with
  | kept hkeeps hrep =>
    have hstores : StoreSound seen call (h.reply mesiHarness call) := by
      intro record hrecord hstatus hop
      have hloads := hrep record hrecord hstatus
      unfold carriesData at hloads
      rw [hop] at hloads
      cases hloads
    refine ⟨?_, hstores⟩
    cases hrecord : h.reply mesiHarness call with
    | none => rwa [completedRequest_of_none hrecord, Option.toList_none, List.append_nil]
    | some record =>
      by_cases hstatus : record.status = .completed
      · rw [completedRequest_of_completed hrecord hstatus, Option.toList_some]
        exact hmono _ _ (fun _ _ _ hgood => hgood.append (hrep record hrecord hstatus)) hkeeps
      · rwa [completedRequest_of_failed hrecord hstatus, Option.toList_none, List.append_nil]
  | served record hrep hstatus data resvs hgood hreserved hkeeps =>
    refine ⟨?_, fun _ _ _ hop => ?_⟩
    · rw [completedRequest_of_completed hrep hstatus, Option.toList_some]
      exact hkeeps _ (serves_reserved hid)
    · exact (hgood _ _ (hreserved hop)).2
  | unanswered hrep hcarry hkeeps =>
    refine ⟨?_, fun record hrecord => ?_⟩
    · rw [completedRequest_of_none hrep, Option.toList_none, List.append_nil]
      exact hkeeps _ (serves_unanswered hcarry)
    · cases hrep.symm.trans hrecord

/-- What holds between two calls: by the size of the backing line the harness is
    coherent or stuck, with unbroken reservations, or nobody can be served. -/
def ReservedInv (layout : CacheLineLayout) (line size : Nat) (h : MesiHarness)
    (seen : List MemoryRequest) : Prop :=
  (layout.bytes ≤ size ∧
    (Coherent mesiHarness mesiDiscipline layout line size (Reserved seen) h ∨
      Stuck layout line (Reserved seen) h)) ∨
  (size < layout.bytes ∧ Starved mesiHarness OwnerLine.Listed layout line size h)

/-- One call. -/
theorem reserved_step {h seen call} {line size : Nat} (hinv : ReservedInv layout line size h seen)
    (hid : call.request.id.agent = call.agent) :
    ReservedInv layout line size (h.next mesiHarness call)
        (seen ++ (h.completedRequest mesiHarness call).toList) ∧
      StoreSound seen call (h.reply mesiHarness call) := by
  rcases hinv with ⟨hlong, hcoh | hstu⟩ | ⟨hshort, hstarved⟩
  · rcases reserved_of_effect hid (fun _ _ hgood hkeeps => hkeeps.imp (·.mono hgood) (·.mono hgood))
      (coherent_effect (reserved_copyable) hlong hcoh) with ⟨hkeeps, hsound⟩
    exact ⟨.inl ⟨hlong, hkeeps⟩, hsound⟩
  · rcases reserved_of_effect hid (fun _ _ hgood hkeeps => hkeeps.mono hgood)
      (stuck_effect hstu) with ⟨hkeeps, hsound⟩
    exact ⟨.inl ⟨hlong, .inr hkeeps⟩, hsound⟩
  · obtain ⟨hstarved', hquiet⟩ := starved_step mesi_withholds hstarved hshort call
    refine ⟨.inr ⟨hshort, hstarved'⟩, fun record hrecord _ hop => ?_⟩
    rcases hquiet with hnone | hidle
    · cases hnone.symm.trans hrecord
    · cases hop.symm.trans hidle

/-- In every run of a fresh MESI harness, failed calls included, in which each
    agent uses its own id: a conditional store that is answered as completed has
    an earlier completed load-locked of its agent for the same granule, and no
    completed store that touches the granule lies between the two. -/
theorem mesi_store_conditional_sound (layout : CacheLineLayout) (lineAddress : Nat)
    (backing : LineBackingStore) (agents : List AgentId) (h : MesiHarness)
    (hnew : new mesiHarness layout lineAddress backing agents = .ok h) (calls : List Call)
    (call : Call) (hids : ∀ c ∈ calls ++ [call], c.request.id.agent = c.agent)
    (hop : call.request.operation = .storeConditional) (record : CpuResponseRecord)
    (hreply : (run (next mesiHarness) h calls).reply mesiHarness call = some record)
    (hstatus : record.status = .completed) :
    Unbroken (h.history mesiHarness calls) call.agent call.request.llscReservationAddress := by
  have hisNew := new_spec hnew
  have hstart : ReservedInv layout h.line backing.layout.bytes h [] := by
    by_cases hlong : layout.bytes ≤ backing.layout.bytes
    · refine .inl ⟨hlong, .inl (coherent_new hisNew rfl mesi_agree_empty (fun _ _ => ?_))⟩
      intro owner granule hreserved
      cases hreserved
    · exact .inr ⟨by omega, starved_new mesi_withholds hisNew⟩
  exact along_last (next mesiHarness) (completedRequest mesiHarness)
    (fun _ call => call.request.id.agent = call.agent)
    (ReservedInv layout h.line backing.layout.bytes)
    (fun s call seen => StoreSound seen call (s.reply mesiHarness call))
    (fun s call seen hinv hid => reserved_step hinv hid) calls call h hstart
    (along_of_forall _ _ _ _ hids) record hreply hstatus hop

/-- An agent load-locks the byte. -/
def byteLoadLocked (agent : AgentId) : Call where
  agent
  request :=
    { id := ⟨agent, 0⟩, operation := .loadLocked, range := byteRange, lineLayout := byteLayout
      valid := rfl, answered := fun h => h }

/-- An agent stores the byte conditionally. -/
def byteStoreConditional (agent : AgentId) (value : UInt8) : Call where
  agent
  request :=
    { id := ⟨agent, 0⟩, operation := .storeConditional, range := byteRange
      lineLayout := byteLayout, data := some [value], byteMask := some fullMask
      valid := rfl, answered := fun h => h }

/-- Two agents reserve the byte, and the first conditional store wins. -/
theorem mesi_first_store_conditional_wins :
    ∃ h, new mesiHarness byteLayout 0 (byteBacking 7) [1, 2] = .ok h ∧
      (run (next mesiHarness) h [byteLoadLocked 1, byteLoadLocked 2]).reply mesiHarness
        (byteStoreConditional 1 9) = some ⟨0, .fill, ⟨1, 0⟩, .completed, none⟩ ∧
      Unbroken (h.history mesiHarness [byteLoadLocked 1, byteLoadLocked 2]) 1 0 := by
  refine ⟨_, rfl, by decide, mesi_store_conditional_sound byteLayout 0 (byteBacking 7) [1, 2] _ rfl
    [byteLoadLocked 1, byteLoadLocked 2] (byteStoreConditional 1 9) (by decide) rfl
    ⟨0, .fill, ⟨1, 0⟩, .completed, none⟩ (by decide) rfl⟩

/-- The second one has lost its copy, and its reservation with it. -/
example : ((new mesiHarness byteLayout 0 (byteBacking 7) [1, 2]).toOption.map fun h =>
    (run (next mesiHarness) h
      [byteLoadLocked 1, byteLoadLocked 2, byteStoreConditional 1 9]).reply mesiHarness
        (byteStoreConditional 2 5))
    = some (some ⟨0, .fill, ⟨2, 0⟩, .storeConditionalFailed, none⟩) := by
  decide

end Rem6.Coherence
