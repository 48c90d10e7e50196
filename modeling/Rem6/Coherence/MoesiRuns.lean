import Mathlib.Data.List.Nodup
import Rem6.Coherence.Moesi

/-!
# Runs of the MOESI Harness

What the discipline of `Rem6.Coherence.Moesi` gives for runs whose calls all
succeed. There are two results, for the two things that can go wrong. The states
of the caches pass the protocol's own check, and the record lists exactly the
valid ones, as long as no recorded owner of a shared line writes. For the data
also the backing line has to be current whenever it is consulted, since an owner
that is dropped is not written back.

After each result stands the shortest run that violates it.

## Main definitions

* `OwnerWrites`: The recorded owner of a shared line asks to write.
* `Harness.moesiSnapshot`: The states of the caches, as the protocol checks them.
* `MoesiValid`: States and record pass the check, and agree.

## Theorems

* `MoesiSnapshot.validate_of_alone`: What the protocol's check comes down to.
* `moesi_data_coherent`: Coherent reads.
* `moesi_states_valid`: Single writer and agreement.
* `moesi_stale_reads`, `moesi_owner_upgrade_shared`: Runs that go wrong.
-/

namespace Rem6

namespace Protocol

open Memory MoesiSnapshot List

variable {snap : MoesiSnapshot}

section

variable (hnd : (snap.caches.map Prod.fst).Nodup)
include hnd

theorem MoesiSnapshot.eq_of_agent {x y} (hx : x ∈ snap.caches)
    (hy : y ∈ snap.caches) (h : x.1 = y.1) : x = y :=
  inj_on_of_nodup_map hnd hx hy h

theorem MoesiSnapshot.agentsIn_length_le
    (test : MoesiState → Bool)
    (hone : ∀ x ∈ snap.caches, ∀ y ∈ snap.caches, test x.2 = true → test y.2 = true → x.1 = y.1) :
    (snap.agentsIn test).length ≤ 1 := by
  unfold agentsIn
  rw [length_map]
  -- Two entries that pass would have the same agent, and so be one.
  cases hfound : snap.caches.filter (fun c => test c.2) with
  | nil => exact Nat.zero_le _
  | cons x rest =>
    cases rest with
    | nil => exact le_rfl
    | cons y =>
      have hx : x ∈ snap.caches.filter (fun c => test c.2) := by
        rw [hfound]
        exact mem_cons_self
      have hy : y ∈ snap.caches.filter (fun c => test c.2) := by
        rw [hfound]
        exact mem_cons_of_mem _ mem_cons_self
      obtain ⟨hx, hxt⟩ := mem_filter.mp hx
      obtain ⟨hy, hyt⟩ := mem_filter.mp hy
      have heq := eq_of_agent hnd hx hy (hone x hx y hy hxt hyt)
      have hpairs : (snap.caches.filter (fun c => test c.2)).Nodup := (Nodup.of_map _ hnd).filter _
      rw [hfound, heq] at hpairs
      exact absurd mem_cons_self (nodup_cons.mp hpairs).1

/-- An owner that has to be alone is, if everybody else it could share with has
    its own agent. -/
theorem MoesiSnapshot.checkAlone_ok (owner : MoesiState)
    (others : MoesiState → Bool) (hoth : others owner = false)
    (halone : ∀ x ∈ snap.caches, ∀ y ∈ snap.caches, x.2 = owner → others y.2 = true → x.1 = y.1)
    (error : AgentId → List AgentId → MoesiSnapshotError) :
    checkAlone (snap.agentsIn fun s => s = owner).head? (snap.agentsIn others) error = .ok () := by
  unfold checkAlone
  cases hhead : (snap.agentsIn fun s => s = owner).head? with
  | none => rfl
  | some ag =>
    have hmem := mem_of_mem_head? (Option.mem_def.mpr hhead)
    unfold agentsIn at hmem
    obtain ⟨x, hx, -⟩ := mem_map.mp hmem
    obtain ⟨hx, hxt⟩ := mem_filter.mp hx
    have hxowner : x.2 = owner := of_decide_eq_true hxt
    have hnone : snap.agentsIn others = [] := by
      unfold agentsIn
      rw [map_eq_nil_iff, filter_eq_nil_iff]
      intro y hy hyt
      have heq := eq_of_agent hnd hx hy (halone x hx y hy hxowner hyt)
      simp [← heq, hxowner, hoth] at hyt
    simp only [hnone, ne_eq, not_true_eq_false, if_false]

/-- The protocol's check passes if an exclusive or modified cache is the only
    valid one, and at most one cache is owned. -/
theorem MoesiSnapshot.validate_of_alone
    (halone : ∀ x ∈ snap.caches, ∀ y ∈ snap.caches,
      x.2 = .exclusive ∨ x.2 = .modified → y.2.isValid = true → x.1 = y.1)
    (hone : ∀ x ∈ snap.caches, ∀ y ∈ snap.caches, x.2 = .owned → y.2 = .owned → x.1 = y.1) :
    snap.validate = .ok () := by
  have hsts : ∀ st : MoesiState, st = .exclusive ∨ st = .owned ∨ st = .modified →
      st.isValid = true ∧ (st = .owned ∨ st = .exclusive ∨ st = .modified) := by
    intro st
    cases st <;> decide
  have hown : ∀ x ∈ snap.caches, ∀ y ∈ snap.caches, x.2 = .exclusive ∨ x.2 = .owned ∨ x.2
      = .modified → y.2 = .exclusive ∨ y.2 = .owned ∨ y.2 = .modified → x.1 = y.1 := by
    intro x hx y hy hxs hys
    rcases hsts x.2 hxs with ⟨hxv, hxo | hxa⟩
    · rcases hsts y.2 hys with ⟨-, hyo | hya⟩
      · exact hone x hx y hy hxo hyo
      · exact (halone y hy x hx hya hxv).symm
    · exact halone x hx y hy hxa (hsts y.2 hys).1
  have hdirty : ∀ st : MoesiState, st.isDirtyOwner = true →
      st = .exclusive ∨ st = .owned ∨ st = .modified := by
    intro st
    cases st <;> decide
  have hdirtyOne := agentsIn_length_le hnd MoesiState.isDirtyOwner
    (fun x hx y hy hxt hyt => hown x hx y hy (hdirty _ hxt) (hdirty _ hyt))
  have hownerOne := agentsIn_length_le hnd (fun s => s = .exclusive || s = .owned || s = .modified)
    (fun x hx y hy hxt hyt => hown x hx y hy
      (by simpa only [Bool.or_eq_true, decide_eq_true_eq, or_assoc] using hxt)
      (by simpa only [Bool.or_eq_true, decide_eq_true_eq, or_assoc] using hyt))
  have hexc := checkAlone_ok hnd .exclusive (fun s => s = .shared || s = .owned)
    (by decide) (fun x hx y hy hxs hyt => halone x hx y hy (.inl hxs) (by
      revert hyt
      cases y.2 <;> decide)) (.exclusiveWithSharers snap.line)
  have hmod := checkAlone_ok hnd .modified (fun s => s = .shared)
    (by decide) (fun x hx y hy hxs hyt => halone x hx y hy (.inr hxs) (by
      revert hyt
      cases y.2 <;> decide)) (.modifiedWithSharers snap.line)
  unfold validate
  simp only [if_neg (not_lt.mpr hdirtyOne), if_neg (Nat.not_lt.mpr hownerOne), hexc,
    hmod, bind, Except.bind]

end

end Protocol

namespace Coherence

open Memory Protocol Cache Directory Lib

/-- A MOESI harness. -/
abbrev MoesiHarness := Harness (OwnerLine MoesiState) MoesiState MoesiEvent

/-- The recorded owner of a shared line asks to write. -/
def OwnerWrites (h : MoesiHarness) (call : Call) : Prop :=
  call.request.operation ≠ .noAccess ∧ CacheController.isCpuRead call.request.operation = false ∧
    (h.directory h.line).owner = some (call.agent, .owned)

/-- The states of the caches of some agents. -/
def Harness.moesiSnapshot (h : MoesiHarness) (agents : List AgentId) : MoesiSnapshot :=
  ⟨h.line, agents.filterMap fun agent => (h.caches agent).map fun c => (agent, c.state)⟩

open Harness

/-- The states of the caches and the directory's own view pass the protocol's
    check, and the record names exactly the valid caches. -/
structure MoesiValid (h : MoesiHarness) : Prop where
  states_valid : ∀ agents : List AgentId, agents.Nodup → (h.moesiSnapshot agents).validate = .ok ()
  record_valid : ((h.directory h.line).protocolSnapshot h.line).validate = .ok ()
  listed : ∀ agent, (h.directory h.line).Listed agent ↔
    ∃ c, h.caches agent = some c ∧ c.state.isValid = true

section Valid

variable {h : MoesiHarness} {line : OwnerLine MoesiState} {sts : AgentId → MoesiState}

theorem moesi_states_of_cache {ag c} (hc : h.caches ag = some c) (hval : c.state.isValid = true) :
    h.states moesi ag = c.state := by
  rw [states_of_cache hc]
  revert hval
  cases c.state <;> decide

theorem moesi_cache_of_states {ag} (hheld : h.states moesi ag ≠ .invalid) :
    ∃ c, h.caches ag = some c ∧ c.state.isValid = true := by
  obtain ⟨c, hc, hstab, hst⟩ := cache_of_states hheld
  refine ⟨c, hc, ?_⟩
  rw [← hst] at hheld
  revert hheld hstab
  cases c.state <;> decide

theorem MoesiAgree.unique_holder {a b} (hagree : MoesiAgree line sts)
    (ha : sts a = .exclusive ∨ sts a = .modified) (hb : sts b ≠ .invalid) : a = b := by
  obtain ⟨recd, hown, hrec⟩ := hagree.exclusive_alone ha
  by_contra hne
  exact hb ((hagree.alone a recd hown hrec).2.2 b (fun h => hne h.symm))

theorem MoesiAgree.unique_owned {a b} (hagree : MoesiAgree line sts) (ha : sts a = .owned)
    (hb : sts b = .owned) : a = b := by
  cases hown : line.owner with
  | none => exact (hagree.sharing hown).2.2 a b ha hb
  | some owner =>
    obtain ⟨owner, recd⟩ := owner
    -- Whoever is owned is the recorded owner.
    have honly : ∀ x, sts x = .owned → x = owner := by
      intro x hx
      by_contra hne
      by_cases hrec : recd = .owned
      · subst hrec
        have hoth := (hagree.owned owner hown).2.2 x hne
        rw [hx] at hoth
        split at hoth <;> cases hoth
      · have hoth := (hagree.alone owner recd hown hrec).2.2 x hne
        cases hx.symm.trans hoth
    rw [honly a ha, honly b hb]

theorem MoesiAgree.snapshot_valid (hagree : MoesiAgree line (h.states moesi)) (ags : List AgentId)
    (hnd : ags.Nodup) : (h.moesiSnapshot ags).validate = .ok () := by
  have hent : ∀ x ∈ (h.moesiSnapshot ags).caches, ∃ c, h.caches x.1 = some c ∧ c.state = x.2 := by
    intro x hx
    obtain ⟨agent, -, hmap⟩ := List.mem_filterMap.mp hx
    obtain ⟨c, hc, rfl⟩ := Option.map_eq_some_iff.mp hmap
    exact ⟨c, hc, rfl⟩
  have hst : ∀ x ∈ (h.moesiSnapshot ags).caches, x.2.isValid = true → h.states moesi x.1 = x.2 := by
    intro x hx hval
    obtain ⟨c, hc, hcst⟩ := hent x hx
    rw [← hcst] at hval ⊢
    exact moesi_states_of_cache hc hval
  refine MoesiSnapshot.validate_of_alone ?_ (fun x hx y hy hxs hyv => ?_)
    (fun x hx y hy hxs hys => ?_)
  · unfold moesiSnapshot
    rw [List.map_filterMap]
    refine List.Nodup.filterMap (fun a a' b hb hb' => ?_) hnd
    have hfirst : ∀ agent, b ∈ ((h.caches agent).map fun c => (agent, c.state)).map Prod.fst →
        b = agent := by
      intro agent hag
      obtain ⟨x, hx, rfl⟩ := Option.map_eq_some_iff.mp (Option.mem_def.mp hag)
      obtain ⟨c, -, rfl⟩ := Option.map_eq_some_iff.mp hx
      rfl
    rw [← hfirst a hb, ← hfirst a' hb']
  · have hxv : x.2.isValid = true := by
      rcases hxs with h | h <;> rw [h] <;> rfl
    refine hagree.unique_holder (by rw [hst x hx hxv]; exact hxs) ?_
    rw [hst y hy hyv]
    intro hinv
    rw [hinv] at hyv
    cases hyv
  · exact hagree.unique_owned (by rw [hst x hx (by rw [hxs]; rfl)]; exact hxs)
      (by rw [hst y hy (by rw [hys]; rfl)]; exact hys)

theorem MoesiAgree.record_valid (hagree : MoesiAgree line sts) (adr : Nat) :
    (line.protocolSnapshot adr).validate = .ok () := by
  have hent : ∀ x ∈ (line.protocolSnapshot adr).caches,
      line.owner = some x ∨ (x.1 ∈ line.sharers ∧ x.2 = .shared) := by
    intro x hx
    rcases List.mem_append.mp hx with hx | hx
    · exact .inl (Option.mem_toList.mp hx)
    · obtain ⟨b, hb, rfl⟩ := List.mem_map.mp hx
      exact .inr ⟨Std.TreeSet.mem_toList.mp hb, rfl⟩
  refine MoesiSnapshot.validate_of_alone ?_ (fun x hx y hy hxs hyv => ?_)
    (fun x hx y hy hxs hys => ?_)
  · unfold OwnerLine.protocolSnapshot
    rw [List.map_append, List.map_map]
    have hsharers : (line.sharers.toList.map
        (Prod.fst ∘ fun sharer => (sharer, MoesiState.shared))) = line.sharers.toList :=
      List.map_id _
    rw [hsharers]
    cases hown : line.owner with
    | none => exact nodup_toList
    | some owner =>
      refine List.nodup_cons.mpr ⟨fun hmem => ?_, nodup_toList⟩
      exact hagree.disjoint owner.1 owner.2 hown (Std.TreeSet.mem_toList.mp hmem)
  · rcases hent x hx with hown | ⟨-, hshared⟩
    · have hrec : x.2 ≠ .owned := by
        rcases hxs with h | h <;> rw [h] <;> decide
      rcases hent y hy with hown' | ⟨hsharer, -⟩
      · rw [hown, Option.some.injEq] at hown'
        rw [hown']
      · exact absurd hsharer ((hagree.alone x.1 x.2 hown hrec).2.1 y.1)
    · rcases hxs with h | h <;> rw [h] at hshared <;> cases hshared
  · rcases hent x hx with hown | ⟨-, hshared⟩
    · rcases hent y hy with hown' | ⟨-, hshared⟩
      · rw [hown, Option.some.injEq] at hown'
        rw [hown']
      · cases hys.symm.trans hshared
    · cases hxs.symm.trans hshared

variable {adr size : Nat}

theorem Coherent.moesiValid {layout Good}
    (hcoh : Coherent moesiHarness moesiDiscipline layout adr size Good h) :
    MoesiValid h := by
  have hagree : MoesiAgree (h.directory h.line) (h.states moesi) := by
    rw [hcoh.line_eq]
    exact hcoh.agree
  refine ⟨hagree.snapshot_valid, hagree.record_valid h.line, fun ag => ⟨fun hlisted => ?_, ?_⟩⟩
  · refine moesi_cache_of_states (fun hinv => ?_)
    have hval := (hagree.listed ag).1 hlisted
    rw [hinv] at hval
    cases hval
  · rintro ⟨c, hc, hval⟩
    by_contra hfree
    have hinv := (hagree.listed ag).2 hfree
    rw [moesi_states_of_cache hc hval] at hinv
    rw [hinv] at hval
    cases hval

end Valid

/-! ## Runs -/

/-- The discipline allows every call but a write by the owner of a shared line. -/
theorem moesi_allowed {h call line} (hline : h.line = line) (hown : ¬ OwnerWrites h call)
    (hop : call.request.operation ≠ .noAccess) :
    moesiDiscipline.allowed (h.directory line) call.agent
      (CacheController.isCpuRead call.request.operation) := by
  intro hwr hrec
  exact hown ⟨hop, hwr, hline ▸ hrec⟩

theorem moesi_agree_empty : MoesiAgree OwnerLine.empty fun _ => .invalid := by
  refine ⟨fun _ _ h => ?_, fun _ h => ?_, fun _ => ⟨fun b hb => ?_,
    fun _ _ => rfl, fun _ _ h => ?_⟩⟩
  · cases h
  · cases h
  · exact absurd hb Std.TreeSet.not_mem_emptyc
  · cases h

variable {size : Nat}

/-- One call that succeeds, while the backing line is current and the owner of a
    shared line does not write. -/
theorem moesi_step {layout seen h call line} {init : Nat → UInt8}
    (hcoh : Coherent moesiHarness moesiDiscipline layout line size
      (Holds layout line (latest init seen)) h) (hzero : call.request.operation ≠ .cacheBlockZero)
    (hok : h.Succeeds moesiHarness call) (hcur : BackingCurrent moesi h call)
    (hown : ¬ OwnerWrites h call) :
    Coherent moesiHarness moesiDiscipline layout line size
        (Holds layout line (latest init (seen ++ (h.completedRequest moesiHarness call).toList)))
        (h.next moesiHarness call) ∧
      AnsweredFrom (latest init seen) call.request (h.reply moesiHarness call) := by
  have hfresh : (∃ c, h.caches call.agent = some c ∧ c.state = .invalid) →
      (h.directory line).owner = none → layout.bytes ≤ size →
      h.backing.data.take layout.bytes = window (latest init seen) line layout.bytes := by
    intro hreq hnone hlong
    refine hcoh.backing_current hcur hreq hnone (fun hsharers => ⟨hnone, hsharers⟩)
      (fun b hb => ?_) hlong
    rcases (hcoh.agree.sharing hnone).1 b hb with hst | hst <;> rw [hst] <;> decide
  rcases data_step moesi_sound hcoh (moesi_allowed hcoh.line_eq hown) hfresh hzero (.inl hok) with
    ⟨hfails, -⟩ | hdone
  · exact absurd hok hfails
  · exact hdone

/-- In every run of a fresh MOESI harness whose calls succeed, find the backing
    line current, and are no writes by the owner of a shared line, every completed
    read is answered with the bytes left by the latest completed store. -/
theorem moesi_data_coherent (layout : CacheLineLayout) (lineAddress : Nat)
    (backing : LineBackingStore) (agents : List AgentId) (h : MoesiHarness)
    (hnew : new moesiHarness layout lineAddress backing agents = .ok h) (calls : List Call)
    (call : Call) (hzero : ∀ c ∈ calls ++ [call], c.request.operation ≠ .cacheBlockZero)
    (hok : Along (next moesiHarness)
      (fun h call => h.Succeeds moesiHarness call ∧ BackingCurrent moesi h call ∧
        ¬ OwnerWrites h call) h (calls ++ [call])) :
    AnsweredFrom (latest h.initialMemory (h.history moesiHarness calls)) call.request
      ((run (next moesiHarness) h calls).reply moesiHarness call) := by
  have hisNew := new_spec hnew
  refine along_last (next moesiHarness) (completedRequest moesiHarness)
    (fun h call => call.request.operation ≠ .cacheBlockZero ∧ h.Succeeds moesiHarness call ∧
      BackingCurrent moesi h call ∧ ¬ OwnerWrites h call)
    (fun s seen => Coherent moesiHarness moesiDiscipline layout h.line backing.layout.bytes
      (Holds layout h.line (latest h.initialMemory seen)) s)
    (fun s call seen => AnsweredFrom (latest h.initialMemory seen) call.request
      (s.reply moesiHarness call))
    (fun s call seen hcoh hP => moesi_step hcoh hP.1 hP.2.1 hP.2.2.1 hP.2.2.2) calls call h ?_
    (along_and_of_forall _ _ _ _ _ hzero hok)
  exact coherent_new hisNew rfl moesi_agree_empty (fun hsize _ => hisNew.backing_window hsize)

/-- A reader is answered by the modified owner, which then keeps the line. -/
theorem moesi_reader_current :
    ∃ h, new moesiHarness byteLayout 0 (byteBacking 7) [1, 2] = .ok h ∧
      (run (next moesiHarness) h [byteWrite 1 9]).reply moesiHarness (byteRead 2)
        = some ⟨0, .fill, ⟨2, 0⟩, .completed, some [9]⟩ ∧
      AnsweredFrom (latest h.initialMemory (h.history moesiHarness [byteWrite 1 9]))
        (byteRead 2).request
        ((run (next moesiHarness) h [byteWrite 1 9]).reply moesiHarness (byteRead 2)) := by
  refine ⟨_, rfl, by decide, moesi_data_coherent byteLayout 0 (byteBacking 7) [1, 2] _ rfl
    [byteWrite 1 9] (byteRead 2) (by decide) ⟨⟨⟨_, rfl⟩, fun _ _ b hb => ?_, fun h => ?_⟩,
      ⟨⟨_, rfl⟩, fun _ howner => ?_, fun h => ?_⟩, trivial⟩⟩
  · exact absurd hb Std.TreeSet.not_mem_emptyc
  · exact absurd h.2.2 (by decide)
  · cases howner
  · exact absurd h.2.1 (by decide)

/-- Two runs whose calls all succeed and whose last read is stale. In the first
    an exclusive copy is written and then read, and a third agent is given the
    byte that was overwritten. In the second the owner of a shared line writes,
    and its sharer goes on to read its own copy. -/
theorem moesi_stale_reads :
    (∃ h record, new moesiHarness byteLayout 0 (byteBacking 7) [1, 2, 3] = .ok h ∧
      Along (next moesiHarness) (Succeeds moesiHarness) h
        [byteRead 1, byteWrite 1 9, byteRead 2, byteRead 3] ∧
      (run (next moesiHarness) h [byteRead 1, byteWrite 1 9, byteRead 2]).reply moesiHarness
        (byteRead 3) = some record ∧
      record.status = .completed ∧ record.data = some [7] ∧
      (byteRead 3).request.load (latest h.initialMemory
        (h.history moesiHarness [byteRead 1, byteWrite 1 9, byteRead 2])) = [9]) ∧
    ∃ h record, new moesiHarness byteLayout 0 (byteBacking 7) [1, 2] = .ok h ∧
      Along (next moesiHarness) (Succeeds moesiHarness) h
        [byteWrite 1 9, byteRead 2, byteWrite 1 5, byteRead 2] ∧
      (run (next moesiHarness) h [byteWrite 1 9, byteRead 2, byteWrite 1 5]).reply
        moesiHarness (byteRead 2) = some record ∧
      record.status = .completed ∧ record.data = some [9] ∧
      (byteRead 2).request.load (latest h.initialMemory
        (h.history moesiHarness [byteWrite 1 9, byteRead 2, byteWrite 1 5])) = [5] := by
  constructor
  · refine ⟨_, ⟨0, .fill, ⟨3, 0⟩, .completed, some [7]⟩, rfl,
      ⟨⟨_, rfl⟩, ⟨_, rfl⟩, ⟨_, rfl⟩, ⟨_, rfl⟩, trivial⟩, ?_, rfl, rfl, ?_⟩
    · decide
    · decide
  · refine ⟨_, ⟨0, .hit, ⟨2, 0⟩, .completed, some [9]⟩, rfl,
      ⟨⟨_, rfl⟩, ⟨_, rfl⟩, ⟨_, rfl⟩, ⟨_, rfl⟩, trivial⟩, ?_, rfl, rfl, ?_⟩
    · decide
    · decide

/-- In every run of a fresh MOESI harness whose calls succeed and are no writes by
    the owner of a shared line, the states pass the protocol's check after each
    call, and the record names exactly the valid caches. -/
theorem moesi_states_valid (layout : CacheLineLayout) (lineAddress : Nat)
    (backing : LineBackingStore) (agents : List AgentId) (h : MoesiHarness)
    (hnew : new moesiHarness layout lineAddress backing agents = .ok h) (calls : List Call)
    (hok : Along (next moesiHarness)
      (fun h call => h.Succeeds moesiHarness call ∧ ¬ OwnerWrites h call) h calls) :
    MoesiValid (run (next moesiHarness) h calls) := by
  have hstart :
      Coherent moesiHarness moesiDiscipline layout h.line backing.layout.bytes AnyCopy h :=
    coherent_new (new_spec hnew) rfl moesi_agree_empty (fun _ _ => trivial)
  refine Coherent.moesiValid (along_invariant (next moesiHarness)
    (fun h call => h.Succeeds moesiHarness call ∧ ¬ OwnerWrites h call)
    (Coherent moesiHarness moesiDiscipline layout h.line backing.layout.bytes AnyCopy)
    (fun s call hcoh hP => ?_) calls h hstart hok)
  exact coherent_next moesi_sound (fun _ _ _ _ _ => trivial) hcoh (moesi_allowed hcoh.line_eq hP.2)
    (fun _ _ _ _ => trivial) ⟨fun _ _ _ _ _ => trivial, fun _ _ _ _ _ => trivial⟩ hP.1

/-- A modified owner that is read stays the owner, and the states pass. -/
theorem moesi_states_valid_after_read :
    ∃ h, new moesiHarness byteLayout 0 (byteBacking 7) [1, 2] = .ok h ∧
      ((run (next moesiHarness) h [byteWrite 1 9, byteRead 2]).caches 1).map
        CacheController.state = some .owned ∧
      MoesiValid (run (next moesiHarness) h [byteWrite 1 9, byteRead 2]) := by
  refine ⟨_, rfl, by decide, moesi_states_valid byteLayout 0 (byteBacking 7) [1, 2] _ rfl
    [byteWrite 1 9, byteRead 2] ⟨⟨⟨_, rfl⟩, fun h => ?_⟩, ⟨⟨_, rfl⟩, fun h => ?_⟩, trivial⟩⟩
  · exact absurd h.2.2 (by decide)
  · exact absurd h.2.1 (by decide)

/-- The owner of a shared line writes, and its sharer keeps a valid copy beside
    the modified one: the check on the states fails. -/
theorem moesi_owner_upgrade_shared :
    ∃ h, new moesiHarness byteLayout 0 (byteBacking 7) [1, 2] = .ok h ∧
      Along (next moesiHarness) (Succeeds moesiHarness) h
        [byteWrite 1 9, byteRead 2, byteWrite 1 5] ∧
      ((run (next moesiHarness) h [byteWrite 1 9, byteRead 2, byteWrite 1 5]).moesiSnapshot
        [1, 2]).caches = [(1, .modified), (2, .shared)] ∧
      ((run (next moesiHarness) h [byteWrite 1 9, byteRead 2, byteWrite 1 5]).moesiSnapshot
        [1, 2]).validate ≠ .ok () := by
  refine ⟨_, rfl, ⟨⟨_, rfl⟩, ⟨_, rfl⟩, ⟨_, rfl⟩, trivial⟩, ?_, ?_⟩
  · decide
  · decide

end Coherence

end Rem6
