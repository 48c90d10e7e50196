import Rem6.Coherence.Msi

/-!
# The MESI Harness

`MesiDirectoryLineHarness` over whole runs. The directory grants the first
reader exclusive, so the recorded owner may have written since without telling
anybody: recorded as exclusive, its cache can be modified. The harness writes an
owner's data back whenever a reader displaces it, and a line without owner is
therefore always current in the backing line.

With that, states and record agree and reads are coherent in every run whose
calls succeed. One request is an exception to the second half: a block zero is
answered as completed, moves the line to modified, and zeroes nothing, so reads
after it return the bytes from before it.

## Main definitions

* `mesiDiscipline`: Owner or sharers, and a line without owner is clean.
* `MesiRecorded`: The record lists exactly the valid caches.

## Theorems

* `mesi_sound`: The tables keep the discipline.
* `mesi_coherent`: Single writer, agreement and coherent reads.
* `mesi_block_zero_lost`: A completed block zero is not seen by reads.
-/

namespace Rem6.Coherence

open Memory Protocol Cache Directory Lib Harness Function

/-- An owner recorded as exclusive may have been written. -/
def mesiFits (recorded state : MesiState) : Prop :=
  (recorded = .exclusive ∧ (state = .exclusive ∨ state = .modified)) ∨
    (recorded = .modified ∧ state = .modified)

/-- The line has an owner or sharers, and without owner the backing line is
    current. -/
def mesiDiscipline : Discipline (OwnerLine MesiState) MesiState where
  agree := OwnerAgree .invalid .shared mesiFits
  clean line := line.owner = none
  unowned line := line.owner = none
  allowed _ _ _ := True

theorem mesiFits_owned {recd st} (h : mesiFits recd st) : st = .exclusive ∨ st = .modified := by
  rcases h with ⟨-, hst⟩ | ⟨-, hst⟩
  · exact hst
  · exact .inr hst

theorem mesi_table : OwnerTable mesi .shared .modified mesiFits .snoopRead .snoopWrite where
  invalid_stable := rfl
  shared_stable := rfl
  shared_valid := by decide
  owner_valid := by
    intro recd st h
    rcases mesiFits_owned h with rfl | rfl <;> decide
  owner_gives := by
    intro recd st h
    rcases mesiFits_owned h with rfl | rfl <;> rfl
  shared_gives := rfl
  owner_shares := by
    intro recd st h
    rcases mesiFits_owned h with rfl | rfl <;> rfl
  modified_fits := .inr ⟨rfl, rfl⟩

theorem fills_of_grant {D S E : Type} {R : HarnessRules D S E} {ev : S → Option E}
    (hR : R.fillEvent = grantFillEvent ev) {record : D} {handled : Handled D S E} {waiting : S}
    {e : E} (hev : ev handled.state = some e) (hdata : R.protocol.isDataResponse e = true)
    (hstep : R.protocol.transition waiting e = some handled.state) :
    Fills R record handled waiting := by
  refine ⟨some e, e, fun line id => ?_, ?_, rfl, hstep⟩
  · rw [hR, grantFillEvent]
    simp [Handled.decision, hev]
  · simp [hdata]

theorem mesi_ownerHarness :
    OwnerHarness mesiHarness mesiDiscipline .shared .modified mesiFits .snoopRead .snoopWrite where
  toOwnerTable := mesi_table
  unique_eq := rfl
  upgrade_eq := rfl
  agree_eq := rfl
  clean_unowned := fun _ h => h
  unowned_of := fun _ h => h
  modified_stable := rfl
  modified_valid := by decide
  shared_unfit := by
    intro recd h
    rcases mesiFits_owned h with h | h <;> cases h
  invalid_upgrade := rfl
  shared_upgrade := rfl
  fills_shared := by
    intro record handled waiting hst hwaiting
    cases hwaiting
    exact fills_of_grant rfl (e := .dataShared) (hst ▸ rfl) rfl (hst ▸ rfl)
  fills_modified := by
    rintro record handled waiting hst (hwaiting | hwaiting) <;> cases hwaiting
    · exact fills_of_grant rfl (e := .dataModified) (hst ▸ rfl) rfl (hst ▸ rfl)
    · exact fills_of_grant rfl (e := .dataModified) (hst ▸ rfl) rfl (hst ▸ rfl)
  writes_eq := fun _ _ _ _ => rfl
  shares_back := by
    intro line owner ag record handled hsnoops _
    show handled.snoops.any (fun snoop => decide (snoop.event = .snoopRead)) = true
    rw [hsnoops]
    rfl
  joins_clean := fun _ _ hown _ => hown

variable {ag : AgentId}

theorem mesi_granted_first {line} {states : AgentId → MesiState}
    (hagree : mesiDiscipline.agree line states) (hag : states ag = .invalid)
    (hown : line.owner = none) (hemp : line.sharers.isEmpty = true) :
    Nonempty (Granted mesiHarness mesiDiscipline line states ag true .invalidToExclusive) := by
  have hnone : ∀ b, b ∉ line.sharers := Std.TreeSet.isEmpty_iff_forall_not_mem.mp hemp
  have hsame : update states ag MesiState.invalid = states := by
    rw [← hag, update_eq_self]
  exact ⟨{
    handled := ⟨⟨some (ag, .exclusive), line.sharers⟩, [], .exclusive, .backingMemory⟩
    handle_eq := fun address => by
      show Except.ok (mesiReadShared line ag) = _
      rw [mesiReadShared, hown]
      simp [hemp]
    fills := fills_of_grant rfl (e := .dataExclusive) rfl rfl rfl
    stable := rfl
    valid := by
      show MesiState.exclusive ≠ .invalid
      decide
    after := states
    snooped := congrArg some hsame
    agree := by
      refine ⟨fun owner state h => ?_, fun h => ?_⟩
      · cases h
        rw [update_self]
        refine ⟨.inl ⟨rfl, .inl rfl⟩, hnone, fun b hb => ?_⟩
        rw [update_of_ne hb, hagree.sharing hown, if_neg (hnone b)]
      · cases h
    alone := fun h => absurd h (by decide)
    source := .backing hag hown
    writesBack := false
    writesBack_eq := fun _ _ => rfl
    clean := fun h => absurd h (by
      show ¬ (some (ag, MesiState.exclusive) = none)
      simp only [reduceCtorEq, not_false_eq_true]) }⟩

/-- An exclusive or modified cache is the recorded owner, and alone. It may
    become modified without telling the directory. -/
theorem mesi_owned_alone {line} {states : AgentId → MesiState}
    (hagree : mesiDiscipline.agree line states)
    (hag : states ag = .exclusive ∨ states ag = .modified) :
    (∀ b, b ≠ ag → states b = .invalid) ∧ line.owner ≠ none ∧
      mesiDiscipline.agree line (update states ag .modified) := by
  cases hown : line.owner with
  | none =>
    have hst := hagree.sharing hown ag
    rcases hag with hag | hag <;> rw [hag] at hst <;> split at hst <;> cases hst
  | some owner =>
    obtain ⟨owner, recorded⟩ := owner
    obtain ⟨hfits, hnone, hoths⟩ := hagree.owned owner recorded hown
    by_cases hne : ag = owner
    · subst hne
      refine ⟨hoths, by simp, ?_, ?_⟩
      · intro other state h
        rw [hown] at h
        cases h
        rw [update_self]
        refine ⟨?_, hnone, fun b hb => by rw [update_of_ne hb]; exact hoths b hb⟩
        rcases hfits with ⟨hrec, -⟩ | ⟨hrec, -⟩
        · exact .inl ⟨hrec, .inr rfl⟩
        · exact .inr ⟨hrec, rfl⟩
      · intro h
        cases hown.symm.trans h
    · have hinv := hoths ag hne
      rcases hag with hag | hag <;> rw [hag] at hinv <;> cases hinv

theorem mesi_sound : Sound mesiHarness mesiDiscipline where
  invalid_stable := rfl
  invalid_upgrade := rfl
  accepts := by
    intro state read hstab
    cases state <;> cases read <;> first
      | exact ⟨_, rfl⟩
      | cases hstab
  hit := by
    intro line states ag read after hagree _ hstab hstep haft
    -- A read leaves the state; a write hits an owner and makes it modified.
    have hcases : states ag ≠ .invalid ∧ after ≠ .invalid ∧
        ((read = true ∧ after = states ag) ∨
          (read = false ∧ after = .modified ∧
            (states ag = .exclusive ∨ states ag = .modified))) := by
      revert hstab hstep haft
      generalize states ag = state
      cases state <;> cases read <;> intro hstab hstep haft <;> cases hstep <;> first
        | exact ⟨by decide, by decide, by decide⟩
        | cases haft
    rcases hcases with ⟨hheld, hval, ⟨hread, rfl⟩ | ⟨hwr, rfl, howned⟩⟩
    · refine ⟨hheld, hval, by rw [update_eq_self]; exact hagree, fun hwr => ?_⟩
      cases hread.symm.trans hwr
    · obtain ⟨halone, hown, hagree'⟩ := mesi_owned_alone hagree howned
      exact ⟨hheld, hval, hagree', fun _ => ⟨halone, hown⟩⟩
  miss := by
    intro line states ag read waiting hagree _ hstab hstep hwaits
    cases hst : states ag <;> rw [hst] at hstab hstep <;> cases read <;> first
      | exact absurd hstab (by decide)
      | (cases hstep; exact absurd hwaits (by decide))
      | skip
    · exact mesi_ownerHarness.granted_unique hagree hst hstep
    · cases hown : line.owner with
      | none =>
        cases hemp : line.sharers.isEmpty with
        | true =>
          cases hstep
          exact mesi_granted_first hagree hst hown hemp
        | false =>
          refine mesi_ownerHarness.granted_readSharers hagree hst hown ?_ hstep
          show mesiReadShared line ag = _
          rw [mesiReadShared, hown]
          simp [hemp]
      | some owner =>
        refine mesi_ownerHarness.granted_readOwner hagree hst hown (fun hne => ?_) hstep
        show mesiReadShared line ag = _
        rw [mesiReadShared, hown]
        exact if_neg hne
    · exact mesi_ownerHarness.granted_upgrade hagree hst hstep

/-! ## Runs -/

/-- The record lists exactly the valid caches, and an exclusive or modified
    cache is the only valid one. -/
structure MesiRecorded (h : Harness (OwnerLine MesiState) MesiState MesiEvent) : Prop where
  single : ∀ a c, h.caches a = some c → c.state.isOwned = true →
    ∀ b d, b ≠ a → h.caches b = some d → d.state.isValid = false
  listed : ∀ a, (h.directory h.line).Listed a ↔ ∃ c, h.caches a = some c ∧ c.state.isValid = true
  /-- Recorded as exclusive the owner may be modified, never the reverse. -/
  owner : ∀ a recorded, (h.directory h.line).owner = some (a, recorded) →
    ∃ c, h.caches a = some c ∧ mesiFits recorded c.state
  sharers : ∀ a ∈ (h.directory h.line).sharers, ∃ c, h.caches a = some c ∧ c.state = .shared

theorem mesi_settled {st} : settled mesi st = if st.isValid then st else .invalid := by
  cases st <;> rfl

variable {h : Harness (OwnerLine MesiState) MesiState MesiEvent}

theorem mesi_cache_of_states (hheld : h.states mesi ag ≠ .invalid) :
    ∃ c, h.caches ag = some c ∧ c.state = h.states mesi ag ∧ c.state.isValid = true := by
  obtain ⟨c, hc, hstab, hst⟩ := cache_of_states hheld
  refine ⟨c, hc, hst, ?_⟩
  rw [← hst] at hheld
  revert hheld hstab
  cases c.state <;> decide

theorem mesi_states_of_cache {c} (hc : h.caches ag = some c) (hval : c.state.isValid = true) :
    h.states mesi ag = c.state := by
  rw [states_of_cache hc, mesi_settled, if_pos hval]

theorem Coherent.mesiRecorded {layout size Good line}
    (hcoh : Coherent mesiHarness mesiDiscipline layout line size Good h) : MesiRecorded h := by
  have hagree : OwnerAgree .invalid .shared mesiFits (h.directory h.line) (h.states mesi) := by
    rw [hcoh.line_eq]
    exact hcoh.agree
  have howner : ∀ a recorded, (h.directory h.line).owner = some (a, recorded) →
      ∃ c, h.caches a = some c ∧ mesiFits recorded c.state ∧ c.state.isValid = true := by
    intro a recorded h'
    have hfits := (hagree.owned a recorded h').1
    obtain ⟨c, hc, hst, hv⟩ := mesi_cache_of_states (mesi_table.owner_valid recorded _ hfits)
    exact ⟨c, hc, by rw [hst]; exact hfits, hv⟩
  have hsharers : ∀ a ∈ (h.directory h.line).sharers,
      ∃ c, h.caches a = some c ∧ c.state = .shared := by
    intro a ha
    cases ho : (h.directory h.line).owner with
    | some owner => exact absurd ha ((hagree.owned owner.1 owner.2 ho).2.1 a)
    | none =>
      have hst := hagree.sharing ho a
      rw [if_pos ha] at hst
      have hheld : h.states mesi a ≠ .invalid := by
        rw [hst]
        decide
      obtain ⟨c, hc, hcst, -⟩ := mesi_cache_of_states hheld
      exact ⟨c, hc, by rw [hcst, hst]⟩
  refine ⟨?_, fun a => ⟨?_, ?_⟩, fun a recorded h' => ?_, hsharers⟩
  · intro a c hc howned b d hb hd
    have hval : c.state.isValid = true := by
      revert howned
      cases c.state <;> decide
    have hst := mesi_states_of_cache hc hval
    have hst' : h.states mesi a = .exclusive ∨ h.states mesi a = .modified := by
      rw [hst]
      revert howned
      cases c.state <;> decide
    have halone := (mesi_owned_alone hagree hst').1 b hb
    rw [states_of_cache hd, mesi_settled] at halone
    cases hdvalid : d.state.isValid with
    | false => rfl
    | true =>
      rw [if_pos hdvalid] at halone
      rw [halone] at hdvalid
      cases hdvalid
  · rintro (hown | hsharer)
    · obtain ⟨recorded, h'⟩ := (OwnerLine.isOwner_iff _ a).mp hown
      obtain ⟨c, hc, -, hv⟩ := howner a recorded h'
      exact ⟨c, hc, hv⟩
    · obtain ⟨c, hc, hst⟩ := hsharers a hsharer
      exact ⟨c, hc, by rw [hst]; rfl⟩
  · rintro ⟨c, hc, hval⟩
    have hst := mesi_states_of_cache hc hval
    have hheld : h.states mesi a ≠ .invalid := by
      intro hinv
      rw [hst] at hinv
      rw [hinv] at hval
      cases hval
    cases ho : (h.directory h.line).owner with
    | none =>
      refine .inr ?_
      by_contra hnot
      have hinv := hagree.sharing ho a
      rw [if_neg hnot] at hinv
      exact hheld hinv
    | some owner =>
      refine .inl ((OwnerLine.isOwner_iff _ a).mpr ⟨owner.2, ?_⟩)
      by_cases hne : a = owner.1
      · rw [ho, hne]
      · exact absurd ((hagree.owned owner.1 owner.2 ho).2.2 a hne) hheld
  · obtain ⟨c, hc, hfits, -⟩ := howner a recorded h'
    exact ⟨c, hc, hfits⟩

theorem mesi_agree_empty : mesiDiscipline.agree mesiHarness.directory.empty fun _ => .invalid := by
  refine ⟨fun _ _ h => ?_, fun _ b => (if_neg Std.TreeSet.not_mem_emptyc).symm⟩
  cases h

/-- In every run of a fresh MESI harness whose calls all succeed, the caches are
    as recorded after each call, and without block zeros every completed read is
    answered with the bytes left by the latest completed store. -/
theorem mesi_coherent (layout : CacheLineLayout) (lineAddress : Nat) (backing : LineBackingStore)
    (agents : List AgentId) (h : Harness (OwnerLine MesiState) MesiState MesiEvent)
    (hnew : new mesiHarness layout lineAddress backing agents = .ok h) (calls : List Call)
    (call : Call) (hok : Along (next mesiHarness) (Succeeds mesiHarness) h (calls ++ [call])) :
    MesiRecorded (run (next mesiHarness) h (calls ++ [call])) ∧
      ((∀ c ∈ calls ++ [call], c.request.operation ≠ .cacheBlockZero) →
        AnsweredFrom (latest h.initialMemory (h.history mesiHarness calls)) call.request
          ((run (next mesiHarness) h calls).reply mesiHarness call)) := by
  have hisNew := new_spec hnew
  constructor
  · have hstart :
        Coherent mesiHarness mesiDiscipline layout h.line backing.layout.bytes AnyCopy h :=
      coherent_new hisNew rfl mesi_agree_empty (fun _ _ => trivial)
    refine Coherent.mesiRecorded (along_invariant (next mesiHarness)
      (Succeeds mesiHarness)
      (Coherent mesiHarness mesiDiscipline layout h.line backing.layout.bytes AnyCopy)
      (fun s call hcoh hsucceeds => ?_) (calls ++ [call]) h hstart hok)
    exact coherent_next mesi_sound (fun _ _ _ _ _ => trivial) hcoh (fun _ => trivial)
      (fun _ _ _ _ => trivial) ⟨fun _ _ _ _ _ => trivial, fun _ _ _ _ _ => trivial⟩ hsucceeds
  · intro hzero
    refine along_last (next mesiHarness) (completedRequest mesiHarness)
      (fun h call => call.request.operation ≠ .cacheBlockZero ∧ h.Succeeds mesiHarness call)
      (fun s seen => Coherent mesiHarness mesiDiscipline layout h.line backing.layout.bytes
        (Holds layout h.line (latest h.initialMemory seen)) s)
      (fun s call seen => AnsweredFrom (latest h.initialMemory seen) call.request
        (s.reply mesiHarness call))
      (fun s call seen hcoh hP => ?_) calls call h ?_ (along_and_of_forall _ _ _ _ _ hzero hok)
    · rcases data_step mesi_sound hcoh (fun _ => trivial)
        (fun _ hunowned hlong => hcoh.backed hunowned hlong 0) hP.1 (.inl hP.2) with
          ⟨hfails, -⟩ | hdone
      · exact absurd hP.2 hfails
      · exact hdone
    · exact coherent_new hisNew rfl mesi_agree_empty (fun hsize _ => hisNew.backing_window hsize)

/-- A second reader is answered by the owner, and both are recorded as sharers. -/
theorem mesi_second_reader_current :
    ∃ h, new mesiHarness byteLayout 0 (byteBacking 7) [1, 2] = .ok h ∧
      (run (next mesiHarness) h [byteWrite 1 9]).reply mesiHarness (byteRead 2)
        = some ⟨0, .fill, ⟨2, 0⟩, .completed, some [9]⟩ ∧
      MesiRecorded (run (next mesiHarness) h [byteWrite 1 9, byteRead 2]) ∧
      AnsweredFrom (latest h.initialMemory (h.history mesiHarness [byteWrite 1 9]))
        (byteRead 2).request
        ((run (next mesiHarness) h [byteWrite 1 9]).reply mesiHarness (byteRead 2)) := by
  refine ⟨_, rfl, by decide, ?_⟩
  have hrun := mesi_coherent byteLayout 0 (byteBacking 7) [1, 2] _ rfl [byteWrite 1 9] (byteRead 2)
    ⟨⟨_, rfl⟩, ⟨_, rfl⟩, trivial⟩
  exact ⟨hrun.1, hrun.2 (by decide)⟩

/-- A block zero succeeds and is answered as completed, and the next read
    returns the byte it should have zeroed. -/
theorem mesi_block_zero_lost :
    ∃ h record, new mesiHarness byteLayout 0 (byteBacking 7) [1] = .ok h ∧ Along (next mesiHarness)
      (Succeeds mesiHarness) h [byteZero 1, byteRead 1] ∧ h.history mesiHarness [byteZero 1] =
      [(byteZero 1).request] ∧ (run (next mesiHarness) h [byteZero 1]).reply mesiHarness
      (byteRead 1) = some record ∧ record.status = .completed ∧ record.data = some [7] ∧
      (byteRead 1).request.load (latest h.initialMemory (h.history mesiHarness [byteZero 1]))
        = [0] := by
  refine ⟨_, ⟨0, .hit, ⟨1, 0⟩, .completed, some [7]⟩, rfl, ⟨⟨_, rfl⟩, ⟨_, rfl⟩, trivial⟩, rfl, ?_,
    rfl, rfl, ?_⟩
  · decide
  · decide

end Rem6.Coherence
