import Rem6.Coherence.Starved

/-!
# Records with One Owner

What the MSI and MESI directories have in common: a line has an owner or it has
sharers, never both. `OwnerAgree` is that, as a relation between the record and
the states of the caches, with what the owner's cache may be in given what is
recorded of it as a parameter.

The lemmas follow the three requests. Each says what the handler's snoops do to
the caches, where the data comes from, and that record and caches agree again.
They ask little of the state machine, which is collected in `OwnerTable`.

## Main definitions

* `OwnerAgree`: The record names the owner, or exactly the sharers.
* `OwnerTable`: What the lemmas ask of a state machine.
* `OwnerHarness`: What they ask of a harness.
* `OwnerLine.Listed`: The record names an agent.
* `BackingCurrent`: The backing line is what the sharers hold.

## Theorems

* `snoopOthers_states`: Snooping everybody the record names.
* `OwnerAgree.readUnique`: Taking the line away from everybody.
* `OwnerAgree.upgrade`: Taking it from the other sharers.
* `OwnerAgree.readShared_owner`: Joining an owner, who is downgraded.
* `OwnerAgree.readShared_sharers`: Joining the sharers.
* `OwnerHarness.granted_unique` and the others: The same, as grants.
-/

namespace Rem6

namespace Directory

open Memory

theorem mem_insert_iff (agents : AgentSet) (a b : AgentId) :
    a ∈ agents.insert b ↔ a = b ∨ a ∈ agents := by
  rw [Std.TreeSet.mem_insert, Std.LawfulEqCmp.compare_eq_iff_eq, eq_comm]

theorem nodup_toList {ags : AgentSet} : ags.toList.Nodup := by
  refine List.Pairwise.imp (fun {a b} hne heq => hne ?_) ags.distinct_toList
  rwa [Std.LawfulEqCmp.compare_eq_iff_eq]

/-- The record names the agent, as owner or as sharer. -/
def OwnerLine.Listed {S : Type} (line : OwnerLine S) (agent : AgentId) : Prop :=
  line.isOwner agent = true ∨ agent ∈ line.sharers

theorem OwnerLine.isOwner_iff {S : Type} (line : OwnerLine S) (agent : AgentId) :
    line.isOwner agent = true ↔ ∃ st, line.owner = some (agent, st) := by
  unfold OwnerLine.isOwner
  cases hown : line.owner with
  | none => simp
  | some owner =>
    obtain ⟨owner, st⟩ := owner
    simp

theorem OwnerLine.listed_sharers {agent} {S : Type} {sharers : AgentSet} :
    (⟨none, sharers⟩ : OwnerLine S).Listed agent ↔ agent ∈ sharers := by
  refine ⟨fun h => ?_, .inr⟩
  rcases h with hown | hsharer
  · obtain ⟨st, hst⟩ := (OwnerLine.isOwner_iff _ agent).mp hown
    cases hst
  · exact hsharer

end Directory

namespace Coherence

open Memory Protocol Directory Lib

variable {S E : Type} {agent requester rqr owner : AgentId} {invalid recorded recd : S}

theorem snoopSharers_states {P} [DecidableEq S] (hinv : P.isStable P.invalid = true)
    {line : OwnerLine S} {event : E} {states : AgentId → S}
    (hgive : ∀ b ∈ line.sharers, b ≠ requester →
      states b ≠ P.invalid ∧ P.transition (states b) event = some P.invalid) :
    snoopStates P states (line.snoopSharers requester event)
      = some fun b => if b ∈ line.sharers ∧ b ≠ requester then P.invalid else states b := by
  have hmem : ∀ b, b ∈ line.sharers.toList.filter (· ≠ requester) ↔
      b ∈ line.sharers ∧ b ≠ requester := by
    intro b
    rw [List.mem_filter, Std.TreeSet.mem_toList, decide_eq_true_eq]
  have hrun := snoopStates_invalidate event hinv (line.sharers.toList.filter (· ≠ requester)) states
    ((nodup_toList).filter _) (fun b hb => ?_)
  · unfold OwnerLine.snoopSharers
    rw [hrun]
    simp
  · obtain ⟨hsharer, hne⟩ := (hmem b).mp hb
    exact hgive b hsharer hne

/-- The snoops that take a line away from everybody but the requester: first the
    owner, then the sharers. -/
def snoopOthers (line : OwnerLine S) (requester : AgentId) (event : E) : List (DirectorySnoop E) :=
  (match line.owner with
    | some (owner, _) => if owner = requester then [] else [⟨owner, event⟩]
    | none => []) ++ line.snoopSharers requester event

/-- Everybody the record names gives the line up, so nobody is left with it. -/
theorem snoopOthers_states {P} [DecidableEq S] (hinv : P.isStable P.invalid = true)
    (line : OwnerLine S)
    (rqr : AgentId) (ev : E) (states : AgentId → S)
    (hgive : ∀ b, line.Listed b →
      states b ≠ P.invalid ∧ P.transition (states b) ev = some P.invalid)
    (hrest : ∀ b, ¬ line.Listed b → states b = P.invalid)
    (hdis : ∀ owner st, line.owner = some (owner, st) → owner ∉ line.sharers) :
    snoopStates P (Function.update states rqr P.invalid) (snoopOthers line rqr ev)
      = some fun _ => P.invalid := by
  -- With the owner out of the way, the sharers are all that is left.
  have hsharers : ∀ states' : AgentId → S, states' rqr = P.invalid →
      (∀ b, b ≠ rqr → b ∈ line.sharers → states' b = states b) →
      (∀ b, b ≠ rqr → b ∉ line.sharers → states' b = P.invalid) →
      snoopStates P states' (line.snoopSharers rqr ev) = some fun _ => P.invalid := by
    intro states' hreq hsame hoths
    rw [snoopSharers_states hinv]
    · congr 1
      funext b
      by_cases hb : b = rqr
      · rw [if_neg (fun h => h.2 hb), hb, hreq]
      · by_cases hmem : b ∈ line.sharers
        · rw [if_pos ⟨hmem, hb⟩]
        · rw [if_neg (fun h => hmem h.1), hoths b hb hmem]
    · intro b hb hne
      rw [hsame b hne hb]
      exact hgive b (.inr hb)
  unfold snoopOthers
  cases howner : line.owner with
  | none =>
    refine hsharers _ (Function.update_self ..) (fun b hb _ => Function.update_of_ne hb ..) ?_
    intro b hb hmem
    rw [Function.update_of_ne hb]
    refine hrest b ?_
    rintro (hown | hsharer)
    · obtain ⟨st, hst⟩ := (line.isOwner_iff b).mp hown
      cases howner.symm.trans hst
    · exact hmem hsharer
  | some owner =>
    obtain ⟨owner, st⟩ := owner
    have hlisted : line.Listed owner := .inl ((line.isOwner_iff owner).mpr ⟨st, howner⟩)
    have hunl : ∀ b, b ≠ owner → b ∉ line.sharers → ¬ line.Listed b := by
      rintro b hb hmem (hown | hsharer)
      · obtain ⟨st', hst'⟩ := (line.isOwner_iff b).mp hown
        rw [howner, Option.some.injEq, Prod.mk.injEq] at hst'
        exact hb hst'.1.symm
      · exact hmem hsharer
    by_cases hne : owner = rqr
    · simp only [if_pos hne, List.nil_append]
      refine hsharers _ (Function.update_self ..) (fun b hb _ => Function.update_of_ne hb ..) ?_
      intro b hb hmem
      rw [Function.update_of_ne hb]
      exact hrest b (hunl b (fun h => hb (h.trans hne)) hmem)
    · simp only [if_neg hne, List.cons_append, List.nil_append, snoopStates,
        Function.update_of_ne hne, (hgive owner hlisted).2]
      rw [if_pos ⟨(hgive owner hlisted).1, hinv⟩]
      refine hsharers _ ?_ (fun b hb hmem => ?_) (fun b hb hmem => ?_)
      · rw [Function.update_of_ne (fun h => hne h.symm), Function.update_self]
      · have hbo : b ≠ owner := fun h => hdis owner st howner (h ▸ hmem)
        rw [Function.update_of_ne hbo, Function.update_of_ne hb]
      · by_cases hbo : b = owner
        · rw [hbo, Function.update_self]
        · rw [Function.update_of_ne hbo, Function.update_of_ne hb]
          exact hrest b (hunl b hbo hmem)

theorem acceptReadUnique_snoops {modified : S} {snoopWrite : E} {line : OwnerLine S} :
    (OwnerLine.acceptReadUnique modified snoopWrite line rqr).snoops
      = snoopOthers line rqr snoopWrite := by
  unfold OwnerLine.acceptReadUnique snoopOthers
  cases line.owner with
  | none => rfl
  | some owner =>
    obtain ⟨owner, st⟩ := owner
    by_cases hne : owner = rqr
    · simp [if_pos hne]
    · simp [if_neg hne]

/-- Taking the line away leaves the requester as owner, whatever the record. A
    requester that the record does not name is given data, from the owner or
    from the backing line. -/
theorem acceptReadUnique_taken {line} (modified : S) (snoopWrite : E)
    (hfree : ¬ line.Listed requester) :
    let handled := OwnerLine.acceptReadUnique modified snoopWrite line requester
    handled.after = ⟨some (requester, modified), ∅⟩ ∧ handled.state = modified ∧
      ((handled.dataSource = .backingMemory ∧ line.owner = none) ∨
        ∃ owner, handled.dataSource = .ownerCache owner ∧ owner ≠ requester ∧
          line.Listed owner) := by
  simp only [OwnerLine.acceptReadUnique]
  cases hown : line.owner with
  | none =>
    have hnot : requester ∉ line.sharers := fun h => hfree (.inr h)
    exact ⟨rfl, rfl, .inl ⟨if_neg hnot, rfl⟩⟩
  | some owner =>
    obtain ⟨owner, state⟩ := owner
    have hlisted : line.Listed owner := .inl ((line.isOwner_iff owner).mpr ⟨state, hown⟩)
    have hne : owner ≠ requester := by
      rintro rfl
      exact hfree hlisted
    simp only [if_neg hne]
    exact ⟨trivial, trivial, .inr ⟨owner, rfl, hne, hlisted⟩⟩

/-- The record names the owner, or exactly the sharers. What the owner's cache
    may be in, given what is recorded, is `fits`. -/
structure OwnerAgree (invalid shared : S) (fits : S → S → Prop) (line : OwnerLine S)
    (states : AgentId → S) : Prop where
  owned : ∀ owner state, line.owner = some (owner, state) →
    fits state (states owner) ∧ (∀ b, b ∉ line.sharers) ∧ ∀ b, b ≠ owner → states b = invalid
  sharing : line.owner = none → ∀ b, states b = if b ∈ line.sharers then shared else invalid

/-- What the lemmas below ask of a state machine: how a held line reacts to the
    two snoops. -/
structure OwnerTable (P : LineProtocol S E) (shared modified : S) (fits : S → S → Prop)
    (snoopRead snoopWrite : E) : Prop where
  invalid_stable : P.isStable P.invalid = true
  shared_stable : P.isStable shared = true
  shared_valid : shared ≠ P.invalid
  owner_valid : ∀ recorded state, fits recorded state → state ≠ P.invalid
  owner_gives : ∀ recorded state, fits recorded state →
    P.transition state snoopWrite = some P.invalid
  shared_gives : P.transition shared snoopWrite = some P.invalid
  owner_shares : ∀ recorded state, fits recorded state → P.transition state snoopRead = some shared
  modified_fits : fits modified modified

section Requests

variable {P : LineProtocol S E} {shared modified : S} {fits : S → S → Prop}
  {snoopRead snoopWrite : E} {line : OwnerLine S} {states : AgentId → S} {agent : AgentId}

theorem ownerAgree_taken (T : OwnerTable P shared modified fits snoopRead snoopWrite) :
    OwnerAgree P.invalid shared fits ⟨some (agent, modified), ∅⟩
      (Function.update (fun _ => P.invalid) agent modified) := by
  refine ⟨fun owner st hown => ?_, fun hnone => ?_⟩
  · cases hown
    rw [Function.update_self]
    refine ⟨T.modified_fits, fun b => Std.TreeSet.not_mem_emptyc, fun b hb => ?_⟩
    rw [Function.update_of_ne hb]
  · cases hnone

/-- Whoever the record names holds the line, and gives it up when told to; the
    others hold nothing. -/
theorem OwnerAgree.listed (T : OwnerTable P shared modified fits snoopRead snoopWrite)
    (hagree : OwnerAgree P.invalid shared fits line states) (b : AgentId) :
    (line.Listed b → states b ≠ P.invalid ∧ P.transition (states b) snoopWrite = some P.invalid) ∧
      (¬ line.Listed b → states b = P.invalid) := by
  refine ⟨fun hlisted => ?_, fun hfree => ?_⟩
  · rcases hlisted with hown | hsharer
    · obtain ⟨st, howner⟩ := (line.isOwner_iff b).mp hown
      have hfits := (hagree.owned b st howner).1
      exact ⟨T.owner_valid st _ hfits, T.owner_gives st _ hfits⟩
    · cases howner : line.owner with
      | some owner => exact absurd hsharer ((hagree.owned owner.1 owner.2 howner).2.1 b)
      | none =>
        rw [hagree.sharing howner, if_pos hsharer]
        exact ⟨T.shared_valid, T.shared_gives⟩
  · cases howner : line.owner with
    | none => rw [hagree.sharing howner, if_neg (fun h => hfree (.inr h))]
    | some owner =>
      refine (hagree.owned owner.1 owner.2 howner).2.2 b (fun h => hfree (.inl ?_))
      exact (line.isOwner_iff b).mpr ⟨owner.2, by rw [howner, h]⟩

theorem OwnerAgree.disjoint (hagree : OwnerAgree P.invalid shared fits line states) :
    ∀ owner st, line.owner = some (owner, st) → owner ∉ line.sharers :=
  fun owner st hown => (hagree.owned owner st hown).2.1 owner

/-- A reader joins the sharers, of whom there may be none. -/
theorem OwnerAgree.readShared_sharers (hagree : OwnerAgree invalid shared fits line states)
    (hown : line.owner = none) :
    OwnerAgree invalid shared fits ⟨none, line.sharers.insert agent⟩
      (Function.update states agent shared) := by
  refine ⟨fun _ _ h => ?_, fun _ b => ?_⟩
  · cases h
  · simp only [mem_insert_iff]
    by_cases hb : b = agent
    · rw [hb, Function.update_self, if_pos (.inl rfl)]
    · rw [Function.update_of_ne hb, hagree.sharing hown]
      split
      next hmem => rw [if_pos (.inr hmem)]
      next hmem => rw [if_neg (fun h => h.elim hb hmem)]

variable [DecidableEq S]

/-- Taking the line away from everybody leaves nobody with a copy. -/
theorem OwnerAgree.readUnique (T : OwnerTable P shared modified fits snoopRead snoopWrite)
    (hagree : OwnerAgree P.invalid shared fits line states) (agent : AgentId) :
    snoopStates P (Function.update states agent P.invalid) (snoopOthers line agent snoopWrite)
      = some (fun _ => P.invalid) :=
  snoopOthers_states T.invalid_stable line agent snoopWrite states
    (fun b => (hagree.listed T b).1) (fun b => (hagree.listed T b).2) hagree.disjoint

/-- A sharer that wants to write takes the line from the other sharers, and keeps
    its data. -/
theorem OwnerAgree.upgrade (T : OwnerTable P shared modified fits snoopRead snoopWrite)
    (hagree : OwnerAgree P.invalid shared fits line states) (hag : states agent = shared)
    (hfits : ∀ recd, ¬ fits recd shared) :
    (∀ adr, OwnerLine.acceptUpgrade modified snoopWrite adr line agent
      = .ok ⟨⟨some (agent, modified), ∅⟩, line.snoopSharers agent snoopWrite, modified, .noData⟩) ∧
      snoopStates P (Function.update states agent P.invalid) (line.snoopSharers agent snoopWrite)
        = some (fun _ => P.invalid) := by
  -- An owner fits its record, and a sharer does not.
  have hown : line.owner = none := by
    cases hown : line.owner with
    | none => rfl
    | some owner =>
      obtain ⟨owner, recd⟩ := owner
      obtain ⟨hfit, -, hoths⟩ := hagree.owned owner recd hown
      by_cases hne : agent = owner
      · subst hne
        rw [hag] at hfit
        exact absurd hfit (hfits recd)
      · have hinv := hoths agent hne
        rw [hag] at hinv
        exact absurd hinv T.shared_valid
  have hshared := hagree.sharing hown
  have hsharer : agent ∈ line.sharers := by
    by_contra hnot
    have hinv := hshared agent
    rw [if_neg hnot, hag] at hinv
    exact T.shared_valid hinv
  refine ⟨fun adr => ?_, ?_⟩
  · have hnotOwner : line.isOwner agent = false := by
      rw [OwnerLine.isOwner, hown]
    unfold OwnerLine.acceptUpgrade
    simp [hnotOwner, hsharer]
  · have hall := hagree.readUnique T agent
    rwa [snoopOthers, hown, List.nil_append] at hall

/-- A reader joins an owner: the owner is downgraded, and both share. -/
theorem OwnerAgree.readShared_owner {recorded}
    (T : OwnerTable P shared modified fits snoopRead snoopWrite)
    (hagree : OwnerAgree P.invalid shared fits line states) (hag : states agent = P.invalid)
    (hown : line.owner = some (owner, recorded)) :
    owner ≠ agent ∧ states owner ≠ P.invalid ∧
      snoopStates P (Function.update states agent P.invalid) [⟨owner, snoopRead⟩]
        = some (Function.update states owner shared) ∧
      OwnerAgree P.invalid shared fits ⟨none, (line.sharers.insert owner).insert agent⟩
        (Function.update (Function.update states owner shared) agent shared) := by
  obtain ⟨hfit, hnone, hoths⟩ := hagree.owned owner recorded hown
  have hne : owner ≠ agent := by
    rintro rfl
    exact T.owner_valid recorded _ hfit hag
  have hheld := T.owner_valid recorded _ hfit
  refine ⟨hne, hheld, ?_, fun _ _ h => ?_, fun _ b => ?_⟩
  · have hsame : Function.update states agent P.invalid = states := by
      rw [← hag, Function.update_eq_self]
    rw [hsame]
    simp only [snoopStates, T.owner_shares recorded _ hfit]
    rw [if_pos ⟨hheld, T.shared_stable⟩]
  · cases h
  · simp only [mem_insert_iff]
    by_cases hb : b = agent
    · rw [hb, Function.update_self, if_pos (.inl rfl)]
    · rw [Function.update_of_ne hb]
      by_cases hbo : b = owner
      · rw [hbo, Function.update_self, if_pos (.inr (.inl rfl))]
      · rw [Function.update_of_ne hbo, hoths b hbo,
          if_neg (fun h => h.elim hb (fun h => h.elim hbo (hnone b)))]

end Requests

/-! ## Grants -/

/-- A harness over records with one owner: its handlers are the common ones, and
    its fills end in the state that was granted. -/
structure OwnerHarness (R : HarnessRules (OwnerLine S) S E) (Δ : Discipline (OwnerLine S) S)
    (shared modified : S) (fits : S → S → Prop) (snoopRead snoopWrite : E) : Prop extends
    OwnerTable R.protocol shared modified fits snoopRead snoopWrite where
  unique_eq : R.directory.acceptReadUnique = OwnerLine.acceptReadUnique modified snoopWrite
  upgrade_eq : R.directory.acceptUpgrade = OwnerLine.acceptUpgrade modified snoopWrite
  agree_eq : Δ.agree = OwnerAgree R.protocol.invalid shared fits
  clean_unowned : ∀ line, Δ.clean line → line.owner = none
  unowned_of : ∀ line, line.owner = none → Δ.unowned line
  modified_stable : R.protocol.isStable modified = true
  modified_valid : modified ≠ R.protocol.invalid
  shared_unfit : ∀ recorded, ¬ fits recorded shared
  invalid_upgrade : R.protocol.upgradesFrom R.protocol.invalid = false
  shared_upgrade : R.protocol.upgradesFrom shared = true
  fills_shared : ∀ record handled waiting, handled.state = shared → R.protocol.transition
    R.protocol.invalid R.protocol.cpuRead = some waiting → Fills R record handled waiting
  fills_modified : ∀ record handled waiting, handled.state = modified →
    R.protocol.transition R.protocol.invalid R.protocol.cpuWrite = some waiting ∨
      R.protocol.transition shared R.protocol.cpuWrite = some waiting →
    Fills R record handled waiting
  /-- Writing back depends on the record and on the handler's decision. -/
  writes_eq : ∀ record (handled : Handled (OwnerLine S) S E) line id,
    R.writesBack (handled.decision line id record) = R.writesBack (handled.decision 0 ⟨0, 0⟩ record)
  /-- If a downgraded owner leaves the line clean, its data was written back. -/
  shares_back : ∀ (line : OwnerLine S) owner agent record (handled : Handled (OwnerLine S) S E),
    handled.snoops = [⟨owner, snoopRead⟩] → Δ.clean ⟨none, (line.sharers.insert owner).insert agent⟩
    → R.writesBack (handled.decision 0 ⟨0, 0⟩ record) = true
  joins_clean : ∀ (line : OwnerLine S) agent, line.owner = none →
    Δ.clean ⟨none, line.sharers.insert agent⟩ → Δ.clean line

section Grants

variable [DecidableEq S] {R : HarnessRules (OwnerLine S) S E} {Δ : Discipline (OwnerLine S) S}
  {shared modified : S} {fits : S → S → Prop} {snoopRead snoopWrite : E} {line : OwnerLine S}
  {states : AgentId → S} {agent : AgentId} {waiting : S}

/-- A write miss without a copy. -/
theorem OwnerHarness.granted_unique (H : OwnerHarness R Δ shared modified fits snoopRead snoopWrite)
    (hagree : Δ.agree line states) (hag : states agent = R.protocol.invalid)
    (hwaiting : R.protocol.transition R.protocol.invalid R.protocol.cpuWrite = some waiting) :
    Nonempty (Granted R Δ line states agent false waiting) := by
  rw [H.agree_eq] at hagree
  have hkind : missKind R.protocol false (states agent) = .readUnique := by
    rw [missKind, hag, H.invalid_upgrade]
    rfl
  have hfree : ¬ line.Listed agent := fun h => ((hagree.listed H.toOwnerTable agent).1 h).1 hag
  rcases acceptReadUnique_taken modified snoopWrite hfree with
    ⟨haft, hst, hsrc⟩
  have hsnooped := hagree.readUnique H.toOwnerTable agent
  rw [← acceptReadUnique_snoops] at hsnooped
  generalize hhandled : OwnerLine.acceptReadUnique modified snoopWrite line agent = handled at *
  have hunclean : ¬ Δ.clean handled.after := by
    intro hclean
    have hnone := H.clean_unowned _ hclean
    simp [haft] at hnone
  refine ⟨{
    handled
    handle_eq := fun adr => by
      rw [hkind, ← hhandled, ← H.unique_eq]
      rfl
    fills := H.fills_modified line handled waiting hst (.inl hwaiting)
    stable := by rw [hst]; exact H.modified_stable
    valid := by rw [hst]; exact H.modified_valid
    after := fun _ => R.protocol.invalid
    snooped := hsnooped
    agree := by
      rw [H.agree_eq, haft, hst]
      exact ownerAgree_taken H.toOwnerTable
    alone := fun _ => ⟨fun _ _ => rfl, hunclean⟩
    source := ?_
    writesBack := _
    writesBack_eq := H.writes_eq line handled
    clean := fun hclean => absurd hclean hunclean }⟩
  rcases hsrc with ⟨hsrc, hown⟩ | ⟨owner, hsrc, hne, hlisted⟩
  · rw [hsrc]
    exact .backing hag (H.unowned_of line hown)
  · rw [hsrc, hkind]
    exact .owner owner hne ((hagree.listed H.toOwnerTable owner).1 hlisted).1
      (fun h => absurd h (by decide))

theorem OwnerHarness.granted_upgrade
    (H : OwnerHarness R Δ shared modified fits snoopRead snoopWrite) (hagree : Δ.agree line states)
    (hag : states agent = shared)
    (hwaiting : R.protocol.transition shared R.protocol.cpuWrite = some waiting) :
    Nonempty (Granted R Δ line states agent false waiting) := by
  rw [H.agree_eq] at hagree
  have hkind : missKind R.protocol false (states agent) = .upgrade := by
    rw [missKind, hag, H.shared_upgrade]
    rfl
  obtain ⟨hhandled, hsnooped⟩ := hagree.upgrade H.toOwnerTable hag H.shared_unfit
  have hunclean : ¬ Δ.clean (⟨some (agent, modified), ∅⟩ : OwnerLine S) := by
    intro hclean
    cases H.clean_unowned _ hclean
  exact ⟨{
    handled := ⟨⟨some (agent, modified), ∅⟩, line.snoopSharers agent snoopWrite, modified, .noData⟩
    handle_eq := fun adr => by
      rw [hkind, ← hhandled adr, ← H.upgrade_eq]
      rfl
    fills := H.fills_modified line _ waiting rfl (.inr hwaiting)
    stable := H.modified_stable
    valid := H.modified_valid
    after := fun _ => R.protocol.invalid
    snooped := hsnooped
    agree := by
      rw [H.agree_eq]
      exact ownerAgree_taken H.toOwnerTable
    alone := fun _ => ⟨fun _ _ => rfl, hunclean⟩
    source := .none hkind
    writesBack := _
    writesBack_eq := H.writes_eq line _
    clean := fun hclean => absurd hclean hunclean }⟩

theorem OwnerHarness.granted_readOwner
    (H : OwnerHarness R Δ shared modified fits snoopRead snoopWrite) (hagree : Δ.agree line states)
    (hag : states agent = R.protocol.invalid) (hown : line.owner = some (owner, recd))
    (hread : owner ≠ agent → R.directory.acceptReadShared line agent
      = ⟨⟨none, (line.sharers.insert owner).insert agent⟩, [⟨owner, snoopRead⟩], shared,
          .ownerCache owner⟩)
    (hwaiting : R.protocol.transition R.protocol.invalid R.protocol.cpuRead = some waiting) :
    Nonempty (Granted R Δ line states agent true waiting) := by
  rw [H.agree_eq] at hagree
  obtain ⟨hne, hheld, hsnooped, haft⟩ := hagree.readShared_owner H.toOwnerTable hag hown
  exact ⟨{
    handled := ⟨⟨none, (line.sharers.insert owner).insert agent⟩, [⟨owner, snoopRead⟩], shared,
      .ownerCache owner⟩
    handle_eq := fun adr => by
      rw [← hread hne]
      rfl
    fills := H.fills_shared line _ waiting rfl hwaiting
    stable := H.shared_stable
    valid := H.shared_valid
    after := Function.update states owner shared
    snooped := hsnooped
    agree := by
      rwa [H.agree_eq]
    alone := fun h => absurd h (by decide)
    source := .owner owner hne hheld (fun h => by cases h)
    writesBack := _
    writesBack_eq := H.writes_eq line _
    clean := fun hclean => .inr ⟨H.shares_back line owner agent line _ rfl hclean, owner, rfl⟩ }⟩

theorem OwnerHarness.granted_readSharers
    (H : OwnerHarness R Δ shared modified fits snoopRead snoopWrite) (hagree : Δ.agree line states)
    (hag : states agent = R.protocol.invalid) (hown : line.owner = none)
    (hread : R.directory.acceptReadShared line agent
      = ⟨⟨none, line.sharers.insert agent⟩, [], shared, .backingMemory⟩)
    (hwaiting : R.protocol.transition R.protocol.invalid R.protocol.cpuRead = some waiting) :
    Nonempty (Granted R Δ line states agent true waiting) := by
  rw [H.agree_eq] at hagree
  have hsame : Function.update states agent R.protocol.invalid = states := by
    rw [← hag, Function.update_eq_self]
  exact ⟨{
    handled := ⟨⟨none, line.sharers.insert agent⟩, [], shared, .backingMemory⟩
    handle_eq := fun adr => by
      rw [← hread]
      rfl
    fills := H.fills_shared line _ waiting rfl hwaiting
    stable := H.shared_stable
    valid := H.shared_valid
    after := states
    snooped := congrArg some hsame
    agree := by
      rw [H.agree_eq]
      exact hagree.readShared_sharers hown
    alone := fun h => absurd h (by decide)
    source := .backing hag (H.unowned_of line hown)
    writesBack := _
    writesBack_eq := H.writes_eq line _
    clean := fun hclean => .inl (H.joins_clean line agent hown hclean) }⟩

end Grants

/-! ## What is asked of the handlers where nobody can be served -/

section Unlisted

/-- Taking the line away, for a requester the record does not name: the source
    is named by it, and so is everybody who is snooped. -/
theorem acceptReadUnique_unlisted {line} (modified : S) (snoopWrite : E)
    (hfree : ¬ line.Listed agent) :
    let handled := OwnerLine.acceptReadUnique modified snoopWrite line agent
    handled.dataSource ≠ .noData ∧
      (∀ owner, handled.dataSource = .ownerCache owner → line.Listed owner) ∧
      (∀ a, handled.after.Listed a → line.Listed a ∨ a = agent) ∧
      ∀ snoop ∈ handled.snoops, line.Listed snoop.target ∧ snoop.event = snoopWrite := by
  have hsharers : ∀ snoop ∈ line.snoopSharers agent snoopWrite,
      line.Listed snoop.target ∧ snoop.event = snoopWrite := by
    intro snoop hsnoop
    unfold OwnerLine.snoopSharers at hsnoop
    obtain ⟨b, hb, rfl⟩ := List.mem_map.mp hsnoop
    exact ⟨.inr (Std.TreeSet.mem_toList.mp (List.mem_filter.mp hb).1), rfl⟩
  have htaken : ∀ a, (⟨some (agent, modified), ∅⟩ : OwnerLine S).Listed a →
      line.Listed a ∨ a = agent := by
    intro a hlisted
    rcases hlisted with hown | hsharer
    · exact .inr (of_decide_eq_true hown).symm
    · exact absurd hsharer Std.TreeSet.not_mem_emptyc
  simp only [OwnerLine.acceptReadUnique]
  cases hown : line.owner with
  | none =>
    have hnot : agent ∉ line.sharers := fun h => hfree (.inr h)
    simp only [if_neg hnot]
    refine ⟨by simp, fun owner h => ?_, htaken,
      hsharers⟩
    cases h
  | some owner =>
    obtain ⟨owner, recd⟩ := owner
    have hlisted : line.Listed owner := .inl ((line.isOwner_iff owner).mpr ⟨recd, hown⟩)
    have hne : owner ≠ agent := by
      rintro rfl
      exact hfree hlisted
    simp only [if_neg hne]
    refine ⟨by simp, fun other h => ?_, htaken, ?_⟩
    · rw [DirectoryDataSource.ownerCache.injEq] at h
      exact h ▸ hlisted
    · intro snoop hsnoop
      rcases List.mem_append.mp hsnoop with hfirst | hrest
      · rw [List.mem_singleton] at hfirst
        exact hfirst ▸ ⟨hlisted, rfl⟩
      · exact hsharers snoop hrest

theorem readOwner_unlisted {recorded} (shared : S) (snoopRead : E) {line : OwnerLine S}
    (hown : line.owner = some (owner, recorded)) :
    let handled : Handled (OwnerLine S) S E :=
      ⟨⟨none, (line.sharers.insert owner).insert agent⟩, [⟨owner, snoopRead⟩], shared,
        .ownerCache owner⟩
    handled.dataSource ≠ .noData ∧
      (∀ owner, handled.dataSource = .ownerCache owner → line.Listed owner) ∧
      (∀ a, handled.after.Listed a → line.Listed a ∨ a = agent) ∧
      ∀ snoop ∈ handled.snoops, line.Listed snoop.target ∧ snoop.event = snoopRead := by
  have hlisted : line.Listed owner := .inl ((line.isOwner_iff owner).mpr ⟨recorded, hown⟩)
  refine ⟨by simp, fun other h => ?_,
    fun a h => ?_, fun snoop hmem => ?_⟩
  · rw [DirectoryDataSource.ownerCache.injEq] at h
    exact h ▸ hlisted
  · rw [OwnerLine.listed_sharers, mem_insert_iff, mem_insert_iff] at h
    rcases h with rfl | rfl | hbef
    · exact .inr rfl
    · exact .inl hlisted
    · exact .inl (.inr hbef)
  · rw [List.mem_singleton] at hmem
    exact hmem ▸ ⟨hlisted, rfl⟩

/-- A directory with one owner never grants the line without data to an agent it
    does not name, and snoops only agents it names. -/
theorem owner_withholds {R} (shared modified : S) (snoopRead snoopWrite : E)
    (hstab : R.protocol.isStable R.protocol.invalid = true)
    (hupgrade : R.protocol.upgradesFrom R.protocol.invalid = false)
    (hwaits : ∀ read, ∃ after,
      R.protocol.transition R.protocol.invalid (requestEvent R.protocol read) = some after ∧
        R.protocol.isStable after = false)
    (hrefuses : ∀ st, R.protocol.isStable st = false →
      R.protocol.transition st snoopRead = none ∧ R.protocol.transition st snoopWrite = none)
    (hemp : R.directory.empty = .empty)
    (huniq : R.directory.acceptReadUnique = OwnerLine.acceptReadUnique modified snoopWrite)
    (hreadOwner : ∀ (line : OwnerLine S) owner recd agent,
      line.owner = some (owner, recd) → owner ≠ agent →
      R.directory.acceptReadShared line agent
        = ⟨⟨none, (line.sharers.insert owner).insert agent⟩, [⟨owner, snoopRead⟩], shared,
            .ownerCache owner⟩)
    (hreadFree : ∀ (line : OwnerLine S) agent, line.owner = none →
      ∃ after st, R.directory.acceptReadShared line agent = ⟨after, [], st, .backingMemory⟩ ∧
        ∀ a, after.Listed a → line.Listed a ∨ a = agent) : Withholds R OwnerLine.Listed := by
  refine ⟨hstab, hupgrade, hwaits, fun agent hlisted => ?_, fun line agent kind hkind hfree => ?_⟩
  · rw [hemp] at hlisted
    exact absurd (OwnerLine.listed_sharers.mp hlisted) Std.TreeSet.not_mem_emptyc
  · cases kind with
    | upgrade => exact absurd rfl hkind
    | readUnique =>
      rcases acceptReadUnique_unlisted modified snoopWrite hfree with
        ⟨hsrc, hown, haft, hsnoops⟩
      refine ⟨_, fun _ => rfl, ?_⟩
      rw [huniq]
      refine ⟨hsrc, hown, haft, fun snoop hmem => ?_⟩
      obtain ⟨hlisted, hev⟩ := hsnoops snoop hmem
      exact ⟨hlisted, fun st hst => hev ▸ (hrefuses st hst).2⟩
    | readShared =>
      cases hown : line.owner with
      | none =>
        obtain ⟨after, st, hread, haft⟩ := hreadFree line agent hown
        refine ⟨_, fun _ => congrArg Except.ok hread,
          by simp, fun _ h => ?_, haft,
          by simp⟩
        cases h
      | some owner =>
        obtain ⟨owner, recd⟩ := owner
        have hne : owner ≠ agent := by
          rintro rfl
          exact hfree (.inl ((line.isOwner_iff owner).mpr ⟨recd, hown⟩))
        rcases readOwner_unlisted shared snoopRead hown with
          ⟨hsrc, howners, haft, hsnoops⟩
        refine ⟨_, fun _ => congrArg Except.ok (hreadOwner line owner recd agent hown hne),
          hsrc, howners, haft, fun snoop hmem => ?_⟩
        obtain ⟨hlisted, hev⟩ := hsnoops snoop hmem
        exact ⟨hlisted, fun st hst => hev ▸ (hrefuses st hst).1⟩

end Unlisted

/-! ## A backing line that is not written -/

/-- The backing line is what the sharers hold, at a call that will be answered
    from it: the requester has no copy, and nobody is recorded as owner. -/
def BackingCurrent {S E : Type} (P : LineProtocol S E) (h : Harness (OwnerLine S) S E)
    (call : Call) : Prop :=
  (∃ c, h.caches call.agent = some c ∧ c.state = P.invalid) → (h.directory h.line).owner = none →
    ∀ b ∈ (h.directory h.line).sharers, ∀ c, h.caches b = some c →
      c.data = some (h.backing.data.take c.layout.bytes)

/-- At such a call the backing line is a window of the memory: a sharer's copy is
    one, and without sharers the line is clean. -/
theorem Coherent.backing_current {layout line size call}
    {R : HarnessRules (OwnerLine S) S E} {Δ : Discipline (OwnerLine S) S}
    {h : Harness (OwnerLine S) S E} {mem : Nat → UInt8}
    (hcoh : Coherent R Δ layout line size (Holds layout line mem) h)
    (hcur : BackingCurrent R.protocol h call)
    (hreq : ∃ c, h.caches call.agent = some c ∧ c.state = R.protocol.invalid)
    (hown : (h.directory line).owner = none)
    (hclean : (∀ b, b ∉ (h.directory line).sharers) → Δ.clean (h.directory line))
    (hheld : ∀ b ∈ (h.directory line).sharers, h.states R.protocol b ≠ R.protocol.invalid)
    (hlong : layout.bytes ≤ size) :
    h.backing.data.take layout.bytes = window mem line layout.bytes := by
  by_cases hnone : ∀ b, b ∉ (h.directory line).sharers
  · exact hcoh.backed (hclean hnone) hlong 0
  · obtain ⟨b, hb⟩ := not_forall_not.mp hnone
    have hst := hheld b hb
    obtain ⟨c, hc, _⟩ := Harness.cache_of_states hst
    rw [Harness.states_of_cache hc] at hst
    have hok := hcoh.copies b c hc
    obtain ⟨data, hdata, -, hgood⟩ := hok.held hst
    have hsame := hcur hreq (by rw [hcoh.line_eq]; exact hown) b
      (by rw [hcoh.line_eq]; exact hb) c hc
    rw [hdata, Option.some.injEq, hok.layout_eq] at hsame
    rwa [← hsame]

end Coherence

end Rem6
