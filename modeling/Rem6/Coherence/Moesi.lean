import Rem6.Coherence.Mesi

/-!
# The MOESI Harness

`MoesiDirectoryLineHarness` over whole runs. A modified owner that is read stays
the owner, in state owned, and supplies the data to every further reader, so the
backing line may stay behind for as long as the owner is recorded. Two things
undo this:

* An owner recorded as exclusive may have been written. When it is read the
  directory drops it as owner, though its cache moves to owned: the newest data
  is in a cache nobody is referred to, and the next agent that misses is
  answered from the backing line.
* The recorded owner asks for ownership like a sharer does, and is granted it
  without a snoop. Its sharers keep their copies, beside a modified one.

The second breaks the single-writer property and the protocol's own check on
the states; both break the data. The discipline here leaves the second out, and
the data of the first is a question of what is good; what follows for runs is in
`Rem6.Coherence.MoesiRuns`.

## Main definitions

* `MoesiAgree`, `moesiDiscipline`: How the record describes the caches.

## Theorems

* `MoesiAgree.listed`: The record names exactly the holders.
* `moesi_granted_unique` and the others: The requests, as grants.
* `moesi_sound`: The tables keep the discipline, the owner's upgrade apart.
-/

namespace Rem6.Coherence

open Memory Protocol Cache Directory Lib MoesiState Function

/-- The record names an owner that is alone, an owner with sharers, or only
    sharers, one of whom may have been dropped as owner. -/
structure MoesiAgree (line : OwnerLine MoesiState) (states : AgentId → MoesiState) : Prop where
  alone : ∀ owner recorded, line.owner = some (owner, recorded) → recorded ≠ .owned →
    ((recorded = .exclusive ∧ (states owner = .exclusive ∨ states owner = .modified)) ∨
      (recorded = .modified ∧ states owner = .modified)) ∧
    (∀ b, b ∉ line.sharers) ∧ ∀ b, b ≠ owner → states b = .invalid
  owned : ∀ owner, line.owner = some (owner, .owned) →
    states owner = .owned ∧ owner ∉ line.sharers ∧
      ∀ b, b ≠ owner → states b = if b ∈ line.sharers then .shared else .invalid
  sharing : line.owner = none → (∀ b ∈ line.sharers, states b = .shared ∨ states b = .owned) ∧
    (∀ b, b ∉ line.sharers → states b = .invalid) ∧ ∀ a b, states a = .owned → states b = .owned → a
    = b

/-- Writes by the owner of a shared line are left out: they are granted without
    a snoop. -/
def moesiDiscipline : Discipline (OwnerLine MoesiState) MoesiState where
  agree := MoesiAgree
  clean line := line.owner = none ∧ ∀ b, b ∉ line.sharers
  unowned line := line.owner = none
  allowed line agent read := read = false → line.owner ≠ some (agent, .owned)

section Agree

variable {line : OwnerLine MoesiState} {states : AgentId → MoesiState} {agent : AgentId}

theorem moesi_gives {st} (h : st.isValid = true) :
    st ≠ moesi.invalid ∧ moesi.transition st .snoopWrite = some moesi.invalid := by
  cases st <;> first
    | exact ⟨by decide, rfl⟩
    | cases h

/-- Whoever the record names holds the line, and the others hold nothing. -/
theorem MoesiAgree.listed (hagree : MoesiAgree line states) (b : AgentId) :
    (line.Listed b → (states b).isValid = true) ∧ (¬ line.Listed b → states b = .invalid) := by
  cases howner : line.owner with
  | none =>
    obtain ⟨hsharers, hoths, -⟩ := hagree.sharing howner
    have hiff : line.Listed b ↔ b ∈ line.sharers := by
      refine ⟨fun h => h.elim (fun hown => ?_) id, .inr⟩
      obtain ⟨st, hst⟩ := (line.isOwner_iff b).mp hown
      cases howner.symm.trans hst
    rw [hiff]
    refine ⟨fun hb => ?_, hoths b⟩
    rcases hsharers b hb with hst | hst <;> rw [hst] <;> rfl
  | some owner =>
    obtain ⟨owner, recd⟩ := owner
    have hself : line.Listed owner := .inl ((line.isOwner_iff owner).mpr ⟨recd, howner⟩)
    have hoth : b ≠ owner → (line.Listed b ↔ b ∈ line.sharers) := by
      intro hb
      refine ⟨fun h => h.elim (fun hown => ?_) id, .inr⟩
      obtain ⟨st, hst⟩ := (line.isOwner_iff b).mp hown
      rw [howner, Option.some.injEq, Prod.mk.injEq] at hst
      exact absurd hst.1.symm hb
    by_cases hrec : recd = .owned
    · subst hrec
      obtain ⟨hst, -, hoths⟩ := hagree.owned owner howner
      by_cases hb : b = owner
      · subst hb
        exact ⟨fun _ => by rw [hst]; rfl, fun h => absurd hself h⟩
      · rw [hoth hb, hoths b hb]
        refine ⟨fun h => by rw [if_pos h]; rfl, fun h => if_neg h⟩
    · obtain ⟨hst, hnone, hoths⟩ := hagree.alone owner recd howner hrec
      by_cases hb : b = owner
      · subst hb
        refine ⟨fun _ => ?_, fun h => absurd hself h⟩
        rcases hst with ⟨-, hst | hst⟩ | ⟨-, hst⟩ <;> rw [hst] <;> rfl
      · rw [hoth hb]
        exact ⟨fun h => absurd h (hnone b), fun _ => hoths b hb⟩

theorem MoesiAgree.disjoint (hagree : MoesiAgree line states) :
    ∀ owner st, line.owner = some (owner, st) → owner ∉ line.sharers := by
  intro owner recd hown
  by_cases hrec : recd = .owned
  · subst hrec
    exact (hagree.owned owner hown).2.1
  · exact (hagree.alone owner recd hown hrec).2.1 owner

theorem MoesiAgree.takeAll (hagree : MoesiAgree line states) :
    snoopStates moesi (update states agent .invalid) (snoopOthers line agent .snoopWrite)
      = some (fun _ => .invalid) :=
  snoopOthers_states (P := moesi) rfl line agent .snoopWrite states
    (fun b hlisted => moesi_gives ((hagree.listed b).1 hlisted)) (fun b => (hagree.listed b).2)
      hagree.disjoint

theorem moesiAgree_taken :
    MoesiAgree ⟨some (agent, .modified), ∅⟩ (update (fun _ => .invalid) agent .modified) := by
  refine ⟨fun owner recorded h _ => ?_, fun owner h => ?_, fun h => ?_⟩
  · cases h
    refine ⟨.inr ⟨rfl, update_self ..⟩, fun b => Std.TreeSet.not_mem_emptyc, ?_⟩
    intro b hb
    exact update_of_ne hb ..
  · cases h
  · cases h

theorem MoesiAgree.exclusive_alone (hagree : MoesiAgree line states)
    (hag : states agent = .exclusive ∨ states agent = .modified) :
    ∃ recd, line.owner = some (agent, recd) ∧ recd ≠ .owned := by
  have hnot : states agent ≠ .invalid ∧ states agent ≠ .shared ∧ states agent ≠ .owned := by
    rcases hag with h | h <;> rw [h] <;> decide
  cases hown : line.owner with
  | none =>
    obtain ⟨hsharers, hoths, -⟩ := hagree.sharing hown
    by_cases hmem : agent ∈ line.sharers
    · rcases hsharers agent hmem with h | h
      · exact absurd h hnot.2.1
      · exact absurd h hnot.2.2
    · exact absurd (hoths agent hmem) hnot.1
  | some owner =>
    obtain ⟨owner, recd⟩ := owner
    by_cases hrec : recd = .owned
    · subst hrec
      obtain ⟨hst, -, hoths⟩ := hagree.owned owner hown
      by_cases hne : agent = owner
      · subst hne
        exact absurd hst hnot.2.2
      · have hoth := hoths agent hne
        split at hoth
        · exact absurd hoth hnot.2.1
        · exact absurd hoth hnot.1
    · obtain ⟨-, -, hoths⟩ := hagree.alone owner recd hown hrec
      by_cases hne : agent = owner
      · exact ⟨recd, by rw [hne], hrec⟩
      · exact absurd (hoths agent hne) hnot.1

end Agree

/-! ## Grants -/

section Grants

variable {line : OwnerLine MoesiState} {states : AgentId → MoesiState} {agent : AgentId}

/-- A grant that takes the line away from everybody: `handled` snoops them all and
    records the requester as owner. -/
theorem moesi_granted_taken {waiting}
    (handled : Handled (OwnerLine MoesiState) MoesiState MoesiEvent)
    (hagree : MoesiAgree line states)
    (hhandle : ∀ adr, handle moesiDirectory adr line agent
      (missKind moesi false (states agent)) = .ok handled)
    (hsnoops : handled.snoops = snoopOthers line agent .snoopWrite)
    (haft : handled.after = ⟨some (agent, .modified), ∅⟩) (hst : handled.state = .modified)
    (hwaiting : moesi.transition waiting .dataModified = some .modified)
    (hsrc : SourceOk moesiHarness moesiDiscipline line states agent
      (missKind moesi false (states agent)) handled.dataSource) :
    Nonempty (Granted moesiHarness moesiDiscipline line states agent false waiting) := by
  have hunclean : ¬ moesiDiscipline.clean handled.after := by
    rw [haft]
    exact fun hclean => by cases hclean.1
  exact ⟨{
    handled
    handle_eq := hhandle
    fills := fills_of_grant rfl (e := .dataModified) (by rw [hst]; rfl) rfl
      (by rw [hst]; exact hwaiting)
    stable := by rw [hst]; rfl
    valid := by rw [hst]; exact fun h => absurd h (by decide)
    after := fun _ => .invalid
    snooped := by rw [hsnoops]; exact hagree.takeAll
    agree := by rw [haft, hst]; exact moesiAgree_taken
    alone := fun _ => ⟨fun _ _ => rfl, hunclean⟩
    source := hsrc
    writesBack := false
    writesBack_eq := fun _ _ => rfl
    clean := fun hclean => absurd hclean hunclean }⟩

/-- A write miss without a copy. -/
theorem moesi_granted_unique (hagree : MoesiAgree line states) (hag : states agent = .invalid) :
    Nonempty (Granted moesiHarness moesiDiscipline line states agent false .invalidToModified) := by
  have hkind : missKind moesi false (states agent) = .readUnique := by
    rw [hag]
    rfl
  have hfree : ¬ line.Listed agent := by
    intro hlisted
    have hval := (hagree.listed agent).1 hlisted
    rw [hag] at hval
    cases hval
  rcases acceptReadUnique_taken modified MoesiEvent.snoopWrite hfree with
    ⟨haft, hst, hsrc⟩
  refine moesi_granted_taken _ hagree (fun address => by rw [hkind]; rfl)
    (acceptReadUnique_snoops) haft hst rfl ?_
  rcases hsrc with ⟨hsrc, hown⟩ | ⟨owner, hsrc, hne, hlisted⟩
  · rw [hsrc]
    exact .backing hag hown
  · rw [hsrc, hkind]
    exact .owner owner hne (moesi_gives ((hagree.listed owner).1 hlisted)).1
      (fun h => absurd h (by decide))

theorem moesi_granted_upgrade {waiting} (hagree : MoesiAgree line states)
    (hag : states agent = .shared ∨ states agent = .owned)
    (hall : line.owner ≠ some (agent, .owned))
    (hwaiting : moesi.transition waiting .dataModified = some .modified) :
    Nonempty (Granted moesiHarness moesiDiscipline line states agent false waiting) := by
  have hkind : missKind moesi false (states agent) = .upgrade := by
    rcases hag with h | h <;> rw [h] <;> rfl
  -- The record names the agent, and not as owner: an owner that is alone is neither
  -- shared nor owned.
  have hnotOwner : ∀ recd, line.owner ≠ some (agent, recd) := by
    intro recd howner
    by_cases hrec : recd = .owned
    · exact hall (hrec ▸ howner)
    · rcases (hagree.alone agent recd howner hrec).1 with ⟨-, h | h⟩ | ⟨-, h⟩ <;>
        rcases hag with h' | h' <;> rw [h'] at h <;> cases h
  have hisOwner : line.isOwner agent = false := by
    cases hown : line.isOwner agent with
    | false => rfl
    | true =>
      obtain ⟨recd, howner⟩ := (line.isOwner_iff agent).mp hown
      exact absurd howner (hnotOwner recd)
  have hsharer : agent ∈ line.sharers := by
    by_contra hnot
    have hinv := (hagree.listed agent).2 (by
      rintro (hown | hmem)
      · cases hisOwner.symm.trans hown
      · exact hnot hmem)
    rcases hag with h | h <;> rw [h] at hinv <;> cases hinv
  cases howner : line.owner with
  | none =>
    refine moesi_granted_taken
      ⟨⟨some (agent, .modified), ∅⟩, [] ++ line.snoopSharers agent .snoopWrite, .modified,
        .noData⟩ hagree (fun adr => ?_) ?_ rfl rfl hwaiting (.none hkind)
    · rw [hkind]
      show moesiUpgrade adr line agent = _
      rw [moesiUpgrade, if_neg (by rw [hisOwner]; decide), if_pos hsharer, howner]
    · rw [snoopOthers, howner]
  | some owner =>
    obtain ⟨owner, recd⟩ := owner
    have hne : owner ≠ agent := by
      rintro rfl
      exact hnotOwner recd howner
    have hlisted : line.Listed owner := .inl ((line.isOwner_iff owner).mpr ⟨recd, howner⟩)
    refine moesi_granted_taken
      ⟨⟨some (agent, .modified), ∅⟩,
        [⟨owner, .snoopWrite⟩] ++ line.snoopSharers agent .snoopWrite, .modified,
        .ownerCache owner⟩ hagree (fun adr => ?_) ?_ rfl rfl hwaiting
      (.owner owner hne (moesi_gives ((hagree.listed owner).1 hlisted)).1 (fun _ => rfl))
    · rw [hkind]
      show moesiUpgrade adr line agent = _
      rw [moesiUpgrade, if_neg (by rw [hisOwner]; decide), if_pos hsharer, howner]
    · rw [snoopOthers, howner]
      simp [if_neg hne]

theorem moesi_granted_readOwner {owner after downgraded} (hag : states agent = .invalid)
    (hne : owner ≠ agent)
    (hheld : states owner ≠ .invalid)
    (hread : moesiReadShared line agent
      = ⟨after, [⟨owner, .snoopRead⟩], .shared, .ownerCache owner⟩)
    (hdown : moesi.transition (states owner) .snoopRead = some downgraded)
    (hstab : moesi.isStable downgraded = true)
    (haft : MoesiAgree after (update (update states owner downgraded) agent .shared))
    (hunclean : ¬ moesiDiscipline.clean after) :
    Nonempty (Granted moesiHarness moesiDiscipline line states agent true .invalidToExclusive) := by
  have hsame : update states agent invalid = states := by
    rw [← hag, update_eq_self]
  exact ⟨{
    handled := ⟨after, [⟨owner, .snoopRead⟩], .shared, .ownerCache owner⟩
    handle_eq := fun address => congrArg Except.ok hread
    fills := fills_of_grant rfl (e := .dataShared) rfl rfl rfl
    stable := rfl
    valid := by
      show shared ≠ .invalid
      decide
    after := update states owner downgraded
    snooped := by
      show snoopStates moesi (update states agent .invalid) [⟨owner, .snoopRead⟩] = _
      rw [hsame]
      simp only [snoopStates, hdown]
      rw [if_pos ⟨hheld, hstab⟩]
    agree := haft
    alone := fun h => absurd h (by decide)
    source := .owner owner hne hheld (fun h => by cases h)
    writesBack := false
    writesBack_eq := fun _ _ => rfl
    clean := fun hclean => absurd hclean hunclean }⟩

/-- A reader displaces an owner recorded as exclusive: both are sharers, though
    the owner's cache is owned if it was written. -/
theorem moesi_granted_readExclusive {owner} (hagree : MoesiAgree line states)
    (hag : states agent = .invalid)
    (hown : line.owner = some (owner, .exclusive)) :
    Nonempty (Granted moesiHarness moesiDiscipline line states agent true .invalidToExclusive) := by
  obtain ⟨hst, hnone, hoths⟩ := hagree.alone owner .exclusive hown (by decide)
  have hst' : states owner = .exclusive ∨ states owner = .modified := by
    rcases hst with ⟨-, h⟩ | ⟨h, -⟩
    · exact h
    · cases h
  have hne : owner ≠ agent := by
    rintro rfl
    rcases hst' with h | h <;> rw [h] at hag <;> cases hag
  have hread : moesiReadShared line agent
      = ⟨⟨none, (line.sharers.insert owner).insert agent⟩, [⟨owner, .snoopRead⟩], .shared,
          .ownerCache owner⟩ := by
    rw [moesiReadShared, hown]
    exact if_neg hne
  have hunclean : ¬ moesiDiscipline.clean
      (⟨none, (line.sharers.insert owner).insert agent⟩ : OwnerLine MoesiState) :=
    fun hclean => hclean.2 agent ((mem_insert_iff _ _ _).mpr (.inl rfl))
  -- What the owner is downgraded to does not matter for the rest.
  have haft : ∀ downgraded, downgraded = .shared ∨ downgraded = .owned →
      MoesiAgree ⟨none, (line.sharers.insert owner).insert agent⟩
        (update (update states owner downgraded) agent .shared) := by
    intro downgraded hdown
    have hsts : ∀ b, b ≠ agent → b ≠ owner →
        update (update states owner downgraded) agent .shared b = .invalid := by
      intro b hb hbo
      rw [update_of_ne hb, update_of_ne hbo, hoths b hbo]
    have hagentShared : update (update states owner downgraded) agent
        shared agent = .shared := update_self ..
    have hownerDown : update (update states owner downgraded) agent
        shared owner = downgraded := by
      rw [update_of_ne hne, update_self]
    refine ⟨fun _ _ h => absurd h (by simp),
      fun _ h => absurd h (by simp), fun _ => ⟨?_, ?_, ?_⟩⟩
    · intro b hb
      rw [mem_insert_iff, mem_insert_iff] at hb
      rcases hb with rfl | rfl | hb
      · exact .inl hagentShared
      · rwa [hownerDown]
      · exact absurd hb (hnone b)
    · intro b hb
      rw [mem_insert_iff, mem_insert_iff] at hb
      exact hsts b (fun h => hb (.inl h)) (fun h => hb (.inr (.inl h)))
    · -- Only the displaced owner can be owned.
      have honly : ∀ b, update (update states owner downgraded) agent
          shared b = .owned → b = owner := by
        intro b hb
        by_contra hbo
        by_cases hba : b = agent
        · rw [hba, hagentShared] at hb
          cases hb
        · simp [hsts b hba hbo] at hb
      intro a b ha hb
      rw [honly a ha, honly b hb]
  rcases hst' with hst' | hst'
  · exact moesi_granted_readOwner hag hne (by rw [hst']; decide) hread
      (by rw [hst']; rfl) rfl (haft .shared (.inl rfl)) hunclean
  · exact moesi_granted_readOwner hag hne (by rw [hst']; decide) hread
      (by rw [hst']; rfl) rfl (haft .owned (.inr rfl)) hunclean

theorem moesi_granted_readDirty {owner recorded} (hagree : MoesiAgree line states)
    (hag : states agent = .invalid)
    (hown : line.owner = some (owner, recorded)) (hrec : recorded = .modified ∨ recorded = .owned) :
    Nonempty (Granted moesiHarness moesiDiscipline line states agent true .invalidToExclusive) := by
  -- Modified or owned, the owner is dirty and everybody else is as recorded.
  have hfac : (states owner = .modified ∨ states owner = .owned) ∧ owner ∉ line.sharers ∧
      ∀ b, b ≠ owner → states b = if b ∈ line.sharers then .shared else .invalid := by
    rcases hrec with rfl | rfl
    · obtain ⟨hst, hnone, hoths⟩ := hagree.alone owner .modified hown (by decide)
      refine ⟨?_, hnone owner, fun b hb => by rw [if_neg (hnone b), hoths b hb]⟩
      rcases hst with ⟨h, -⟩ | ⟨-, h⟩
      · cases h
      · exact .inl h
    · obtain ⟨hst, hnot, hoths⟩ := hagree.owned owner hown
      exact ⟨.inr hst, hnot, hoths⟩
  obtain ⟨hst, hnot, hoths⟩ := hfac
  have hne : owner ≠ agent := by
    rintro rfl
    rcases hst with h | h <;> rw [h] at hag <;> cases hag
  have hread : moesiReadShared line agent
      = ⟨⟨some (owner, .owned), line.sharers.insert agent⟩, [⟨owner, .snoopRead⟩], .shared,
          .ownerCache owner⟩ := by
    rw [moesiReadShared, hown]
    rcases hrec with rfl | rfl <;> exact if_neg hne
  have hdown : moesi.transition (states owner) .snoopRead = some .owned := by
    rcases hst with h | h <;> rw [h] <;> rfl
  refine moesi_granted_readOwner hag hne ?_ hread hdown rfl ?_ ?_
  · rcases hst with h | h <;> rw [h] <;> decide
  · refine ⟨fun other recorded' h hrec' => ?_, fun other h => ?_, fun h => by cases h⟩
    · simp only [Option.some.injEq, Prod.mk.injEq] at h
      exact absurd h.2.symm hrec'
    · simp only [Option.some.injEq, Prod.mk.injEq, and_true] at h
      subst h
      refine ⟨by rw [update_of_ne hne, update_self], fun hmem => ?_, ?_⟩
      · rcases (mem_insert_iff _ _ _).mp hmem with h | h
        · exact hne h
        · exact hnot h
      · intro b hb
        simp only [mem_insert_iff]
        by_cases hba : b = agent
        · rw [hba, update_self, if_pos (.inl rfl)]
        · rw [update_of_ne hba, update_of_ne hb, hoths b hb]
          split
          next hmem => rw [if_pos (.inr hmem)]
          next hmem => rw [if_neg (fun h => h.elim hba hmem)]
  · exact fun hclean => by cases hclean.1

/-- A read miss on a line without owner: the first reader is granted exclusive,
    the others shared, all from the backing line. -/
theorem moesi_granted_readBacking (hagree : MoesiAgree line states) (hag : states agent = .invalid)
    (hown : line.owner = none) :
    Nonempty (Granted moesiHarness moesiDiscipline line states agent true .invalidToExclusive) := by
  obtain ⟨hsharers, hoths, hone⟩ := hagree.sharing hown
  have hsame : update states agent invalid = states := by
    rw [← hag, update_eq_self]
  have hnot : agent ∉ line.sharers := by
    intro hmem
    rcases hsharers agent hmem with h | h <;> rw [h] at hag <;> cases hag
  cases hemp : line.sharers.isEmpty with
  | true =>
    have hnone : ∀ b, b ∉ line.sharers := Std.TreeSet.isEmpty_iff_forall_not_mem.mp hemp
    exact ⟨{
      handled := ⟨⟨some (agent, .exclusive), line.sharers⟩, [], .exclusive, .backingMemory⟩
      handle_eq := fun address => by
        show Except.ok (moesiReadShared line agent) = _
        rw [moesiReadShared, hown]
        simp [hemp]
      fills := fills_of_grant rfl (e := .dataExclusive) rfl rfl rfl
      stable := rfl
      valid := by
        show exclusive ≠ .invalid
        decide
      after := states
      snooped := congrArg some hsame
      agree := by
        refine ⟨fun owner recorded h _ => ?_, fun owner h => ?_, fun h => by cases h⟩
        · cases h
          refine ⟨.inl ⟨rfl, .inl (update_self ..)⟩, hnone, fun b hb => ?_⟩
          rw [update_of_ne hb, hoths b (hnone b)]
        · cases h
      alone := fun h => absurd h (by decide)
      source := .backing hag hown
      writesBack := false
      writesBack_eq := fun _ _ => rfl
      clean := fun h => by cases h.1 }⟩
  | false =>
    exact ⟨{
      handled := ⟨⟨none, line.sharers.insert agent⟩, [], .shared, .backingMemory⟩
      handle_eq := fun address => by
        show Except.ok (moesiReadShared line agent) = _
        rw [moesiReadShared, hown]
        simp [hemp, if_neg hnot]
      fills := fills_of_grant rfl (e := .dataShared) rfl rfl rfl
      stable := rfl
      valid := by
        show shared ≠ .invalid
        decide
      after := states
      snooped := congrArg some hsame
      agree := by
        refine ⟨fun _ _ h => absurd h (by simp),
          fun _ h => absurd h (by simp),
          fun _ => ⟨fun b hb => ?_, fun b hb => ?_, fun a b ha hb => ?_⟩⟩
        · by_cases hba : b = agent
          · exact .inl (by rw [hba]; exact update_self ..)
          · rw [update_of_ne hba]
            exact hsharers b (((mem_insert_iff _ _ _).mp hb).resolve_left hba)
        · rw [mem_insert_iff] at hb
          rw [update_of_ne (fun h => hb (.inl h))]
          exact hoths b (fun h => hb (.inr h))
        · -- The new sharer is not owned, so whoever is was owned before.
          have hbef : ∀ x, update states agent shared x = .owned → states x = .owned := by
            intro x hx
            by_cases hxa : x = agent
            · simp [hxa, update_self] at hx
            · rwa [update_of_ne hxa] at hx
          exact hone a b (hbef a ha) (hbef b hb)
      alone := fun h => absurd h (by decide)
      source := .backing hag hown
      writesBack := false
      writesBack_eq := fun _ _ => rfl
      clean := fun h => absurd ((mem_insert_iff _ _ _).mpr (.inl rfl)) (h.2 agent) }⟩

end Grants

theorem moesi_sound : Sound moesiHarness moesiDiscipline where
  invalid_stable := rfl
  invalid_upgrade := rfl
  accepts := by
    intro st read hstab
    cases st <;> cases read <;> first
      | exact ⟨_, rfl⟩
      | cases hstab
  hit := by
    intro line states agent read after hagree _ hstab hstep haft
    -- A read leaves the state; a write hits an owner that is alone.
    have hcases : states agent ≠ .invalid ∧ after ≠ .invalid ∧
        ((read = true ∧ after = states agent) ∨
          (read = false ∧ after = .modified ∧
            (states agent = .exclusive ∨ states agent = .modified))) := by
      revert hstab hstep haft
      generalize states agent = st
      cases st <;> cases read <;> intro hstab hstep haft <;> cases hstep <;> first
        | exact ⟨by decide, by decide, by decide⟩
        | cases haft
    rcases hcases with ⟨hheld, hval, ⟨hread, rfl⟩ | ⟨hwr, rfl, hst⟩⟩
    · refine ⟨hheld, hval, by rw [update_eq_self]; exact hagree, fun hwr => ?_⟩
      cases hread.symm.trans hwr
    · obtain ⟨recd, hown, hrec⟩ := MoesiAgree.exclusive_alone hagree hst
      obtain ⟨hfits, hnone, hoths⟩ := MoesiAgree.alone hagree agent recd hown hrec
      refine ⟨hheld, hval, ⟨fun other recd' h hrec' => ?_, fun other h => ?_,
        fun h => ?_⟩, fun _ => ⟨hoths, fun hclean => ?_⟩⟩
      · rw [hown] at h
        cases h
        rw [update_self]
        refine ⟨?_, hnone, fun b hb => by rw [update_of_ne hb]; exact hoths b hb⟩
        rcases hfits with ⟨h, -⟩ | ⟨h, -⟩
        · exact .inl ⟨h, .inr rfl⟩
        · exact .inr ⟨h, rfl⟩
      · rw [hown, Option.some.injEq, Prod.mk.injEq] at h
        exact absurd h.2 hrec
      · cases hown.symm.trans h
      · cases hclean.1.symm.trans hown
  miss := by
    intro line states agent read waiting hagree hall hstab hstep hwaits
    cases hst : states agent <;> rw [hst] at hstab hstep <;> cases read <;> first
      | exact absurd hstab (by decide)
      | (cases hstep; exact absurd hwaits (by decide))
      | cases hstep
    · exact moesi_granted_unique hagree hst
    · cases hown : line.owner with
      | none => exact moesi_granted_readBacking hagree hst hown
      | some owner =>
        obtain ⟨owner, recd⟩ := owner
        by_cases hrec : recd = .owned
        · exact moesi_granted_readDirty hagree hst hown (.inr hrec)
        · rcases (MoesiAgree.alone hagree owner recd hown hrec).1 with
            ⟨rfl, -⟩ | ⟨h, -⟩
          · exact moesi_granted_readExclusive hagree hst hown
          · exact moesi_granted_readDirty hagree hst hown (.inl h)
    · exact moesi_granted_upgrade hagree (.inl hst) (hall rfl) rfl
    · exact moesi_granted_upgrade hagree (.inr hst) (hall rfl) rfl

end Rem6.Coherence
