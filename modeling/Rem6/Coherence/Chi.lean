import Rem6.Coherence.Mesi

/-!
# The CHI Harness

`ChiDirectoryLineHarness` over whole runs. A write always leaves its cache as
recorded unique owner, and a reader that displaces the owner has its data
written back, so that only three of the stable states occur: invalid, shared
clean and unique dirty. A line without unique owner is current in the backing
line.

What is left of the other branches of the directory is that they are not
reached: no sharer is ever recorded as dirty, and no owner as clean.

A call is refused for reasons of its own only: it does not fit the line, or it
is an atomic of a width nobody implements. Over a backing line of another size
even a read may be refused, and half-way: the owner's data cannot be written
back.

## Main definitions

* `ChiAgree`, `chiDiscipline`: The three states, and how they are recorded.
* `ChiRecorded`: The record lists exactly the valid caches, with their states.

## Theorems

* `chi_sound`: The tables keep the discipline.
* `chi_coherent`: Answers, single writer, agreement and coherent reads.
* `chi_refusals`: Calls on a valid agent and line that are refused.
-/

namespace Rem6

namespace Directory

open Memory Protocol

namespace ChiLine

theorem mem_insert_iff (sharers : Std.TreeMap AgentId ChiState compare) (a b : AgentId)
    (st : ChiState) : a ∈ sharers.insert b st ↔ a = b ∨ a ∈ sharers := by
  rw [Std.TreeMap.mem_insert, Std.LawfulEqCmp.compare_eq_iff_eq, eq_comm]

theorem nodup_keys {sharers : Std.TreeMap AgentId ChiState compare} : sharers.keys.Nodup := by
  refine List.Pairwise.imp (fun {a b} hne heq => hne ?_) sharers.distinct_keys
  rwa [Std.LawfulEqCmp.compare_eq_iff_eq]

/-- No sharer is recorded as dirty. -/
def SharersClean (line : ChiLine) : Prop :=
  ∀ (b : AgentId) (state : ChiState), line.sharers[b]? = some state → state = .sharedClean

theorem firstDirtySharerExcept_of_clean {line : ChiLine} (hclean : line.SharersClean)
    (except : Option AgentId) : line.firstDirtySharerExcept except = none := by
  unfold firstDirtySharerExcept
  have hfind : (line.sharers.toList.find? fun s => some s.1 ≠ except && isDirty s.2) = none := by
    rw [List.find?_eq_none]
    rintro ⟨b, st⟩ hmem
    have hst := hclean b st (Std.TreeMap.mem_toList_iff_getElem?_eq_some.mp hmem)
    rw [hst]
    simp [isDirty]
  rw [hfind, Option.map_none]

theorem SharersClean.insert {line : ChiLine} (hclean : line.SharersClean) (agent : AgentId) :
    SharersClean ⟨none, line.sharers.insert agent .sharedClean⟩ := by
  intro b st h
  simp only [Std.TreeMap.getElem?_insert] at h
  split at h
  · rw [Option.some.injEq] at h
    exact h.symm
  · exact hclean b st h

end ChiLine

end Directory

namespace Coherence

open Memory Protocol Cache Directory Lib

/-- The record names a unique dirty owner that is alone, or clean sharers. -/
structure ChiAgree (line : ChiLine) (states : AgentId → ChiState) : Prop where
  owned : ∀ owner recorded, line.uniqueOwner = some (owner, recorded) →
    recorded = .uniqueDirty ∧ states owner = .uniqueDirty ∧ (∀ b, b ∉ line.sharers) ∧
      ∀ b, b ≠ owner → states b = .invalid
  sharing : line.uniqueOwner = none →
    ∀ b, states b = if b ∈ line.sharers then .sharedClean else .invalid
  clean : line.SharersClean

/-- A line without unique owner is clean. -/
def chiDiscipline : Discipline ChiLine ChiState where
  agree := ChiAgree
  clean line := line.uniqueOwner = none
  unowned line := line.uniqueOwner = none
  allowed _ _ _ := True

section Requests

variable {line : ChiLine} {states : AgentId → ChiState} {agent : AgentId}

theorem ChiAgree.mem_sharers_iff (hagree : ChiAgree line states) :
    agent ∈ line.sharers ↔ states agent = .sharedClean := by
  cases hown : line.uniqueOwner with
  | none =>
    rw [hagree.sharing hown]
    split <;> simp [*]
  | some owner =>
    obtain ⟨-, hst, hnone, hoths⟩ := hagree.owned owner.1 owner.2 hown
    by_cases hb : agent = owner.1
    · simp [hnone, hb, hst]
    · simp [hnone, hoths agent hb]

theorem ChiAgree.unowned_of_mem (hagree : ChiAgree line states) (hmem : agent ∈ line.sharers) :
    line.uniqueOwner = none := by
  cases hown : line.uniqueOwner with
  | none => rfl
  | some owner => exact absurd hmem ((hagree.owned owner.1 owner.2 hown).2.2.1 agent)

theorem ChiAgree.owner_ne {owner recd} (hagree : ChiAgree line states)
    (hown : line.uniqueOwner = some (owner, recd)) (hag : states agent = .invalid) :
    owner ≠ agent := by
  rintro rfl
  cases (hagree.owned owner recd hown).2.1.symm.trans hag

theorem chiAgree_taken (agent : AgentId) :
    ChiAgree ⟨some (agent, .uniqueDirty), ∅⟩
      (Function.update (fun _ => .invalid) agent .uniqueDirty) := by
  refine ⟨fun owner recd hown => ?_, fun hnone => ?_, fun b st h => ?_⟩
  · cases hown
    refine ⟨rfl, Function.update_self .., fun b => Std.TreeMap.not_mem_emptyc, fun b hb => ?_⟩
    rw [Function.update_of_ne hb]
  · cases hnone
  · simp only [Std.TreeMap.getElem?_emptyc, reduceCtorEq] at h

theorem ChiAgree.takeSharers (hagree : ChiAgree line states) (hnone : line.uniqueOwner = none) :
    snoopStates chi (Function.update states agent .invalid) (line.snoopSharers agent)
      = some fun _ => .invalid := by
  have hmem : ∀ b, b ∈ line.sharers.keys.filter (· ≠ agent) ↔ b ∈ line.sharers ∧ b ≠ agent := by
    intro b
    rw [List.mem_filter, Std.TreeMap.mem_keys, decide_eq_true_eq]
  have hrun := snoopStates_invalidate (P := chi) .snoopUnique rfl
    (line.sharers.keys.filter (· ≠ agent)) (Function.update states agent .invalid)
    ((ChiLine.nodup_keys).filter _) (fun b hb => ?_)
  · unfold ChiLine.snoopSharers
    rw [hrun]
    congr 1
    funext b
    -- Whoever is not told to give up has nothing.
    by_cases hb : b ∈ line.sharers.keys.filter (· ≠ agent)
    · exact if_pos hb
    · rw [if_neg hb]
      by_cases hba : b = agent
      · rw [hba, Function.update_self]
      · rw [Function.update_of_ne hba, hagree.sharing hnone,
          if_neg (fun h => hb ((hmem b).mpr ⟨h, hba⟩))]
  · obtain ⟨hsharer, hne⟩ := (hmem b).mp hb
    rw [Function.update_of_ne hne, hagree.sharing hnone, if_pos hsharer]
    exact ⟨by decide, rfl⟩

theorem chi_granted_taken {waiting} (snoops : List (DirectorySnoop ChiEvent))
    (src : DirectoryDataSource)
    (hhandle : ∀ adr, handle chiDirectory adr line agent
      (missKind chi false (states agent))
        = .ok ⟨⟨some (agent, .uniqueDirty), ∅⟩, snoops, .uniqueDirty, src⟩)
    (hsnoops : snoopStates chi (Function.update states agent .invalid) snoops =
      some fun _ => .invalid)
    (huniq : ∀ snoop ∈ snoops, snoop.event = .snoopUnique)
    (hwaiting : chi.transition waiting .compDataUniqueDirty = some .uniqueDirty)
    (hsrc : SourceOk chiHarness chiDiscipline line states agent
      (missKind chi false (states agent)) src) :
    Nonempty (Granted chiHarness chiDiscipline line states agent false waiting) := by
  have hunclean : ¬ chiDiscipline.clean ⟨some (agent, .uniqueDirty), ∅⟩ := by
    show ¬ (some (agent, ChiState.uniqueDirty) = none)
    simp
  have hquiet : (snoops.any fun snoop => decide (snoop.event = .snoopShared)) = false := by
    rw [List.any_eq_false]
    intro snoop hmem
    rw [huniq snoop hmem]
    decide
  exact ⟨{
    handled := ⟨⟨some (agent, .uniqueDirty), ∅⟩, snoops, .uniqueDirty, src⟩
    handle_eq := hhandle
    fills := fills_of_grant rfl (e := .compDataUniqueDirty) rfl rfl hwaiting
    stable := rfl
    valid := by
      show ChiState.uniqueDirty ≠ .invalid
      decide
    after := fun _ => .invalid
    snooped := hsnoops
    agree := chiAgree_taken agent
    alone := fun _ => ⟨fun _ _ => rfl, hunclean⟩
    source := hsrc
    writesBack := false
    writesBack_eq := fun _ _ => by
      show (line.uniqueOwner.isSome && snoops.any fun snoop => decide (snoop.event = .snoopShared))
        = false
      rw [hquiet, Bool.and_false]
    clean := fun hclean => absurd hclean hunclean }⟩

theorem snoopSharers_unique : ∀ snoop ∈ line.snoopSharers agent, snoop.event = .snoopUnique := by
  intro snoop hmem
  obtain ⟨b, -, rfl⟩ := List.mem_map.mp hmem
  rfl

theorem chi_granted_unique (hagree : ChiAgree line states) (hag : states agent = .invalid) :
    Nonempty (Granted chiHarness chiDiscipline line states agent false .invalidToUniqueDirty) := by
  have hkind : missKind chi false (states agent) = .readUnique := by
    rw [hag]
    rfl
  cases hown : line.uniqueOwner with
  | none =>
    have hnot : agent ∉ line.sharers := by simp [hagree.mem_sharers_iff, hag]
    refine chi_granted_taken (line.snoopSharers agent) .backingMemory (fun adr => ?_)
      (hagree.takeSharers hown) (snoopSharers_unique) rfl (.backing hag hown)
    rw [hkind]
    show Except.ok (ChiLine.acceptReadUnique line agent) = _
    simp [ChiLine.acceptReadUnique, hown, ChiLine.firstDirtySharerExcept_of_clean hagree.clean,
      if_neg hnot]
  | some owner =>
    obtain ⟨owner, recd⟩ := owner
    obtain ⟨-, hst, hnone, hoths⟩ := hagree.owned owner recd hown
    have hne := hagree.owner_ne hown hag
    -- There are no sharers, so the owner is the only one that is snooped.
    have hemp : line.snoopSharers agent = [] := by
      unfold ChiLine.snoopSharers
      rw [List.map_eq_nil_iff, List.filter_eq_nil_iff]
      intro b hb
      exact absurd (Std.TreeMap.mem_keys.mp hb) (hnone b)
    refine chi_granted_taken [⟨owner, .snoopUnique⟩] (.ownerCache owner) (fun adr => ?_) ?_
      (fun snoop hmem => ?_) rfl ?_
    · rw [hkind]
      show Except.ok (ChiLine.acceptReadUnique line agent) = _
      simp [ChiLine.acceptReadUnique, hown, if_neg hne, hemp]
    · simp only [snoopStates, Function.update_of_ne hne, hst]
      show (if ChiState.uniqueDirty ≠ .invalid ∧ true = true then _ else none) = _
      rw [if_pos ⟨by decide, rfl⟩]
      congr 1
      funext b
      by_cases hbo : b = owner
      · rw [hbo, Function.update_self]
      · rw [Function.update_of_ne hbo]
        by_cases hba : b = agent
        · rw [hba, Function.update_self]
        · rw [Function.update_of_ne hba, hoths b hbo]
    · rw [List.mem_singleton.mp hmem]
    · rw [hkind]
      refine .owner owner hne ?_ (fun h => absurd h (by decide))
      rw [hst]
      exact fun h => absurd h (by decide)

theorem chi_granted_upgrade (hagree : ChiAgree line states) (hag : states agent = .sharedClean) :
    Nonempty (Granted chiHarness chiDiscipline line states agent false
      .sharedCleanToUniqueClean) := by
  have hkind : missKind chi false (states agent) = .upgrade := by
    rw [hag]
    rfl
  have hmem := hagree.mem_sharers_iff.mpr hag
  have hown := hagree.unowned_of_mem hmem
  refine chi_granted_taken (line.snoopSharers agent) .noData (fun adr => ?_)
    (hagree.takeSharers hown) (snoopSharers_unique) rfl (.none hkind)
  rw [hkind]
  show ChiLine.acceptUpgrade adr line agent = _
  have hisOwner : line.isUniqueOwner agent = false := by
    rw [ChiLine.isUniqueOwner, hown]
  simp [ChiLine.acceptUpgrade, hisOwner, if_pos hmem, ChiLine.firstDirtySharerExcept_of_clean
    hagree.clean]

/-- A read miss, with the owner's data or that of the backing line: the
    requester joins the sharers, among whom an owner now is. -/
theorem chi_granted_read (sharers : Std.TreeMap AgentId ChiState compare)
    (snoops : List (DirectorySnoop ChiEvent)) (src : DirectoryDataSource)
    (hag : states agent = .invalid)
    (hhandle : ChiLine.acceptReadShared line agent
      = ⟨⟨none, sharers.insert agent .sharedClean⟩, snoops, .sharedClean, src⟩)
    (hclean : ChiLine.SharersClean ⟨none, sharers⟩)
    (hsnoops : snoopStates chi states snoops
      = some fun b => if b ∈ sharers then .sharedClean else .invalid)
    (hsrc : SourceOk chiHarness chiDiscipline line states agent .readShared src)
    (hback : line.uniqueOwner = none ∨
      ((snoops.any fun snoop => decide (snoop.event = .snoopShared)) = true ∧
        ∃ owner, src = .ownerCache owner)) :
    Nonempty (Granted chiHarness chiDiscipline line states agent true .invalidToSharedClean) := by
  have hkind : missKind chiHarness.protocol true (states agent) = .readShared := by
    rw [hag]
    rfl
  have hsame : Function.update states agent ChiState.invalid = states := by
    rw [← hag, Function.update_eq_self]
  exact ⟨{
    handled := ⟨⟨none, sharers.insert agent .sharedClean⟩, snoops, .sharedClean, src⟩
    handle_eq := fun adr => by
      rw [hkind]
      exact congrArg Except.ok hhandle
    fills := fills_of_grant rfl (e := .compDataSharedClean) rfl rfl rfl
    stable := rfl
    valid := by
      show ChiState.sharedClean ≠ .invalid
      decide
    after := fun b => if b ∈ sharers then .sharedClean else .invalid
    snooped := by
      show snoopStates chi (Function.update states agent ChiState.invalid) snoops = _
      rw [hsame, hsnoops]
    agree := by
      refine ⟨fun _ _ h => ?_, fun _ b => ?_, hclean.insert agent⟩
      · cases h
      · simp only [ChiLine.mem_insert_iff]
        by_cases hb : b = agent
        · rw [hb, Function.update_self, if_pos (.inl rfl)]
        · rw [Function.update_of_ne hb]
          split
          next hmem => rw [if_pos (.inr hmem)]
          next hmem => rw [if_neg (fun h => h.elim hb hmem)]
    alone := fun h => absurd h (by decide)
    source := by
      rwa [hkind]
    writesBack := line.uniqueOwner.isSome &&
      snoops.any fun snoop => decide (snoop.event = .snoopShared)
    writesBack_eq := fun _ _ => rfl
    clean := fun _ => by
      rcases hback with hnone | ⟨hany, hown⟩
      · exact .inl hnone
      · cases hline : line.uniqueOwner with
        | none => exact .inl hline
        | some owner => exact .inr ⟨by rw [hany]; rfl, hown⟩ }⟩

theorem chi_granted_readOwner {recd} {owner : AgentId} (hagree : ChiAgree line states)
    (hag : states agent = .invalid) (hown : line.uniqueOwner = some (owner, recd)) :
    Nonempty (Granted chiHarness chiDiscipline line states agent true .invalidToSharedClean) := by
  obtain ⟨-, hst, hnone, hoths⟩ := hagree.owned owner recd hown
  have hne := hagree.owner_ne hown hag
  refine chi_granted_read (line.sharers.insert owner .sharedClean) [⟨owner, .snoopShared⟩]
    (.ownerCache owner) hag ?_ (hagree.clean.insert owner) ?_ ?_ (.inr ⟨rfl, owner, rfl⟩)
  · simp [ChiLine.acceptReadShared, hown, if_neg hne]
  · simp only [snoopStates, hst]
    show (if ChiState.uniqueDirty ≠ .invalid ∧ true = true then _ else none) = _
    rw [if_pos ⟨by decide, rfl⟩]
    congr 1
    funext b
    simp only [ChiLine.mem_insert_iff]
    by_cases hb : b = owner
    · rw [hb, Function.update_self, if_pos (.inl rfl)]
    · rw [Function.update_of_ne hb, hoths b hb, if_neg (fun h => h.elim hb (hnone b))]
  · refine .owner owner hne ?_ (fun h => absurd h (by decide))
    rw [hst]
    exact fun h => absurd h (by decide)

theorem chi_granted_readBacking (hagree : ChiAgree line states) (hag : states agent = .invalid)
    (hown : line.uniqueOwner = none) :
    Nonempty (Granted chiHarness chiDiscipline line states agent true .invalidToSharedClean) := by
  have hsts : states = fun b => if b ∈ line.sharers then .sharedClean else .invalid :=
    funext (hagree.sharing hown)
  have hnot : agent ∉ line.sharers := by simp [hagree.mem_sharers_iff, hag]
  refine chi_granted_read line.sharers [] .backingMemory hag ?_ hagree.clean (congrArg some hsts)
    (.backing hag hown) (.inl hown)
  have hget : line.sharers[agent]? = none := Std.TreeMap.getElem?_eq_none hnot
  simp [ChiLine.acceptReadShared, hown, hget, ChiLine.firstDirtySharerExcept_of_clean hagree.clean]

theorem ChiAgree.unique_alone (hagree : ChiAgree line states) (hag : states agent = .uniqueDirty) :
    line.uniqueOwner = some (agent, .uniqueDirty) ∧ ∀ b, b ≠ agent → states b = .invalid := by
  cases hown : line.uniqueOwner with
  | none =>
    have hst := hagree.sharing hown agent
    rw [hag] at hst
    split at hst <;> cases hst
  | some owner =>
    obtain ⟨owner, recd⟩ := owner
    obtain ⟨rfl, -, -, hoths⟩ := hagree.owned owner recd hown
    by_cases hne : agent = owner
    · rw [hne]
      exact ⟨rfl, hoths⟩
    · simp [hoths agent hne] at hag

theorem ChiAgree.states_cases (hagree : ChiAgree line states) (b : AgentId) :
    states b = .invalid ∨ states b = .sharedClean ∨ states b = .uniqueDirty := by
  cases hown : line.uniqueOwner with
  | none =>
    have hst := hagree.sharing hown b
    split at hst
    · exact .inr (.inl hst)
    · exact .inl hst
  | some owner =>
    obtain ⟨-, hst, -, hoths⟩ := hagree.owned owner.1 owner.2 hown
    by_cases hb : b = owner.1
    · exact .inr (.inr (hb ▸ hst))
    · exact .inl (hoths b hb)

end Requests

theorem chi_sound : Sound chiHarness chiDiscipline where
  invalid_stable := rfl
  invalid_upgrade := rfl
  accepts := by
    intro st read hstab
    cases st <;> cases read <;> first
      | exact ⟨_, rfl⟩
      | cases hstab
  hit := by
    intro line states agent read after hagree _ hstab hstep haft
    -- A read leaves the state, and a write hits only a unique dirty line.
    have hcases : states agent ≠ .invalid ∧ after = states agent ∧
        (read = false → states agent = .uniqueDirty) := by
      rcases hagree.states_cases agent with h | h | h <;> rw [h] at hstep ⊢ <;> cases read <;>
        cases hstep <;> first
        | exact ⟨by decide, rfl, by decide⟩
        | cases haft
    obtain ⟨hheld, rfl, hwr⟩ := hcases
    refine ⟨hheld, hheld, by rw [Function.update_eq_self]; exact hagree, fun hread => ?_⟩
    obtain ⟨hown, halone⟩ := hagree.unique_alone (hwr hread)
    refine ⟨halone, fun hclean => ?_⟩
    have hnone : line.uniqueOwner = none := hclean
    cases hown.symm.trans hnone
  miss := by
    intro line states agent read waiting hagree _ hstab hstep hwaits
    rcases hagree.states_cases agent with hst | hst | hst <;> rw [hst] at hstep <;>
      cases read <;> cases hstep <;> try cases hwaits
    · exact chi_granted_unique hagree hst
    · cases hown : line.uniqueOwner with
      | none => exact chi_granted_readBacking hagree hst hown
      | some owner => exact chi_granted_readOwner hagree hst hown
    · exact chi_granted_upgrade hagree hst

/-! ## Runs -/

/-- A CHI harness. -/
abbrev ChiHarness := Harness ChiLine ChiState ChiEvent

/-- The record gives the agent the state, as unique owner or as sharer. -/
def ChiRecords (line : ChiLine) (agent : AgentId) (state : ChiState) : Prop :=
  line.uniqueOwner = some (agent, state) ∨ line.sharers[agent]? = some state

/-- A cache in a unique state is the only valid one, and the record lists exactly
    the valid caches, with their states. -/
structure ChiRecorded (h : ChiHarness) : Prop where
  single : ∀ a c, h.caches a = some c → c.state.isUnique = true →
    ∀ b d, b ≠ a → h.caches b = some d → d.state.isValid = false
  recorded : ∀ a state, ChiRecords (h.directory h.line) a state ↔
    ∃ c, h.caches a = some c ∧ c.state = state ∧ state.isValid = true

section Recorded

variable {line : ChiLine} {states : AgentId → ChiState} {h : ChiHarness}

theorem chi_states_of_cache {agent c} (hc : h.caches agent = some c)
    (hval : c.state.isValid = true) :
    h.states chi agent = c.state := by
  rw [Harness.states_of_cache hc]
  revert hval
  cases c.state <;> decide

theorem ChiAgree.records_iff {agent st} (hagree : ChiAgree line states) :
    ChiRecords line agent st ↔ states agent = st ∧ st ≠ .invalid := by
  constructor
  · rintro (hown | hsharer)
    · obtain ⟨rfl, hst, _⟩ := hagree.owned agent st hown
      exact ⟨hst, by decide⟩
    · have hclean := hagree.clean agent st hsharer
      subst hclean
      have hmem : agent ∈ line.sharers := by
        rw [Std.TreeMap.mem_iff_isSome_getElem?, hsharer]
        rfl
      exact ⟨hagree.mem_sharers_iff.mp hmem, by decide⟩
  · rintro ⟨rfl, hheld⟩
    rcases hagree.states_cases agent with hst | hst | hst
    · exact absurd hst hheld
    · -- A shared copy is no owner's, so it is listed among the sharers.
      rcases Option.isSome_iff_exists.mp (Std.TreeMap.mem_iff_isSome_getElem?.mp
        (hagree.mem_sharers_iff.mpr hst)) with ⟨recd, hget⟩
      exact .inr (by rw [hst, hget, hagree.clean agent recd hget])
    · rw [hst]
      exact .inl (hagree.unique_alone hst).1

theorem Coherent.chiRecorded {layout adr size Good}
    (hcoh : Coherent chiHarness chiDiscipline layout adr size Good h) :
    ChiRecorded h := by
  have hagree : ChiAgree (h.directory h.line) (h.states chi) := by
    rw [hcoh.line_eq]
    exact hcoh.agree
  refine ⟨fun a c hc huniq b d hb hd => ?_, fun a st => ?_⟩
  · have hval : c.state.isValid = true := by
      revert huniq
      cases c.state <;> decide
    have hst := chi_states_of_cache hc hval
    have hdirty : h.states chi a = .uniqueDirty := by
      rw [← hst] at huniq
      rcases hagree.states_cases a with h' | h' | h'
      · simp [h', ChiState.isUnique] at huniq
      · simp [h', ChiState.isUnique] at huniq
      · exact h'
    have hinv := (hagree.unique_alone hdirty).2 b hb
    cases hdvalid : d.state.isValid with
    | false => rfl
    | true =>
      rw [chi_states_of_cache hd hdvalid] at hinv
      rw [hinv] at hdvalid
      cases hdvalid
  · rw [hagree.records_iff]
    constructor
    · rintro ⟨rfl, hheld⟩
      obtain ⟨c, hc, hstab, hst⟩ := Harness.cache_of_states hheld
      refine ⟨c, hc, hst, ?_⟩
      rw [← hst] at hheld ⊢
      revert hheld hstab
      cases c.state <;> decide
    · rintro ⟨c, hc, rfl, hval⟩
      refine ⟨chi_states_of_cache hc hval, fun hinv => ?_⟩
      rw [hinv] at hval
      cases hval

end Recorded

/-- The accesses of a processor, with the conditional store. -/
def isConditionalAccess (operation : MemoryOperation) : Bool :=
  isProcessorAccess operation || operation = .storeConditional

theorem isConditionalAccess_answered {req : MemoryRequest}
    (h : isConditionalAccess req.operation = true) :
    req.responseRequired = true ∧ req.operation ≠ .cacheBlockZero := by
  have hop : req.operation.requiresResponse = true ∧ req.operation ≠ .cacheBlockZero := by
    revert h
    cases req.operation <;> decide
  exact ⟨req.answered hop.1, hop.2⟩

theorem chi_step {line seen h call} {layout : CacheLineLayout} {init : Nat → UInt8}
    (htop : line + layout.bytes < wordLimit)
    (hcoh : Coherent chiHarness chiDiscipline layout line layout.bytes
      (Holds layout line (latest init seen)) h)
    (hop : isConditionalAccess call.request.operation = true) :
    Coherent chiHarness chiDiscipline layout line layout.bytes
        (Holds layout line (latest init (seen ++ (h.completedRequest chiHarness call).toList)))
        (h.next chiHarness call) ∧
      (Answerable layout h call → h.Succeeds chiHarness call) ∧
      AnsweredFrom (latest init seen) call.request (h.reply chiHarness call) := by
  obtain ⟨hanswered, hzero⟩ := isConditionalAccess_answered hop
  rcases data_step chi_sound hcoh (fun _ => trivial)
    (fun _ hunowned hlong => hcoh.backed hunowned hlong 0) hzero (.inr hanswered) with
      ⟨-, -, hbreak⟩ | ⟨hnext, hrep⟩
  · rcases hbreak with hshort | ⟨hsize, -⟩
    · omega
    · exact absurd rfl hsize
  · refine ⟨hnext, fun hcall => ?_, hrep⟩
    exact succeeds_of_answerable chi_sound (holds_copyable) hcoh rfl htop
      (fun _ => trivial) (fun _ hunowned hlong => hcoh.backed hunowned hlong) hcall hanswered

/-- In every run of a fresh CHI harness over a backing line of its size, failed
    calls included, every answerable call succeeds, the caches are as recorded
    after each call, and every completed read is answered with the bytes left by
    the latest successful store. -/
theorem chi_coherent (layout : CacheLineLayout) (lineAddress : Nat) (backing : LineBackingStore)
    (agents : List AgentId) (h : ChiHarness)
    (hnew : Harness.new chiHarness layout lineAddress backing agents = .ok h)
    (hsize : backing.layout.bytes = layout.bytes) (htop : h.line + layout.bytes < wordLimit)
    (calls : List Call) (call : Call)
    (hops : ∀ c ∈ calls ++ [call], isConditionalAccess c.request.operation = true) :
    (Answerable layout (run (Harness.next chiHarness) h calls) call →
      (run (Harness.next chiHarness) h calls).Succeeds chiHarness call) ∧
    ChiRecorded (run (Harness.next chiHarness) h (calls ++ [call])) ∧
    AnsweredFrom (latest h.initialMemory (h.history chiHarness calls)) call.request
      ((run (Harness.next chiHarness) h calls).reply chiHarness call) := by
  have hisNew := new_spec hnew
  have hstart : Coherent chiHarness chiDiscipline layout h.line layout.bytes
      (Holds layout h.line (latest h.initialMemory [])) h := by
    rw [← hsize]
    refine coherent_new hisNew rfl ?_ (fun hlong _ => hisNew.backing_window hlong)
    refine ⟨fun _ _ h => ?_, fun _ b => (if_neg Std.TreeMap.not_mem_emptyc).symm,
      fun b state h => ?_⟩
    · cases h
    · simp only [chiHarness, chiDirectory, ChiLine.empty, Std.TreeMap.getElem?_emptyc,
        reduceCtorEq] at h
  have hlast := along_last (Harness.next chiHarness) (Harness.completedRequest chiHarness)
    (fun _ call => isConditionalAccess call.request.operation = true)
    (fun s seen => Coherent chiHarness chiDiscipline layout h.line layout.bytes
      (Holds layout h.line (latest h.initialMemory seen)) s)
    (fun s call seen => ChiRecorded (s.next chiHarness call) ∧
      (Answerable layout s call → s.Succeeds chiHarness call) ∧
      AnsweredFrom (latest h.initialMemory seen) call.request (s.reply chiHarness call))
    (fun s call seen hcoh hP => ?_) calls call h hstart
    (along_of_forall _ _ _ _ hops)
  · rw [run_append]
    exact ⟨hlast.2.1, hlast.1, hlast.2.2⟩
  · obtain ⟨hnext, hanswer, hreply⟩ := chi_step htop hcoh hP
    exact ⟨hnext, hnext.chiRecorded, hanswer, hreply⟩

/-- A reader that displaces the writer is answered, and both are recorded. -/
theorem chi_second_reader_current :
    ∃ h, Harness.new chiHarness byteLayout 0 (byteBacking 7) [1, 2] = .ok h ∧
      (run (Harness.next chiHarness) h [byteWrite 1 9]).reply chiHarness (byteRead 2)
        = some ⟨0, .fill, ⟨2, 0⟩, .completed, some [9]⟩ ∧
      (run (Harness.next chiHarness) h [byteWrite 1 9]).Succeeds chiHarness (byteRead 2) ∧
      ChiRecorded (run (Harness.next chiHarness) h [byteWrite 1 9, byteRead 2]) ∧
      AnsweredFrom (latest h.initialMemory (h.history chiHarness [byteWrite 1 9]))
        (byteRead 2).request
        ((run (Harness.next chiHarness) h [byteWrite 1 9]).reply chiHarness (byteRead 2)) := by
  refine ⟨_, rfl, by decide, ?_⟩
  have hrun := chi_coherent byteLayout 0 (byteBacking 7) [1, 2] _ rfl rfl (by decide)
    [byteWrite 1 9] (byteRead 2) (by decide)
  exact ⟨hrun.1 ⟨⟨_, rfl⟩, rfl, by decide, by decide⟩, hrun.2⟩

/-! ## Refused calls -/

/-- An agent reads two bytes, one of them outside the line. -/
def byteReadOver (agent : AgentId) : Call where
  agent
  request :=
    { id := ⟨agent, 0⟩, operation := .readShared, range := ⟨0, ⟨2, Nat.two_pos⟩, by decide⟩
      lineLayout := byteLayout, valid := rfl, answered := fun h => h }

/-- An agent compares and swaps the byte, which is too narrow for the operation. -/
def byteCompareSwap (agent : AgentId) (expected value : UInt8) : Call where
  agent
  request :=
    { id := ⟨agent, 0⟩, operation := .atomic, range := byteRange, lineLayout := byteLayout
      data := some [value], byteMask := some fullMask
      atomicOp := some .compareSwap, atomicCompare := some [expected]
      valid := rfl, answered := fun h => h }

def pairLayout : CacheLineLayout := ⟨2, ⟨1, rfl⟩, by decide⟩

/-- A backing line of two bytes. -/
def pairBacking (address : Nat) : LineBackingStore :=
  ⟨pairLayout, address, [7, 7], fun _ => none, rfl⟩

/-- An agent reads a byte of the line at the top of the address space. -/
def topRead (agent : AgentId) : Call where
  agent
  request :=
    { id := ⟨agent, 0⟩, operation := .readShared
      range := ⟨2 ^ 64 - 2, ⟨1, Nat.one_pos⟩, by decide⟩
      lineLayout := pairLayout, valid := rfl, answered := fun h => h }

/-- Calls by an agent of the harness and for its line that are refused: an access
    that leaves the line, an atomic of the wrong width, a read that displaces the
    owner over a backing line of another size, and any miss on the topmost line. -/
theorem chi_refusals :
    (∃ h, Harness.new chiHarness byteLayout 0 (byteBacking 7) [1] = .ok h ∧
      (byteReadOver 1).request.lineAddress = h.line ∧ ¬ h.Succeeds chiHarness (byteReadOver 1)) ∧
    (∃ h, Harness.new chiHarness byteLayout 0 (byteBacking 7) [1] = .ok h ∧
      (byteCompareSwap 1 7 9).request.lineAddress = h.line ∧
      ¬ h.Succeeds chiHarness (byteCompareSwap 1 7 9)) ∧
    (∃ h, Harness.new chiHarness byteLayout 0 (pairBacking 0) [1, 2] = .ok h ∧
      (byteRead 2).request.lineAddress = h.line ∧
      ¬ (run (Harness.next chiHarness) h [byteWrite 1 9]).Succeeds chiHarness (byteRead 2)) ∧
    ∃ h, Harness.new chiHarness pairLayout (2 ^ 64 - 2) (pairBacking (2 ^ 64 - 2)) [1] = .ok h ∧
      (topRead 1).request.lineAddress = h.line ∧ ¬ h.Succeeds chiHarness (topRead 1) := by
  refine ⟨⟨_, rfl, rfl, ?_⟩, ⟨_, rfl, rfl, ?_⟩, ⟨_, rfl, rfl, ?_⟩, ⟨_, rfl, rfl, ?_⟩⟩ <;>
    · rintro ⟨_, ⟨⟩⟩

end Coherence

end Rem6
