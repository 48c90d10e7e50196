import Rem6.Coherence.Mesi

/-!
# A Blocked Directory

When a call on a MESI harness fails after the directory has decided, its agent is
recorded and waits for ever. This module is about the record from there on: every
request to write has to snoop an agent that waits, and an agent that waits
refuses every snoop. A failing call may still have delivered some of its snoops,
so owners are lost on the way, and none is made.

## Main definitions

* `Lowered`: What snoops do to a harness. Owners are lost, never made.
* `Blocked`: The record refers every writer to an agent that waits.

## Theorems

* `mesi_withholds`: Over a short backing line nobody is ever served.
* `deliverSnoops_lowered`: Snoops lose owners, and fail at an agent that waits.
* `Blocked.handles`: How a blocked directory answers.
-/

namespace Rem6.Coherence

open Memory Protocol Cache Directory Lib OwnerLine MesiEvent

/-- A MESI harness. -/
abbrev MesiHarness := Harness (OwnerLine MesiState) MesiState MesiEvent

/-- A controller of it. -/
abbrev MesiController := CacheController MesiState MesiEvent

theorem mesi_refuses {st} (hwaits : st.isStable = false) :
    mesi.transition st .snoopRead = none ∧ mesi.transition st .snoopWrite = none := by
  cases st <;> first
    | exact ⟨rfl, rfl⟩
    | cases hwaits

/-- An agent the record does not name is never granted the line without data. -/
theorem mesi_withholds : Withholds mesiHarness Listed := by
  refine owner_withholds .shared .modified .snoopRead .snoopWrite rfl rfl
    (fun read => ?_) (fun st hwaits => mesi_refuses hwaits) rfl rfl
    (fun line owner recd agent hown hne => ?_) (fun line agent hown => ?_)
  · cases read <;> exact ⟨_, rfl, rfl⟩
  · show mesiReadShared line agent = _
    rw [mesiReadShared, hown]
    exact if_neg hne
  · have hread : mesiHarness.directory.acceptReadShared line agent = mesiReadShared line agent :=
      rfl
    rw [hread, mesiReadShared, hown]
    -- The first reader becomes owner, the others join the sharers.
    cases hemp : line.sharers.isEmpty with
    | true =>
      refine ⟨⟨some (agent, .exclusive), line.sharers⟩, .exclusive, rfl, fun a h => ?_⟩
      rcases h with howned | hsharer
      · exact .inr (of_decide_eq_true howned).symm
      · exact .inl (.inr hsharer)
    | false =>
      refine ⟨⟨none, line.sharers.insert agent⟩, .shared, rfl, fun a h => ?_⟩
      rw [listed_sharers, mem_insert_iff] at h
      exact h.elim .inr (fun hbef => .inl (.inr hbef))

/-! ## Snoops lose owners -/

/-- The agent's controller waits for a fill. -/
def Harness.Waits (h : MesiHarness) (agent : AgentId) : Prop :=
  ∃ c, h.caches agent = some c ∧ c.state.isStable = false

/-- One controller, before and after snoops: as it was, or settled and no owner
    any more. -/
def Lowers (before after : Option MesiController) : Prop :=
  after = before ∨ ∃ c d, before = some c ∧ c.state.isStable = true ∧ after = some d ∧
    d.state.isOwned = false ∧ d.agent = c.agent ∧ d.layout = c.layout ∧ d.line = c.line

theorem Lowers.trans {a b c} (hab : Lowers a b) (hbc : Lowers b c) : Lowers a c := by
  rcases hab with rfl | ⟨x, y, hx, hstab, hy, hlost, hag, hlayout, hline⟩
  · exact hbc
  · rcases hbc with rfl | ⟨y', z, hy', -, hz, howned, hag', hlayout', hline'⟩
    · exact .inr ⟨x, y, hx, hstab, hy, hlost, hag, hlayout, hline⟩
    · rw [hy] at hy'
      cases hy'
      exact .inr ⟨x, z, hx, hstab, hz, howned, hag'.trans hag, hlayout'.trans hlayout,
        hline'.trans hline⟩

/-- What snoops do to a harness. -/
structure Lowered (h h' : MesiHarness) : Prop where
  directory_eq : h'.directory = h.directory
  responses_eq : h'.cpuResponses = h.cpuResponses
  caches : ∀ b, Lowers (h.caches b) (h'.caches b)

theorem Lowered.refl (h : MesiHarness) : Lowered h h := ⟨rfl, rfl, fun _ => .inl rfl⟩

theorem Lowered.trans {h₁ h₂ h₃} (h₁₂ : Lowered h₁ h₂) (h₂₃ : Lowered h₂ h₃) : Lowered h₁ h₃ :=
  ⟨h₂₃.directory_eq.trans h₁₂.directory_eq, h₂₃.responses_eq.trans h₁₂.responses_eq,
    fun b => (h₁₂.caches b).trans (h₂₃.caches b)⟩

variable {agent : AgentId}

theorem Lowered.waits {h h'} (hl : Lowered h h') (hw : h.Waits agent) : h'.Waits agent := by
  obtain ⟨c, hc, hwaits⟩ := hw
  rcases hl.caches agent with hsame | ⟨c', d, hc', hstab, -⟩
  · exact ⟨c, hsame.trans hc, hwaits⟩
  · rw [hc, Option.some.injEq] at hc'
    simp [hc', hstab] at hwaits

/-- The two snoops of the directory. -/
def IsSnoop (event : MesiEvent) : Prop := event = .snoopRead ∨ event = .snoopWrite

/-- One snoop: refused by a line that waits, and otherwise the end of an owner. -/
theorem acceptSnoop_lowers {ev} (c : MesiController) (hev : IsSnoop ev) :
    Lowers (some c) (some (CacheController.acceptSnoop mesi c ev).2) ∧
      (c.state.isStable = false → ∃ e, CacheController.acceptSnoop mesi c ev = (.error e, c)) := by
  obtain ⟨agent, layout, line, st, _⟩ := c
  rcases hev with rfl | rfl <;> cases st <;> first
    | exact ⟨.inl rfl, fun _ => ⟨_, rfl⟩⟩
    | exact ⟨.inr ⟨_, _, rfl, rfl, rfl, rfl, rfl, rfl, rfl⟩,
        fun h => absurd h (by show ¬ (true = false); decide)⟩

theorem setCache_lowered {c d h} (hc : h.caches agent = some c) (hl : Lowers (some c) (some d)) :
    Lowered h (h.setCache agent d) := by
  refine ⟨rfl, rfl, fun b => ?_⟩
  by_cases hb : b = agent
  · subst hb
    rwa [hc, Harness.setCache_self]
  · rw [h.setCache_of_ne _ hb]
    exact .inl rfl

/-- Snoops lose owners, and fail if one of their targets waits. -/
theorem deliverSnoops_lowered (snoops : List (DirectorySnoop MesiEvent)) :
    ∀ (h : MesiHarness), (∀ snoop ∈ snoops, IsSnoop snoop.event) →
      Lowered h (h.deliverSnoops mesi snoops).2 ∧
        ((∃ snoop ∈ snoops, h.Waits snoop.target) →
          ∃ e, (h.deliverSnoops mesi snoops).1 = .error e) := by
  induction snoops with
  | nil =>
    intro h _
    refine ⟨.refl h, fun hsome => ?_⟩
    obtain ⟨snoop, hmem, -⟩ := hsome
    cases hmem
  | cons snoop rest ih =>
    intro h hevs
    cases hc : h.caches snoop.target with
    | none =>
      simp only [Harness.deliverSnoops, hc]
      exact ⟨.refl h, fun _ => ⟨_, rfl⟩⟩
    | some c =>
      rcases acceptSnoop_lowers c (hevs snoop List.mem_cons_self) with
        ⟨hlow, hrefused⟩
      have hfirst := setCache_lowered hc hlow
      simp only [Harness.deliverSnoops, hc]
      generalize hacc : CacheController.acceptSnoop mesi c snoop.event = accepted
      rw [hacc] at hfirst hrefused
      rcases accepted with ⟨e | res, d⟩
      · exact ⟨hfirst, fun _ => ⟨_, rfl⟩⟩
      · rcases ih (h.setCache snoop.target d)
          (fun s hs => hevs s (List.mem_cons_of_mem snoop hs)) with ⟨hrest, hfails⟩
        refine ⟨hfirst.trans hrest, fun hsome => hfails ?_⟩
        obtain ⟨s, hmem, hw⟩ := hsome
        rcases List.mem_cons.mp hmem with rfl | hmem
        · -- The target that was just snooped did not wait, or it had refused.
          obtain ⟨c', hc', hwaits⟩ := hw
          rw [hc, Option.some.injEq] at hc'
          obtain ⟨e, he⟩ := hrefused (hc' ▸ hwaits)
          cases congrArg Prod.fst he
        · exact ⟨s, hmem, hfirst.waits hw⟩

/-! ## A blocked directory -/

/-- The record refers every writer to an agent that waits: to the owner, or to
    one of the sharers. -/
def Blocked (record : OwnerLine MesiState) (waits : AgentId → Prop) : Prop :=
  (∃ owner recorded, record.owner = some (owner, recorded) ∧ (∀ b, b ∉ record.sharers) ∧
    waits owner) ∨
  (record.owner = none ∧ ∃ b ∈ record.sharers, waits b)

variable {record : OwnerLine MesiState}

theorem Blocked.mono {waits waits' : AgentId → Prop} (hb : Blocked record waits)
    (hw : ∀ b, waits b → waits' b) : Blocked record waits' := by
  rcases hb with ⟨owner, recd, hown, hnone, hwaits⟩ | ⟨hown, b, hmem, hwaits⟩
  · exact .inl ⟨owner, recd, hown, hnone, hw owner hwaits⟩
  · exact .inr ⟨hown, b, hmem, hw b hwaits⟩

theorem blocked_taken {waits : AgentId → Prop} (hw : waits agent) :
    Blocked ⟨some (agent, .modified), ∅⟩ waits :=
  .inl ⟨agent, .modified, rfl, fun _ => Std.TreeSet.not_mem_emptyc, hw⟩

theorem mem_snoopOthers {b event} (hlisted : record.Listed b) (hne : b ≠ agent) :
    (⟨b, event⟩ : DirectorySnoop MesiEvent) ∈ snoopOthers record agent event := by
  unfold snoopOthers
  refine List.mem_append.mpr ?_
  rcases hlisted with hown | hsharer
  · obtain ⟨recorded, howner⟩ := (record.isOwner_iff b).mp hown
    refine .inl ?_
    simp [howner, if_neg hne]
  · refine .inr (List.mem_map.mpr ⟨b, List.mem_filter.mpr ⟨?_, decide_eq_true hne⟩, rfl⟩)
    exact Std.TreeSet.mem_toList.mpr hsharer

theorem snoopSharers_event :
    ∀ snoop ∈ record.snoopSharers agent snoopWrite, snoop.event = .snoopWrite := by
  intro snoop hmem
  obtain ⟨b, -, rfl⟩ := List.mem_map.mp hmem
  rfl

theorem snoopOthers_event :
    ∀ snoop ∈ snoopOthers record agent snoopWrite, snoop.event = .snoopWrite := by
  intro snoop hmem
  rcases List.mem_append.mp hmem with hfirst | hrest
  · cases hown : record.owner with
    | none => simp [hown] at hfirst
    | some owner =>
      simp only [hown] at hfirst
      split at hfirst
      · cases hfirst
      · rw [List.mem_singleton.mp hfirst]
  · exact snoopSharers_event snoop hrest

theorem acceptReadUnique_after :
    (acceptReadUnique MesiState.modified snoopWrite record agent).after
      = ⟨some (agent, .modified), ∅⟩ := by
  unfold acceptReadUnique
  cases record.owner with
  | none => rfl
  | some owner =>
    by_cases hne : owner.1 = agent
    · simp [if_pos hne]
    · simp [if_neg hne]

/-- How a blocked directory answers an agent that does not wait: it refuses, or
    it snoops somebody who waits and the requester then blocks it, or it lets a
    reader join the sharers. -/
theorem Blocked.handles {waits : AgentId → Prop} (hb : Blocked record waits) (hfree : ¬ waits agent)
    (kind : RequestKind) (line : Nat) :
    (∃ e, handle mesiDirectory line record agent kind = .error e) ∨
    (∃ handled, handle mesiDirectory line record agent kind = .ok handled ∧
      (∀ snoop ∈ handled.snoops, IsSnoop snoop.event) ∧
      (∃ snoop ∈ handled.snoops, waits snoop.target) ∧
      ∀ waits' : AgentId → Prop, waits' agent → Blocked handled.after waits') ∨
    (kind = .readShared ∧ record.owner = none ∧
      handle mesiDirectory line record agent kind
        = .ok ⟨⟨none, record.sharers.insert agent⟩, [], .shared, .backingMemory⟩) := by
  -- Somebody the record names waits, and is not the requester.
  have hwaiter : ∃ b, record.Listed b ∧ waits b ∧ b ≠ agent := by
    rcases hb with ⟨owner, recd, howner, -, hw⟩ | ⟨-, b, hmem, hw⟩
    · exact ⟨owner, .inl ((record.isOwner_iff owner).mpr ⟨recd, howner⟩), hw,
        fun h => hfree (h ▸ hw)⟩
    · exact ⟨b, .inr hmem, hw, fun h => hfree (h ▸ hw)⟩
  cases kind with
  | readUnique =>
    obtain ⟨b, hlisted, hw, hne⟩ := hwaiter
    refine .inr (.inl ⟨_, rfl, ?_, ⟨⟨b, .snoopWrite⟩, ?_, hw⟩, fun waits' hag => ?_⟩)
    · show ∀ snoop ∈ (acceptReadUnique MesiState.modified snoopWrite record
        agent).snoops, IsSnoop snoop.event
      rw [acceptReadUnique_snoops]
      exact fun snoop hmem => .inr (snoopOthers_event snoop hmem)
    · show _ ∈ (acceptReadUnique MesiState.modified snoopWrite record agent).snoops
      rw [acceptReadUnique_snoops]
      exact mem_snoopOthers hlisted hne
    · show Blocked (acceptReadUnique MesiState.modified snoopWrite record agent).after waits'
      rw [acceptReadUnique_after]
      exact blocked_taken hag
  | upgrade =>
    have hisOwner : record.isOwner agent = false := by
      cases hown : record.isOwner agent with
      | false => rfl
      | true =>
        obtain ⟨st, hst⟩ := (record.isOwner_iff agent).mp hown
        rcases hb with ⟨owner, recd, howner, -, hw⟩ | ⟨howner, -⟩
        · rw [howner, Option.some.injEq, Prod.mk.injEq] at hst
          exact absurd (hst.1 ▸ hw) hfree
        · cases howner.symm.trans hst
    have hhandle : handle mesiDirectory line record agent .upgrade
        = acceptUpgrade .modified .snoopWrite line record agent := rfl
    rw [hhandle, acceptUpgrade, hisOwner]
    simp only [Bool.false_eq_true, if_false]
    by_cases hmem : agent ∈ record.sharers
    · -- A sharer asks, so there is no owner and the one that waits is a sharer too.
      rw [if_pos hmem]
      refine .inr (.inl ⟨_, rfl, fun snoop hmem => .inr (snoopSharers_event snoop hmem), ?_,
        fun _ hag => blocked_taken hag⟩)
      rcases hb with ⟨-, -, -, hnone, -⟩ | ⟨howner, b, hb, hw⟩
      · exact absurd hmem (hnone agent)
      · refine ⟨⟨b, .snoopWrite⟩, ?_, hw⟩
        refine List.mem_map.mpr ⟨b, List.mem_filter.mpr ⟨Std.TreeSet.mem_toList.mpr hb, ?_⟩, rfl⟩
        exact decide_eq_true (fun h => hfree (h ▸ hw))
    · rw [if_neg hmem]
      exact .inl ⟨_, rfl⟩
  | readShared =>
    have hhandle : handle mesiDirectory line record agent .readShared
        = .ok (mesiReadShared record agent) := rfl
    rw [hhandle, mesiReadShared]
    rcases hb with ⟨owner, recd, howner, -, hw⟩ | ⟨howner, b, hmem, -⟩
    · have hne : owner ≠ agent := fun h => hfree (h ▸ hw)
      simp only [howner, if_neg hne]
      refine .inr (.inl ⟨_, rfl, fun snoop hmem => ?_, ⟨_, List.mem_singleton_self _, hw⟩,
        fun _ hag => .inr ⟨rfl, agent, ?_, hag⟩⟩)
      · rw [List.mem_singleton.mp hmem]
        exact .inl rfl
      · exact (mem_insert_iff _ _ _).mpr (.inl rfl)
    · have hemp : record.sharers.isEmpty = false := by
        cases hemp : record.sharers.isEmpty with
        | false => rfl
        | true => exact absurd hmem (Std.TreeSet.isEmpty_iff_forall_not_mem.mp hemp b)
      simp only [howner, hemp, Bool.false_eq_true, if_false]
      exact .inr (.inr ⟨trivial, trivial, trivial⟩)

end Rem6.Coherence
