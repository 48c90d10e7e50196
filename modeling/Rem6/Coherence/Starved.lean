import Rem6.Coherence.Runs

/-!
# A Backing Line that is Too Short

A harness takes any backing line that starts at the right address. If the line
is shorter than the ones the caches hold, no fill can ever be produced from it,
and so none at all: the first agent that misses is recorded by the directory and
waits for ever, and every later miss is referred to an agent that waits.

Nobody is ever served, whatever the protocol. The tables have to do little for
this, and `Withholds` says what: a grant names a source that has the line by
the record, and only such agents are snooped.

## Main definitions

* `Withholds`: What the tables have to do.
* `Starved`: Nobody has the line, and whoever is recorded waits.

## Theorems

* `starved_new`: A fresh harness has nobody to serve from.
* `starved_step`: No call ever changes that, and none is served.
-/

namespace Rem6.Coherence

open Memory Protocol Cache Directory Lib Harness CacheController

variable {D S E : Type}

/-- What the tables do for an agent that is not recorded: `Listed` says who is. -/
structure Withholds (R : HarnessRules D S E) (Listed : D → AgentId → Prop) : Prop where
  invalid_stable : R.protocol.isStable R.protocol.invalid = true
  invalid_upgrade : R.protocol.upgradesFrom R.protocol.invalid = false
  waits : ∀ read, ∃ after,
    R.protocol.transition R.protocol.invalid (requestEvent R.protocol read) = some after ∧
      R.protocol.isStable after = false
  empty : ∀ agent, ¬ Listed R.directory.empty agent
  handles : ∀ record agent kind, kind ≠ .upgrade → ¬ Listed record agent →
    ∃ handled, (∀ line, handle R.directory line record agent kind = .ok handled) ∧
      handled.dataSource ≠ .noData ∧
      (∀ owner, handled.dataSource = .ownerCache owner → Listed record owner) ∧
      (∀ a, Listed handled.after a → Listed record a ∨ a = agent) ∧
      ∀ snoop ∈ handled.snoops, Listed record snoop.target ∧
        ∀ state, R.protocol.isStable state = false → R.protocol.transition state snoop.event = none

/-- A controller without the line. -/
structure Unfed (P : LineProtocol S E) (layout : CacheLineLayout) (line : Nat) (agent : AgentId)
    (c : CacheController S E) : Prop where
  agent_eq : c.agent = agent
  layout_eq : c.layout = layout
  line_eq : c.line = line
  data_eq : c.data = none
  state_eq : c.state = P.invalid ∨ P.isStable c.state = false

/-- Nobody has the line, and whoever the directory records waits for it. -/
structure Starved (R : HarnessRules D S E) (Listed : D → AgentId → Prop)
    (layout : CacheLineLayout) (line size : Nat) (h : Harness D S E) : Prop where
  aligned : layout.lineAddress line = line
  backing_line : h.backing.lineAddress = line
  backing_size : h.backing.layout.bytes = size
  unfed : ∀ agent c, h.caches agent = some c → Unfed R.protocol layout line agent c
  listed : ∀ agent, Listed (h.directory line) agent →
    ∃ c, h.caches agent = some c ∧ R.protocol.isStable c.state = false

variable {R : HarnessRules D S E} {Listed : D → AgentId → Prop} {layout : CacheLineLayout}
  {line size : Nat} {h : Harness D S E} {agent : AgentId}

theorem starved_new {laddr backing} (hholds : Withholds R Listed)
    (hnew : IsNew R layout laddr backing h) :
    Starved R Listed layout h.line backing.layout.bytes h := by
  have haligned : layout.lineAddress h.line = h.line := by
    rw [hnew.line_eq, CacheLineLayout.lineAddress_lineAddress]
  refine ⟨haligned, by rw [hnew.backing_eq, hnew.backing_line], by rw [hnew.backing_eq], ?_, ?_⟩
  · intro agent c hc
    rw [hnew.caches_new agent c hc]
    exact ⟨rfl, rfl, haligned, rfl, .inl rfl⟩
  · intro agent hlisted
    rw [hnew.directory_eq] at hlisted
    exact absurd hlisted (hholds.empty agent)

variable {c : CacheController S E}

theorem Starved.setWaiting (hs : Starved R Listed layout line size h)
    (hc : Unfed R.protocol layout line agent c) (hwaits : R.protocol.isStable c.state = false) :
    Starved R Listed layout line size (h.setCache agent c) := by
  refine ⟨hs.aligned, hs.backing_line, hs.backing_size, ?_, ?_⟩
  · exact forall_setCache hc fun b d _ => hs.unfed b d
  · intro b hlisted
    by_cases hb : b = agent
    · subst hb
      exact ⟨c, h.setCache_self b c, hwaits⟩
    · obtain ⟨d, hd, hdwaits⟩ := hs.listed b hlisted
      exact ⟨d, by rw [h.setCache_of_ne _ hb]; exact hd, hdwaits⟩

theorem Starved.record (hs : Starved R Listed layout line size h) (hc : h.caches agent = some c)
    (hwaits : R.protocol.isStable c.state = false) {record : D}
    (haft : ∀ a, Listed record a → Listed (h.directory line) a ∨ a = agent) :
    Starved R Listed layout line size
      { h with directory := Function.update h.directory line record } := by
  refine ⟨hs.aligned, hs.backing_line, hs.backing_size, hs.unfed, fun a hlisted => ?_⟩
  simp only [Function.update_self] at hlisted
  rcases haft a hlisted with hbef | rfl
  · exact hs.listed a hbef
  · exact ⟨c, hc, hwaits⟩

variable [DecidableEq S]

/-- No decision can be carried out: its source waits itself, or is the line that
    is too short. -/
theorem directoryResponse_starved {kind request} (hs : Starved R Listed layout line size h)
    (hshort : size < layout.bytes) (record : D) {handled : Handled D S E}
    (hsrc : handled.dataSource ≠ .noData)
    (hown : ∀ owner, handled.dataSource = .ownerCache owner →
      ∃ c, h.caches owner = some c ∧ R.protocol.isStable c.state = false)
    (hsnoops : ∀ snoop ∈ handled.snoops,
      (∃ c, h.caches snoop.target = some c ∧ R.protocol.isStable c.state = false) ∧
      ∀ state, R.protocol.isStable state = false → R.protocol.transition state snoop.event = none)
    (hdown : IsDownstream c kind request) (hkind : kind ≠ .upgrade)
    (hc : Unfed R.protocol layout line agent c) :
    ∃ e, h.directoryResponse R request (handled.decision line request.id record)
      = (.error e, h) := by
  unfold directoryResponse
  simp only [Handled.decision, sourceData]
  cases hds : handled.dataSource with
  | noData => exact absurd hds hsrc
  | ownerCache owner =>
    obtain ⟨d, hd, -⟩ := hown owner hds
    simp only [hd, (hs.unfed owner d hd).data_eq]
    exact ⟨_, rfl⟩
  | backingMemory =>
    have hwr : ∀ wanted, h.writeBack wanted none = .ok h := by
      intro wanted
      cases wanted <;> rfl
    simp only [hwr]
    cases hlist : handled.snoops with
    | nil =>
      -- Nobody to snoop, so the backing line is asked, and refuses.
      have hreq : LineBackingStore.IsLineRequest h.backing request :=
        ⟨by rw [hdown.line_eq, hc.line_eq, hs.backing_line], hdown.offset_eq, hdown.answered⟩
      have hsize := hdown.size_eq hkind
      rw [hc.layout_eq] at hsize
      rcases h.backing.respond_readLine hreq (hdown.reads hkind) with
        ⟨-, e, he⟩ | ⟨hlong, -⟩
      · refine ⟨.backing e, ?_⟩
        simp only [deliverSnoops, grantResponse, he, Except.mapError]
      · rw [h.backing.full, hs.backing_size, hsize] at hlong
        omega
    | cons snoop =>
      rcases hsnoops snoop (by rw [hlist]; exact List.mem_cons_self) with
        ⟨⟨d, hd, hdwaits⟩, hrefuses⟩
      have hsnoop : ∃ e, acceptSnoop R.protocol d snoop.event = (.error (.protocol e), d) := by
        unfold acceptSnoop LineProtocol.apply
        simp only [hrefuses d.state hdwaits]
        by_cases hbusy :
            (R.protocol.isTransient d.state && R.protocol.isCpuRequest snoop.event) = true
        · exact ⟨_, by rw [if_pos hbusy]⟩
        · exact ⟨_, by rw [if_neg hbusy]⟩
      obtain ⟨e, he⟩ := hsnoop
      refine ⟨mapCacheError (.protocol e), ?_⟩
      simp [deliverSnoops, hd, he, setCache_eq_self hd]

/-- A miss is recorded and then waits for ever. -/
theorem resolveMiss_starved {downstream} (hholds : Withholds R Listed)
    (hs : Starved R Listed layout line size h)
    (hshort : size < layout.bytes) (waiting : CacheController S E) {kind : RequestKind}
    (hc : h.caches agent = some c) (hinv : c.state = R.protocol.invalid)
    (hdown : IsDownstream c kind downstream) (hkind : kind ≠ .upgrade)
    (hok : Unfed R.protocol layout line agent waiting)
    (hwaits : R.protocol.isStable waiting.state = false) :
    ∃ e h', (h.setCache agent waiting).resolveMiss R agent .miss downstream = (.error e, h') ∧
      Starved R Listed layout line size h' ∧ h'.cpuResponses = h.cpuResponses := by
  have hunfed := hs.unfed agent c hc
  -- Whoever is recorded waits, and the requester did not.
  have hfree : ¬ Listed (h.directory line) agent := by
    intro hlisted
    obtain ⟨d, hd, hdwaits⟩ := hs.listed agent hlisted
    rw [hc, Option.some.injEq] at hd
    simp [← hd, hinv, hholds.invalid_stable] at hdwaits
  rcases hholds.handles (h.directory line) agent kind hkind hfree with
    ⟨handled, hhandle, hsrc, hown, haft, hsnoops⟩
  have hacc : accept R.directory (h.setCache agent waiting).directory downstream
      = (.ok (handled.decision line downstream.id (h.directory line)),
          Function.update h.directory line handled.after) := by
    rw [accept_of_kind R.directory _ hdown.operation_eq
      (hdown.line_eq.trans hunfed.line_eq) (hdown.asks hunfed.agent_eq)]
    simp [setCache, hhandle]
  have hs' := hs.setWaiting hok hwaits
  have hrec := hs'.record (h.setCache_self agent waiting) hwaits haft
  have hwaiting : ∀ a, Listed (h.directory line) a →
      ∃ d, (h.setCache agent waiting).caches a = some d ∧ R.protocol.isStable d.state = false :=
    hs'.listed
  rcases directoryResponse_starved hrec hshort (h.directory line) hsrc
    (fun owner ho => hwaiting owner (hown owner ho))
    (fun snoop hmem => ⟨hwaiting snoop.target (hsnoops snoop hmem).1, (hsnoops snoop hmem).2⟩)
    hdown hkind hunfed with ⟨e, he⟩
  cases hfill : R.fillEvent (handled.decision line downstream.id (h.directory line)) with
  | error e' =>
    refine ⟨e', _, ?_, hrec, rfl⟩
    unfold resolveMiss
    simp only [hacc, hfill]
    rfl
  | ok ev =>
    refine ⟨e, _, ?_, hrec, rfl⟩
    have hrefused : directoryResponse R
        { h.setCache agent waiting with
          directory := Function.update h.directory line handled.after } downstream
        (handled.decision line downstream.id (h.directory line)) = _ := he
    unfold resolveMiss
    simp [hacc, hfill, hrefused]

/-- A call on a starved harness serves nobody and leaves it starved. -/
theorem starved_step (hholds : Withholds R Listed) (hs : Starved R Listed layout line size h)
    (hshort : size < layout.bytes) (call : Call) :
    Starved R Listed layout line size (h.next R call) ∧
      (h.reply R call = none ∨ call.request.operation = .noAccess) := by
  -- A call that records no response has replied nothing.
  have hquiet : ∀ h', h.next R call = h' → Starved R Listed layout line size h' →
      h'.cpuResponses = h.cpuResponses →
      Starved R Listed layout line size (h.next R call) ∧
        (h.reply R call = none ∨ call.request.operation = .noAccess) := by
    intro h' hnext hs' hres
    exact ⟨hnext ▸ hs', .inl (reply_of_same (by rw [hnext]; exact hres))⟩
  have hent := submit_entry R h call.agent call.request
  generalize hrun : h.submitCpuRequest R call.agent call.request = oc at hent
  have hnext : h.next R call = oc.2 := congrArg Prod.snd hrun
  cases hent with
  | unknownAgent hc | wrongLine | unexpected | busy => exact hquiet h hnext hs rfl
  | idle c hc hop =>
    refine ⟨hnext ▸ ?_, .inr hop⟩
    exact ⟨hs.aligned, hs.backing_line, hs.backing_size, hs.unfed, hs.listed⟩
  | admitted c hc hline hop hstab =>
    have hok := hs.unfed call.agent c hc
    have hinv : c.state = R.protocol.invalid := by
      rcases hok.state_eq with hinv | hwaits
      · exact hinv
      · cases hstab.symm.trans hwaits
    rcases hholds.waits (isCpuRead call.request.operation) with
      ⟨after, hstep, haft⟩
    have hmiss := submitCpuRequest_of_miss (R := R) hc hline hop hstab
      (by rw [hinv]; exact hstep) haft
    rw [hrun] at hmiss
    rcases downstreamRequest_spec R.protocol { c with state := after } call.request c.state
      (by rw [hok.layout_eq, hok.line_eq]; exact hs.aligned) with
        ⟨-, e, he⟩ | ⟨downstream, hd, hdown⟩
    · rw [he] at hmiss
      subst hmiss
      refine hquiet _ hnext (hs.setWaiting ?_ haft) rfl
      exact ⟨hok.agent_eq, hok.layout_eq, hok.line_eq, hok.data_eq, .inr haft⟩
    · rw [hd] at hmiss
      rcases resolveMiss_starved hholds hs hshort
        { c with
          state := after
          nextSequence := c.nextSequence + 1
          pending := some ⟨call.request, downstream.id, R.protocol.missFillEvent after⟩ }
        hc hinv hdown.of_state (missKind_ne_upgrade (by rw [hinv, hholds.invalid_upgrade]))
        ⟨hok.agent_eq, hok.layout_eq, hok.line_eq, hok.data_eq, .inr haft⟩ haft with
          ⟨e, h', hresolve, hs', hres⟩
      have hend : oc = (.error e, h') := hmiss.trans hresolve
      exact hquiet h' (hnext.trans (congrArg Prod.snd hend)) hs' hres

end Rem6.Coherence
