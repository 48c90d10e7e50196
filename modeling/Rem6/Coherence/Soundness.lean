import Rem6.Coherence.Discipline

/-!
# One Request, Soundly

The step lemma of the line harnesses, proved once for all four. Started in a
state that is coherent by a discipline its tables keep, a harness refuses a
request and changes nothing that matters, or serves it on a good copy of the
line and is coherent again.

The proof follows the request. `finish_outcome` is its end, where the controller
is ready and the request is served; a hit starts there. A miss gets there
through the directory: `sourceData_spec`, `writeBack_spec` and
`grantResponse_spec` are the parts of a decision that is carried out, and
`directoryResponse_spec` puts them together.

## Theorems

* `finish_outcome`: Serving a request once the controller is ready.
* `directoryResponse_spec`: Carrying out a decision.
* `submit_outcome`: The step lemma.
-/

namespace Rem6.Coherence

open Memory Protocol Cache Directory Function Harness CacheController

variable {D S E : Type} {R : HarnessRules D S E} {Δ : Discipline D S}
  {layout : CacheLineLayout} {line size : Nat} {Good : CopyPred} {agent : AgentId}

/-- The backing line has what a good copy has. -/
def Backed (layout : CacheLineLayout) (Good : CopyPred) (backing : LineBackingStore) : Prop :=
  ∀ agent, Good agent (backing.data.take layout.bytes) fun _ => none

/-- A harness once a decision has been carried out. -/
def carriedOut (h : Harness D S E) (line : Nat) (record : D)
    (caches : AgentId → Option (CacheController S E)) (backing : LineBackingStore)
    (directoryDecisions : List (DirectoryDecision D S E)) : Harness D S E :=
  { h with caches, backing, directoryDecisions, directory := update h.directory line record }

/-! ## What keeps a harness coherent -/

section Keeping

variable {h : Harness D S E} {c : CacheController S E} {request : MemoryRequest} {after : S}

theorem Coherent.of_responses {resps decisions} (hcoh : Coherent R Δ layout line size Good h) :
    Coherent R Δ layout line size Good
      { h with cpuResponses := resps, directoryDecisions := decisions } :=
  ⟨hcoh.line_eq, hcoh.aligned, hcoh.backing_line, hcoh.backing_size, hcoh.copies, hcoh.idle,
    hcoh.unheld, hcoh.agree, hcoh.backed⟩

theorem Coherent.mono {Good'} (hcoh : Coherent R Δ layout line size Good h)
    (hgood : ∀ agent data resvs, Good agent data resvs → Good' agent data resvs) :
    Coherent R Δ layout line size Good' h := by
  refine ⟨hcoh.line_eq, hcoh.aligned, hcoh.backing_line, hcoh.backing_size, fun agent c hc => ?_,
    hcoh.idle, hcoh.unheld, hcoh.agree, fun hclean hsize agent => ?_⟩
  · have hok := hcoh.copies agent c hc
    refine ⟨hok.agent_eq, hok.layout_eq, hok.line_eq, fun hheld => ?_⟩
    obtain ⟨data, hd, hlen, hg⟩ := hok.held hheld
    exact ⟨data, hd, hlen, hgood agent data _ hg⟩
  · exact hgood agent _ _ (hcoh.backed hclean hsize agent)

/-- Put back a controller that has served a request: the line's state has not
    moved, so the discipline is kept, and what is good is what `Serves` says. -/
theorem Coherent.afterServing {data}
    (hcoh : Coherent R Δ layout line size Good (h.setCache agent c))
    (hstab : R.protocol.isStable c.state = true) (hlen : data.length = layout.bytes)
    (hgood : Good agent data c.lockedReservations)
    (halone : isCpuRead request.operation = false →
      (∀ b, b ≠ agent → h.states R.protocol b = R.protocol.invalid) ∧ ¬ Δ.clean (h.directory line))
    (hfit : request.carriesData = true → request.lineOffset + request.size.bytes ≤ layout.bytes)
    (Good' : CopyPred) (hserves : Serves layout agent request Good Good') :
    Coherent R Δ layout line size Good' (h.setCache agent (c.afterServing request data)) := by
  have hsts : (h.setCache agent (c.afterServing request data)).states R.protocol
      = (h.setCache agent c).states R.protocol := by
    rw [states_setCache, states_setCache]
    rfl
  have hown := hcoh.copies agent c (h.setCache_self agent c)
  refine ⟨hcoh.line_eq, hcoh.aligned, hcoh.backing_line, hcoh.backing_size, ?_, ?_,
    by rw [hsts]; exact hcoh.unheld, by rw [hsts]; exact hcoh.agree, ?_⟩
  · refine forall_setCache ?_ fun b d hb hd => ?_
    · refine ⟨hown.agent_eq, hown.layout_eq, hown.line_eq, fun _ => ?_⟩
      refine ⟨request.lineEffect data, rfl, ?_, hserves.own data _ hlen hgood hfit⟩
      rw [request.lineEffect_length, hlen]
    · have hoth := hcoh.copies b d (by rw [h.setCache_of_ne c hb]; exact hd)
      refine ⟨hoth.agent_eq, hoth.layout_eq, hoth.line_eq, fun hheld => ?_⟩
      -- Another copy is held, so the request only reads and the copy stays good.
      cases hread : isCpuRead request.operation with
      | true =>
        obtain ⟨bytes, hbytes, hblen, hbgood⟩ := hoth.held hheld
        exact ⟨bytes, hbytes, hblen, hserves.others hread b bytes _ hbgood⟩
      | false =>
        have hnone := (halone hread).1 b hb
        rw [states_of_cache hd] at hnone
        exact absurd hnone hheld
  · refine fun htop => forall_setCache hstab fun b d hb hd => ?_
    exact hcoh.idle htop b d (by rw [h.setCache_of_ne c hb]; exact hd)
  · intro hclean hsize b
    cases hread : isCpuRead request.operation with
    | true => exact hserves.others hread b _ _ (hcoh.backed hclean hsize b)
    | false => exact absurd hclean (halone hread).2

theorem Coherent.setState (hcoh : Coherent R Δ layout line size Good h)
    (hc : h.caches agent = some c) (hstab : R.protocol.isStable c.state = true)
    (hval : c.state ≠ R.protocol.invalid) (haft : R.protocol.isStable after = true)
    (hagree : Δ.agree (h.directory line) (update (h.states R.protocol) agent after)) :
    Coherent R Δ layout line size Good (h.setCache agent { c with state := after }) := by
  have hok := hcoh.copies agent c hc
  refine ⟨hcoh.line_eq, hcoh.aligned, hcoh.backing_line, hcoh.backing_size, ?_,
    fun htop => forall_setCache haft fun b d _ => hcoh.idle htop b d, ?_, ?_, hcoh.backed⟩
  · refine forall_setCache ?_ fun b d _ => hcoh.copies b d
    exact ⟨hok.agent_eq, hok.layout_eq, hok.line_eq,
      fun _ => hok.held (by rw [settled_of_stable hstab]; exact hval)⟩
  · intro htop
    have hnone := hcoh.unheld htop agent
    rw [states_of_cache hc, settled_of_stable hstab] at hnone
    exact absurd hnone hval
  · rwa [states_setCache, settled_of_stable haft]

/-- A miss that could not be sent leaves the line waiting. Nobody held it. -/
theorem Coherent.stuck (hcoh : Coherent R Δ layout line size Good h) (hc : h.caches agent = some c)
    (htop : wordLimit ≤ line + layout.bytes) (haft : R.protocol.isStable after = false) :
    Coherent R Δ layout line size Good (h.setCache agent { c with
      state := after, nextSequence := c.nextSequence + 1 }) := by
  have hok := hcoh.copies agent c hc
  have hset : settled R.protocol after = R.protocol.invalid := by
    rw [settled, if_neg (by rw [haft]; decide)]
  have hsts : (h.setCache agent { c with
      state := after, nextSequence := c.nextSequence + 1 }).states R.protocol
        = h.states R.protocol := by
    rw [states_setCache, hset, ← hcoh.unheld htop agent, update_eq_self]
  refine ⟨hcoh.line_eq, hcoh.aligned, hcoh.backing_line, hcoh.backing_size, ?_,
    fun hfits => absurd hfits (by omega), by rw [hsts]; exact hcoh.unheld,
    by rw [hsts]; exact hcoh.agree, hcoh.backed⟩
  refine forall_setCache ?_ fun b d _ => hcoh.copies b d
  exact ⟨hok.agent_eq, hok.layout_eq, hok.line_eq, fun hheld => absurd hset hheld⟩

theorem filledWith_ready {filled data} (hag : c.agent = agent) (hlayout : c.layout = layout)
    (hline : c.line = line)
    (hdata : ∀ bytes, data = some bytes →
      bytes.length = layout.bytes ∧ Good agent bytes fun _ => none)
    (hheld : data = none → ∃ bytes, c.data = some bytes ∧ bytes.length = layout.bytes ∧
      Good agent bytes c.lockedReservations) :
    CopyOk R.protocol layout line Good agent (filledWith c filled data) ∧
      (filledWith c filled data).state = filled := by
  cases data with
  | none => exact ⟨⟨hag, hlayout, hline, fun _ => hheld rfl⟩, rfl⟩
  | some bytes => exact ⟨⟨hag, hlayout, hline, fun _ => ⟨bytes, rfl, hdata bytes rfl⟩⟩, rfl⟩

/-- A harness whose decision has been carried out follows the discipline again,
    once the controller that missed is put back filled. -/
theorem Coherent.filled {ready record} (hcoh : Coherent R Δ layout line size Good h)
    (hfits : line + layout.bytes < wordLimit) {states : AgentId → S} {backing waiting}
    {caches : AgentId → Option (CacheController S E)}
    (hdelivered : Delivered R.protocol layout line Good
      { h.setCache agent waiting with directory := update h.directory line record }
      states caches) (hline : backing.lineAddress = h.backing.lineAddress)
    (hsize : backing.layout.bytes = h.backing.layout.bytes)
    (hbacked : Δ.clean record → layout.bytes ≤ h.backing.layout.bytes → Backed layout Good backing)
    (hready : CopyOk R.protocol layout line Good agent ready)
    (hstab : R.protocol.isStable ready.state = true)
    (hagree : Δ.agree record (update states agent ready.state))
    (decisions : List (DirectoryDecision D S E)) :
    Coherent R Δ layout line size Good
      ((carriedOut h line record caches backing decisions).setCache agent ready) := by
  refine ⟨hcoh.line_eq, hcoh.aligned, hline.trans hcoh.backing_line,
    hsize.trans hcoh.backing_size, ?_, ?_, fun htop => absurd hfits (by omega), ?_, ?_⟩
  · exact forall_setCache hready fun b d _ => hdelivered.copies b d
  · refine fun htop => forall_setCache hstab fun b d hb hd => ?_
    rcases hdelivered.idle b d hd with hbef | hdone
    · have hsame : (h.setCache agent waiting).caches b = some d := hbef
      rw [h.setCache_of_ne _ hb] at hsame
      exact hcoh.idle htop b d hsame
    · exact hdone
  · have hsts : (carriedOut h line record caches backing decisions).states R.protocol = states :=
      hdelivered.states_eq
    rw [states_setCache, hsts, settled_of_stable hstab]
    simp only [setCache, carriedOut, update_self]
    exact hagree
  · simp only [setCache, carriedOut, update_self]
    intro hclean hlong
    exact hbacked hclean (by rw [hcoh.backing_size]; exact hlong)

end Keeping

/-- Serving a request once the controller is ready. -/
theorem finish_outcome {c request kind res} [DecidableEq S] {h h₀ : Harness D S E}
    (hline : request.lineAddress = line)
    (hcoh : Coherent R Δ layout line size Good (h.setCache agent c))
    (hstab : R.protocol.isStable c.state = true) (hval : c.state ≠ R.protocol.invalid)
    (halone : isCpuRead request.operation = false →
      (∀ b, b ≠ agent → h.states R.protocol b = R.protocol.invalid) ∧
        ¬ Δ.clean (h.directory line)) (hres : h.cpuResponses = h₀.cpuResponses) :
    Outcome R Δ layout line size Good h₀ agent request (h.finish agent c request kind res) := by
  have hown := hcoh.copies agent c (h.setCache_self agent c)
  obtain ⟨data, hd, hlen, hgood⟩ := hown.held (by rw [settled_of_stable hstab]; exact hval)
  have hspec : Completion c request data (c.completeCpuRequest request) :=
    completeCpuRequest_spec hd (by rw [hown.layout_eq]; exact hlen)
  have hserved := (hcoh.afterServing hstab hlen hgood halone)
  unfold finish
  generalize c.completeCpuRequest request = completion at hspec
  cases hspec with
  | served hfit hreserved =>
    rw [hown.layout_eq] at hfit
    refine .served res _ kind data c.lockedReservations hline hlen hgood hfit (fun hop => ?_) ?_ ?_
    · have hall := hreserved hop
      unfold storeConditionalAllowed at hall
      exact of_decide_eq_true hall
    · intro Good' hserves
      exact (hserved (fun hc => hfit (.inl hc)) Good' hserves).of_responses
    · rw [← hres]
      rfl
  | conditionFailed hop =>
    refine .conditionFailed res _ kind hop (hcoh.of_responses) ?_
    rw [← hres]
    rfl
  | refused e why =>
    refine .refused _ _ ?_ hcoh hres
    rw [hown.layout_eq] at why
    rcases why with hout | ⟨hatomic, hwid⟩ | hnone
    · exact .outside hout
    · exact .atomicWidth hatomic hwid
    · exact .unexpected hnone
  | unanswered e hnone hcarry hfit =>
    rw [hown.layout_eq] at hfit
    exact .unanswered _ _ hnone hcarry (hserved fun _ => hfit) hres

/-! ## Carrying out a decision -/

/-- The data of a grant's source: an owner has good data, and the other sources
    have none to offer. -/
theorem sourceData_spec {h : Harness D S E} (grant : DirectoryGrant S)
    (hcopies : ∀ agent c, h.caches agent = some c → CopyOk R.protocol layout line Good agent c)
    (hown : ∀ owner, grant.dataSource = .ownerCache owner →
      h.states R.protocol owner ≠ R.protocol.invalid) :
    ((∀ owner, grant.dataSource ≠ .ownerCache owner) ∧ h.sourceData grant = .ok none) ∨
    ∃ owner data reservations, grant.dataSource = .ownerCache owner ∧
      h.sourceData grant = .ok (some data) ∧ data.length = layout.bytes ∧
      Good owner data reservations := by
  unfold sourceData
  cases hsrc : grant.dataSource with
  | backingMemory | noData =>
    refine .inl ⟨fun owner h => ?_, rfl⟩
    cases h
  | ownerCache owner =>
    have hheld := hown owner hsrc
    obtain ⟨c, hc, _⟩ := cache_of_states hheld
    rw [states_of_cache hc] at hheld
    obtain ⟨data, hd, hlen, hgood⟩ := (hcopies owner c hc).held hheld
    refine .inr ⟨owner, data, c.lockedReservations, rfl, ?_, hlen, hgood⟩
    simp [hc, hd]

/-- Writing back fails for the size alone. -/
theorem writeBack_spec {data} (h : Harness D S E) (wanted : Bool)
    (hlen : data.length = layout.bytes) :
    (wanted = true ∧ h.backing.layout.bytes ≠ layout.bytes ∧
      ∃ e, h.writeBack wanted (some data) = .error e) ∨
    ∃ backing, h.writeBack wanted (some data) = .ok { h with backing } ∧ backing.lineAddress =
      h.backing.lineAddress ∧ backing.layout.bytes = h.backing.layout.bytes ∧ backing.data = if
      wanted then data else h.backing.data := by
  cases wanted with
  | false => exact .inr ⟨h.backing, rfl, rfl, rfl, rfl⟩
  | true =>
    unfold writeBack LineBackingStore.replaceData
    by_cases hsize : data.length = h.backing.layout.bytes
    · refine .inr ⟨{ h.backing with data, lockedReservations := fun _ => none, full := hsize }, ?_,
        rfl, rfl, rfl⟩
      simp [dif_pos hsize]
    · refine .inl ⟨rfl, fun heq => hsize (by omega), ?_⟩
      simp only [dif_neg hsize]
      exact ⟨_, rfl⟩

/-- What the controller that missed is answered: good data where it asked for
    data, and nothing where it asked for ownership. -/
structure FillOk (layout : CacheLineLayout) (Good : CopyPred) (kind : RequestKind)
    (request : MemoryRequest) (response : MemoryResponse) : Prop where
  id_eq : response.requestId = request.id
  data_ok : ∀ data, response.data = some data →
    data.length = layout.bytes ∧ ∀ agent, Good agent data fun _ => none
  upgrade_of_none : response.data = none → kind = .upgrade

/-- The answer to a grant, from the backing line, from the owner's data or from
    nothing. Only a backing line that is too short refuses. -/
theorem grantResponse_spec {kind request source data} {c : CacheController S E} {h : Harness D S E}
    (hdown : IsDownstream c kind request)
    (hlayout : c.layout = layout) (hline : c.line = h.backing.lineAddress)
    (hbacking : source = .backingMemory → kind ≠ .upgrade ∧
      (layout.bytes ≤ h.backing.layout.bytes → Backed layout Good h.backing))
    (hown : ∀ owner, source = .ownerCache owner → (kind = .upgrade → R.ownerDataOnRead = true) ∧
      ∃ bytes, data = some bytes ∧ bytes.length = layout.bytes ∧
        ∀ agent, Good agent bytes fun _ => none) (hnone : source = .noData → kind = .upgrade) :
    (h.backing.layout.bytes < layout.bytes ∧
      ∃ e, h.grantResponse R request source data = (.error e, h)) ∨
    ∃ response, h.grantResponse R request source data = (.ok response, h) ∧
      FillOk layout Good kind request response := by
  have hret := hdown.returnsData
  cases source with
  | backingMemory =>
    obtain ⟨hkind, hgood⟩ := hbacking rfl
    have hsize := hdown.size_eq hkind
    rw [hlayout] at hsize
    have hreq : LineBackingStore.IsLineRequest h.backing request :=
      ⟨by rw [hdown.line_eq, hline], hdown.offset_eq, hdown.answered⟩
    unfold grantResponse
    rcases h.backing.respond_readLine hreq (hdown.reads hkind) with
      ⟨hshort, e, he⟩ | ⟨hlong, hok⟩
    · refine .inl ⟨by rw [h.backing.full] at hshort; omega, .backing e, ?_⟩
      simp only [he, Except.mapError]
    · rw [h.backing.full, hsize] at hlong
      refine .inr ⟨⟨request.id, .completed, some (h.backing.data.take request.size.bytes)⟩,
        ?_, rfl, ?_, fun h => by cases h⟩
      · simp only [hok, Except.mapError]
      · intro bytes hbytes
        cases hbytes
        rw [hsize, List.length_take, h.backing.full]
        exact ⟨by omega, hgood hlong⟩
  | ownerCache owner =>
    obtain ⟨hattach, bytes, rfl, hlen, hgood⟩ := hown owner rfl
    refine .inr ?_
    unfold grantResponse
    by_cases hkind : kind = .upgrade
    · have hret' : request.returnsData = false := by
        rw [hret, hkind]
        rfl
      refine ⟨⟨request.id, .completed, none⟩, ?_, rfl,
        fun _ h => absurd h (by simp only [reduceCtorEq, not_false_eq_true]), fun _ => hkind⟩
      simp only [hattach hkind, hret', Bool.not_false, Bool.and_self, if_true,
        MemoryResponse.completed_none hdown.answered hret', Except.mapError]
    · have hret' : request.returnsData = true := by
        rw [hret]
        exact decide_eq_true hkind
      have hsize := hdown.size_eq hkind
      rw [hlayout] at hsize
      refine ⟨⟨request.id, .completed, some bytes⟩, ?_, rfl, ?_, fun h => by cases h⟩
      · simp only [hret', Bool.not_true, Bool.and_false, Bool.false_eq_true, if_false,
          MemoryResponse.completed_some hdown.answered hret' (hlen.trans hsize.symm),
          Except.mapError]
      · intro bytes' hbytes
        cases hbytes
        exact ⟨hlen, hgood⟩
  | noData =>
    have hkind := hnone rfl
    have hret' : request.returnsData = false := by
      rw [hret, hkind]
      rfl
    refine .inr ⟨⟨request.id, .completed, none⟩, ?_, rfl,
      fun _ h => absurd h (by simp only [reduceCtorEq, not_false_eq_true]), fun _ => hkind⟩
    unfold grantResponse
    simp only [MemoryResponse.completed_none hdown.answered hret', Except.mapError]

section Decision

variable [DecidableEq S] {h : Harness D S E} {record : D} {states : AgentId → S} {read : Bool}
  {waiting : S}

/-- What a decision leaves behind once the owner's data was taken: the backing
    line, written or not, and the data to hand on. -/
structure Sourced (Δ : Discipline D S) (layout : CacheLineLayout) (Good : CopyPred)
    (h : Harness D S E) (handled : Handled D S E) (data : Option (List UInt8))
    (backing : LineBackingStore) : Prop where
  line_eq : backing.lineAddress = h.backing.lineAddress
  size_eq : backing.layout.bytes = h.backing.layout.bytes
  unwritten : handled.dataSource = .backingMemory → backing.data = h.backing.data
  owned : ∀ owner, handled.dataSource = .ownerCache owner →
    ∃ bytes, data = some bytes ∧ bytes.length = layout.bytes ∧
      ∀ agent, Good agent bytes fun _ => none
  backed : Δ.clean handled.after → layout.bytes ≤ h.backing.layout.bytes →
    ∀ agent, Good agent (backing.data.take layout.bytes) fun _ => none

theorem source_spec (g : Granted R Δ record states agent read waiting) (hcopy : Copyable Good)
    (hcopies : ∀ agent c, h.caches agent = some c → CopyOk R.protocol layout line Good agent c)
    (hown : ∀ owner, g.handled.dataSource = .ownerCache owner →
      h.states R.protocol owner ≠ R.protocol.invalid)
    (hbacked : Δ.clean record → layout.bytes ≤ h.backing.layout.bytes →
      Backed layout Good h.backing)
    (grant : DirectoryGrant S) (hgrant : grant.dataSource = g.handled.dataSource) :
    ∃ data, h.sourceData grant = .ok data ∧
      (((g.writesBack = true ∧ ∃ owner, g.handled.dataSource = .ownerCache owner) ∧
          h.backing.layout.bytes ≠ layout.bytes ∧
          ∃ e, h.writeBack g.writesBack data = .error e) ∨
        ∃ backing, h.writeBack g.writesBack data = .ok { h with backing } ∧
          Sourced Δ layout Good h g.handled data backing) := by
  rcases sourceData_spec grant hcopies (by rw [hgrant]; exact hown) with
    ⟨hno, hdata⟩ | ⟨owner, bytes, reservations, hsrc, hdata, hlen, hgood⟩
  · rw [hgrant] at hno
    have hwr : h.writeBack g.writesBack none = .ok { h with backing := h.backing } := by
      cases g.writesBack <;> rfl
    refine ⟨none, hdata, .inr ⟨h.backing, hwr, rfl, rfl, fun _ => rfl, ?_, ?_⟩⟩
    · intro owner hsrc
      exact absurd hsrc (hno owner)
    · intro hclean
      rcases g.clean hclean with hbef | ⟨-, owner, hsrc⟩
      · exact hbacked hbef
      · exact absurd hsrc (hno owner)
  · rw [hgrant] at hsrc
    have hcopied : ∀ agent, Good agent bytes fun _ => none :=
      fun agent => hcopy owner agent bytes reservations hgood
    refine ⟨some bytes, hdata, ?_⟩
    rcases writeBack_spec h g.writesBack hlen with
      ⟨hwrites, hsize, he⟩ | ⟨backing, hwr, hline, hsize, hbytes⟩
    · exact .inl ⟨⟨hwrites, owner, hsrc⟩, hsize, he⟩
    · refine .inr ⟨backing, hwr, hline, hsize, ?_, ?_, ?_⟩
      · intro hback
        cases hsrc.symm.trans hback
      · intro _ _
        exact ⟨bytes, rfl, hlen, hcopied⟩
      · intro hclean hfits b
        cases hw : g.writesBack with
        | true =>
          rw [hbytes, hw, if_pos rfl, List.take_of_length_le (by omega)]
          exact hcopied b
        | false =>
          rw [hbytes, hw, if_neg (by decide)]
          rcases g.clean hclean with hbef | ⟨hwrites, -⟩
          · exact hbacked hbef hfits b
          · cases hw.symm.trans hwrites

/-- Carrying out a decision. It fails where the backing line has the wrong size,
    before anything was done or, on a short line, at the end; otherwise the
    snoops are delivered and the requester has an answer. -/
theorem directoryResponse_spec {request} (g : Granted R Δ record states agent read waiting)
    (sound : Sound R Δ) (hcopy : Copyable Good) {c : CacheController S E}
    (hcopies : ∀ agent c, h.caches agent = some c → CopyOk R.protocol layout line Good agent c)
    (hsts : h.states R.protocol = update states agent R.protocol.invalid)
    (hdown : IsDownstream c (missKind R.protocol read (states agent)) request)
    (hlayout : c.layout = layout) (hline : c.line = h.backing.lineAddress)
    (hfresh : states agent = R.protocol.invalid → Δ.unowned record →
      layout.bytes ≤ h.backing.layout.bytes → Backed layout Good h.backing)
    (hbacked : Δ.clean record → layout.bytes ≤ h.backing.layout.bytes →
      Backed layout Good h.backing) :
    ((g.writesBack = true ∧ ∃ owner, g.handled.dataSource = .ownerCache owner) ∧
      h.backing.layout.bytes ≠ layout.bytes ∧
      ∃ e, h.directoryResponse R request (g.handled.decision line request.id record)
        = (.error e, h)) ∨
    (h.backing.layout.bytes < layout.bytes ∧
      ∃ e h', h.directoryResponse R request (g.handled.decision line request.id record)
        = (.error e, h') ∧ h'.cpuResponses = h.cpuResponses) ∨
    ∃ response caches backing data,
      h.directoryResponse R request (g.handled.decision line request.id record)
        = (.ok response, { h with caches, backing }) ∧
      FillOk layout Good (missKind R.protocol read (states agent)) request response ∧
      Delivered R.protocol layout line Good h g.after caches ∧
      Sourced Δ layout Good h g.handled data backing := by
  -- The owner a grant names holds the line, also while the requester waits.
  have hown : ∀ owner, g.handled.dataSource = .ownerCache owner →
      h.states R.protocol owner ≠ R.protocol.invalid := by
    intro owner hsrc
    obtain ⟨hne, hheld, -⟩ := g.source.of_owner hsrc
    rwa [hsts, update_of_ne hne]
  have hwrites := g.writesBack_eq line request.id
  rcases source_spec g hcopy hcopies hown hbacked
    ⟨request.id, line, g.handled.state, g.handled.dataSource⟩ rfl with
      ⟨data, hdata, ⟨howned, hsize, e, he⟩ | ⟨backing, hwr, hsourced⟩⟩
  · refine .inl ⟨howned, hsize, e, ?_⟩
    unfold directoryResponse
    simp only [hwrites]
    simp [Handled.decision, hdata, he]
  refine .inr ?_
  -- The snoops see the caches as they were: writing back touches backing only.
  have hsnooped : snoopStates R.protocol (({ h with backing } : Harness D S E).states R.protocol)
      g.handled.snoops = some g.after := by
    have hsame : ({ h with backing } : Harness D S E).states R.protocol = h.states R.protocol := rfl
    rw [hsame, hsts]
    exact g.snooped
  rcases deliverSnoops_spec { h with backing } g.after hcopies hsnooped with
    ⟨caches, hdel, hdelivered⟩
  have hanswer : (({ h with backing, caches } : Harness D S E).backing.layout.bytes < layout.bytes ∧
        ∃ e, ({ h with backing, caches } : Harness D S E).grantResponse R request
          g.handled.dataSource data = (.error e, { h with backing, caches })) ∨
      ∃ response, ({ h with backing, caches } : Harness D S E).grantResponse R request
          g.handled.dataSource data = (.ok response, { h with backing, caches }) ∧
        FillOk layout Good (missKind R.protocol read (states agent)) request response := by
    refine grantResponse_spec hdown hlayout (hline.trans hsourced.line_eq.symm) ?_ ?_
      g.source.of_none
    · intro hsrc
      obtain ⟨hinv, hunowned⟩ := g.source.of_backing hsrc
      refine ⟨missKind_ne_upgrade (by rw [hinv, sound.invalid_upgrade]), fun hfits => ?_⟩
      simp only [Backed, hsourced.unwritten hsrc]
      exact hfresh hinv hunowned (by rw [← hsourced.size_eq]; exact hfits)
    · intro owner hsrc
      exact ⟨(g.source.of_owner hsrc).2.2, hsourced.owned owner hsrc⟩
  have hrun : h.directoryResponse R request (g.handled.decision line request.id record)
      = ({ h with backing, caches } : Harness D S E).grantResponse R request
          g.handled.dataSource data := by
    unfold directoryResponse
    simp only [hwrites]
    simp [Handled.decision, hdata, hwr, hdel]
  rw [hrun]
  rcases hanswer with ⟨hshort, e, he⟩ | ⟨response, hok, hfill⟩
  · exact .inl ⟨by rw [← hsourced.size_eq]; exact hshort, e, _, he, rfl⟩
  · exact .inr ⟨response, caches, backing, data, hok, hfill,
      ⟨hdelivered.states_eq, hdelivered.copies, hdelivered.idle, hdelivered.untouched⟩, hsourced⟩

end Decision

/-! ## The step -/

section Step

variable [DecidableEq S] {h : Harness D S E} {c : CacheController S E} {request : MemoryRequest}
  {after : S}

/-- A miss, from the directory's decision to the end. -/
theorem resolveMiss_outcome {downstream waiting} (sound : Sound R Δ) (hcopyable : Copyable Good)
    (hcoh : Coherent R Δ layout line size Good h) (hc : h.caches agent = some c)
    (hline : request.lineAddress = line) (hstab : R.protocol.isStable c.state = true)
    (g : Granted R Δ (h.directory line) (h.states R.protocol) agent
      (isCpuRead request.operation) after)
    (haft : R.protocol.isStable after = false)
    (hdown : IsDownstream { c with state := after }
      (missKind R.protocol (isCpuRead request.operation) c.state) downstream)
    (hfresh : h.states R.protocol agent = R.protocol.invalid → Δ.unowned (h.directory line) →
      layout.bytes ≤ size → Backed layout Good h.backing)
    (hwaiting : waiting = { c with
      state := after
      nextSequence := c.nextSequence + 1
      pending := some ⟨request, downstream.id, R.protocol.missFillEvent after⟩ }) :
    Outcome R Δ layout line size Good h agent request
      ((h.setCache agent waiting).resolveMiss R agent .miss downstream) := by
  have hok := hcoh.copies agent c hc
  have hst : h.states R.protocol agent = c.state := by
    rw [states_of_cache hc, settled_of_stable hstab]
  -- A line at the top of memory is not held, so the whole line would be asked for.
  have hfits : line + layout.bytes < wordLimit := by
    by_contra htop
    have hnone := hcoh.unheld (by omega) agent
    have hbytes := hdown.fits (missKind_ne_upgrade (by rw [← hst, hnone, sound.invalid_upgrade]))
    simp only [hok.line_eq, hok.layout_eq] at hbytes
    exact htop hbytes
  -- The directory decides as the discipline foresees.
  have hacc : accept R.directory (h.setCache agent waiting).directory downstream
      = (.ok (g.handled.decision line downstream.id (h.directory line)),
          update h.directory line g.handled.after) := by
    have hhandle := g.handle_eq line
    rw [hst] at hhandle
    rw [accept_of_kind R.directory _ hdown.operation_eq
      (hdown.line_eq.trans hok.line_eq) (hdown.asks hok.agent_eq)]
    simp [setCache, hhandle]
  have hwst : waiting.state = after := by rw [hwaiting]
  obtain ⟨granted, event, hgranted, hisData, hev, hfil⟩ := g.fills
  have hwok : CopyOk R.protocol layout line Good agent waiting := by
    subst hwaiting
    refine ⟨hok.agent_eq, hok.layout_eq, hok.line_eq, fun hheld => ?_⟩
    exact absurd (by rw [settled, if_neg (by rw [haft]; decide)]) hheld
  have hcopies : ∀ b d, (h.setCache agent waiting).caches b = some d →
      CopyOk R.protocol layout line Good b d :=
    forall_setCache hwok fun b d _ => hcoh.copies b d
  have hsts : (h.setCache agent waiting).states R.protocol
      = update (h.states R.protocol) agent R.protocol.invalid := by
    rw [states_setCache, hwst, settled, if_neg (by rw [haft]; decide)]
  rcases directoryResponse_spec (h := { h.setCache agent waiting with
      directory := update h.directory line g.handled.after })
    (c := { c with state := after })
    g sound hcopyable hcopies hsts (by rw [hst]; exact hdown) hok.layout_eq
    (hok.line_eq.trans hcoh.backing_line.symm)
    (fun hinv hunowned hfits => hfresh hinv hunowned (hcoh.backing_size ▸ hfits))
    (fun hclean hfits => hcoh.backed hclean (hcoh.backing_size ▸ hfits)) with
      ⟨⟨hwrites, hown⟩, hsize, e, he⟩ | ⟨hshort, e, h', he, hres⟩ |
      ⟨response, caches, backing, data, hdone, hfill, hdelivered, hsourced⟩
  · -- The owner's data did not fit, and nothing else was done.
    have hrun : (h.setCache agent waiting).resolveMiss R agent .miss downstream
        = (.error e, { h.setCache agent waiting with
            directory := update h.directory line g.handled.after }) := by
      unfold resolveMiss
      simp [hacc, hgranted, he]
    rw [hrun]
    exact .unwritten e waiting after (by rw [← hcoh.backing_size]; exact hsize) haft hwst
      hwok.agent_eq hwok.layout_eq hwok.line_eq g hwrites hown
  · have hrun : (h.setCache agent waiting).resolveMiss R agent .miss downstream
        = (.error e, h') := by
      unfold resolveMiss
      simp [hacc, hgranted, he]
    rw [hrun]
    exact .starved e h' (by rw [← hcoh.backing_size]; exact hshort) hres
  · -- The controller that missed was not snooped, so it is still waiting.
    have hcaches : caches agent = some waiting := by
      rw [hdelivered.untouched agent ?_]
      · exact h.setCache_self agent waiting
      · show (h.setCache agent waiting).states R.protocol agent = R.protocol.invalid
        rw [hsts, update_self]
    have hpend : waiting.pending
        = some ⟨request, downstream.id, R.protocol.missFillEvent after⟩ := by
      rw [hwaiting]
    have haccepted := acceptFill_of_granted (P := R.protocol) hisData hpend hfill.id_eq hev
      (by rw [hwst]; exact hfil)
      (fun bytes hbytes => by rw [hwok.layout_eq]; exact (hfill.data_ok bytes hbytes).1)
    -- Without data the miss asked for ownership, of a copy that was held.
    have hheld : response.data = none → ∃ bytes, waiting.data = some bytes ∧
        bytes.length = layout.bytes ∧ Good agent bytes waiting.lockedReservations := by
      intro hnone
      have hkind := hfill.upgrade_of_none hnone
      rw [hwaiting]
      refine hok.held ?_
      rw [settled_of_stable hstab]
      intro hinv
      exact missKind_ne_upgrade (by rw [hst, hinv, sound.invalid_upgrade]) hkind
    have hready : CopyOk R.protocol layout line Good agent
          (filledWith waiting g.handled.state response.data) ∧
        (filledWith waiting g.handled.state response.data).state = g.handled.state :=
      filledWith_ready hwok.agent_eq hwok.layout_eq hwok.line_eq
        (fun bytes hbytes => ⟨(hfill.data_ok bytes hbytes).1,
          (hfill.data_ok bytes hbytes).2 agent⟩) hheld
    obtain ⟨hready, hrstate⟩ := hready
    have hrun : (h.setCache agent waiting).resolveMiss R agent .miss downstream
        = (carriedOut h line g.handled.after caches backing (h.directoryDecisions ++
            [g.handled.decision line downstream.id (h.directory line)])).finish
            agent (filledWith waiting g.handled.state response.data) request .fill
            ⟨.scheduledMiss, .miss,
              some (g.handled.decision line downstream.id (h.directory line))⟩ := by
      unfold resolveMiss finish
      simp only [hacc, hgranted, hdone, hcaches, haccepted]
      generalize
        (filledWith waiting g.handled.state response.data).completeCpuRequest request = completion
      rcases completion with ⟨_ | response, c'⟩
      · rfl
      · rfl
    rw [hrun]
    refine finish_outcome hline ?_ (by rw [hrstate]; exact g.stable)
      (by rw [hrstate]; exact g.valid) (fun hwr => ?_) rfl
    · refine hcoh.filled hfits hdelivered hsourced.line_eq hsourced.size_eq hsourced.backed hready
        (by rw [hrstate]; exact g.stable) (by rw [hrstate]; exact g.agree) _
    · obtain ⟨halone, hclean⟩ := g.alone hwr
      refine ⟨fun b hb => ?_, ?_⟩
      · have hsts' : (carriedOut h line g.handled.after caches backing (h.directoryDecisions ++
            [g.handled.decision line downstream.id (h.directory line)])).states R.protocol
              = g.after := hdelivered.states_eq
        rw [hsts']
        exact halone b hb
      · simp only [carriedOut, update_self]
        exact hclean

/-- The step lemma: what a request leads to, from a coherent harness. -/
theorem submit_outcome (sound : Sound R Δ) (hcopyable : Copyable Good)
    (hcoh : Coherent R Δ layout line size Good h) (agent : AgentId) (request : MemoryRequest)
    (hall : request.operation ≠ .noAccess →
      Δ.allowed (h.directory line) agent (isCpuRead request.operation))
    (hfresh : (∃ c, h.caches agent = some c ∧ c.state = R.protocol.invalid) →
      Δ.unowned (h.directory line) → layout.bytes ≤ size → Backed layout Good h.backing) :
    Outcome R Δ layout line size Good h agent request (h.submitCpuRequest R agent request) := by
  have hent := submit_entry R h agent request
  generalize hrun : h.submitCpuRequest R agent request = oc at hent
  cases hent with
  | unknownAgent hc => exact .refused _ h (.unknownAgent hc) hcoh rfl
  | wrongLine c hc hline e =>
    rw [(hcoh.copies agent c hc).line_eq] at hline
    exact .refused e h (.wrongLine hline) hcoh rfl
  | idle c hc hop res => exact .idled res _ hop (hcoh.of_responses) rfl
  | unexpected c hc hop hnone e => exact .refused e h (.unexpected hnone) hcoh rfl
  | busy c hc hbusy e =>
    -- A line that waits at the start of a request is stuck at the top of memory.
    have htop : wordLimit ≤ line + layout.bytes := by
      by_contra hfits
      have hidle := hcoh.idle (by omega) agent c hc
      cases hbusy.symm.trans hidle
    exact .refused e h (.topmost htop) hcoh rfl
  | admitted c hc hline hop hstab =>
    have hok := hcoh.copies agent c hc
    have hline' : request.lineAddress = line := hline.trans hok.line_eq
    rw [← hrun]
    have hst : h.states R.protocol agent = c.state := by
      rw [states_of_cache hc, settled_of_stable hstab]
    rcases sound.accepts c.state (isCpuRead request.operation) hstab with
      ⟨after, hstep⟩
    cases haft : R.protocol.isStable after with
    | true =>
      rcases sound.hit (h.directory line) (h.states R.protocol) agent _ after hcoh.agree
        (hall hop) (by rw [hst]; exact hstab) (by rw [hst]; exact hstep) haft with
          ⟨hval, hval', hagree, halone⟩
      rw [hst] at hval
      rw [submitCpuRequest_of_hit hc hline hop hstab hstep haft]
      exact finish_outcome hline' (hcoh.setState hc hstab hval haft hagree) haft hval' halone rfl
    | false =>
      rcases sound.miss (h.directory line) (h.states R.protocol) agent _ after hcoh.agree
        (hall hop) (by rw [hst]; exact hstab) (by rw [hst]; exact hstep) haft with
          ⟨g⟩
      rw [submitCpuRequest_of_miss hc hline hop hstab hstep haft]
      rcases downstreamRequest_spec R.protocol { c with state := after } request c.state
        (by rw [hok.layout_eq, hok.line_eq]; exact hcoh.aligned) with
          ⟨htop, e, he⟩ | ⟨downstream, hd, hdown⟩
      · rw [he]
        simp only [hok.line_eq, hok.layout_eq] at htop
        have hstu := hcoh.stuck hc htop haft
        exact .refused _ _ (.topmost htop) hstu rfl
      · rw [hd]
        exact resolveMiss_outcome sound hcopyable hcoh hc hline' hstab g haft hdown
          (fun hinv => hfresh ⟨c, hc, hst.symm.trans hinv⟩) rfl

end Step

end Rem6.Coherence
