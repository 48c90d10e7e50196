import Rem6.Cache.Completion
import Rem6.Coherence.Harness

/-!
# The Pieces of a Request

A request that misses passes through five parties: the controller that misses,
the directory, the owner and the sharers that are snooped, the backing line, and
the controller again. This module says what each of them does, one lemma per
party, so that no later proof unfolds the harness.

A line that waits for a fill counts as not held: nobody may rely on its data,
and no snoop is sent to it. `states` is the vector of line states in that
sense, and `snoopStates` is the delivery of snoops on the vector alone.
`deliverSnoops_spec` says that the harness delivers snoops as the vector says,
and that a copy that survives a snoop is the copy it was.

What a proof wants of a held copy varies: its bytes, its length, or the
reservations kept beside it. `CopyOk` leaves it a parameter.

## Main definitions

* `settled`, `Harness.states`: The line states, a waiting line being invalid.
* `snoopStates`: Snoops, delivered to a vector of states.
* `CopyPred`, `CopyOk`: A controller is the one of its agent, and its copy is a good one.
* `Delivered`: The caches once snoops have been delivered.
* `missKind`: The request a miss sends downstream.
* `filledWith`: A controller whose miss was granted.
* `Harness.finish`: The end of every request that is not refused on the way.
* `Entry`: How a request enters a harness.

## Theorems

* `deliverSnoops_spec`: Snoops are delivered as the vector says.
* `downstreamRequest_spec`: A downstream request is a request for the line.
* `acceptFill_of_granted`: A fill leads to serving the request that waits.
* `submit_entry`: The ways a request enters a harness.
* `submitCpuRequest_of_hit`, `submitCpuRequest_of_miss`: The two ways on.
-/

namespace Rem6.Coherence

open Memory Protocol Cache Directory Harness LineProtocol MemoryRequest Function

variable {D S E : Type}

/-- A line that waits for a fill counts as not held. -/
def settled (P : LineProtocol S E) (state : S) : S :=
  if P.isStable state then state else P.invalid

theorem settled_of_stable {S E} {P : Protocol.LineProtocol S E} {state : S}
    (h : P.isStable state = true) : settled P state = state := by
  rw [settled, if_pos h]

/-- The states of the caches, an agent without cache having nothing. -/
def Harness.states (P : LineProtocol S E) (h : Harness D S E) (agent : AgentId) : S :=
  match h.caches agent with
  | some c => settled P c.state
  | none => P.invalid

variable {agent : Memory.AgentId} {after before filled : S}

theorem Harness.states_of_cache {c P} {h : Harness D S E} (hc : h.caches agent = some c) :
    h.states P agent = settled P c.state := by
  rw [states, hc]

theorem Harness.cache_of_states {P} {h : Harness D S E} (hheld : h.states P agent ≠ P.invalid) :
    ∃ c, h.caches agent = some c ∧ P.isStable c.state = true ∧ c.state = h.states P agent := by
  cases hc : h.caches agent with
  | none =>
    rw [states, hc] at hheld
    exact absurd rfl hheld
  | some c =>
    rw [states_of_cache hc] at hheld ⊢
    cases hstab : P.isStable c.state with
    | true => exact ⟨c, rfl, hstab, by rw [settled_of_stable hstab]⟩
    | false =>
      rw [settled, if_neg (by rw [hstab]; decide)] at hheld
      exact absurd rfl hheld

theorem Harness.states_setCache {c P} {h : Harness D S E} :
    (h.setCache agent c).states P = update (h.states P) agent (settled P c.state) := by
  funext b
  by_cases hb : b = agent
  · subst hb
    simp [states, setCache_self, update_self]
  · simp [states, h.setCache_of_ne c hb, update_of_ne hb]

/-- Snoops delivered to a vector of states. Only a copy that is held is snooped,
    and it settles at once. -/
def snoopStates [DecidableEq S] (P : LineProtocol S E) (states : AgentId → S) :
    List (DirectorySnoop E) → Option (AgentId → S)
  | [] => some states
  | snoop :: rest =>
    match P.transition (states snoop.target) snoop.event with
    | none => none
    | some after =>
      if states snoop.target ≠ P.invalid ∧ P.isStable after = true then
        snoopStates P (update states snoop.target after) rest
      else none

/-- What a proof keeps about a held copy: about its agent, its bytes and the
    reservations beside it. -/
abbrev CopyPred := AgentId → List UInt8 → (AgentId → Option Nat) → Prop

/-- The controller is the one of its agent for the line, and the copy it holds
    is a good one. -/
structure CopyOk (P : LineProtocol S E) (layout : CacheLineLayout) (line : Nat)
    (Good : CopyPred) (agent : AgentId) (c : CacheController S E) : Prop where
  agent_eq : c.agent = agent
  layout_eq : c.layout = layout
  line_eq : c.line = line
  held : settled P c.state ≠ P.invalid →
    ∃ data, c.data = some data ∧ data.length = layout.bytes ∧ Good agent data c.lockedReservations

section Snoops

variable [DecidableEq S] {P : LineProtocol S E} {layout : CacheLineLayout} {line : Nat}
  {Good : CopyPred}

/-- A snoop on a held copy: the copy moves as the table says, and is given up or
    kept as it is. -/
theorem acceptSnoop_spec {c event} (hok : CopyOk P layout line Good agent c)
    (hstab : P.isStable c.state = true) (hval : c.state ≠ P.invalid)
    (hstep : P.transition c.state event = some after) (haft : P.isStable after = true) :
    ∃ result c', CacheController.acceptSnoop P c event = (.ok result, c') ∧ c'.state = after ∧
      CopyOk P layout line Good agent c' := by
  obtain ⟨data, hd, hlen, hgood⟩ := hok.held (by rw [settled_of_stable hstab]; exact hval)
  unfold CacheController.acceptSnoop
  simp only [apply_of_some hstep]
  by_cases hinv : after = P.invalid
  · refine ⟨_, _, rfl, by rw [if_pos hinv], ?_⟩
    rw [if_pos hinv]
    refine ⟨hok.agent_eq, hok.layout_eq, hok.line_eq, fun h => ?_⟩
    exact absurd (by rw [settled_of_stable haft, hinv]) h
  · refine ⟨_, _, rfl, by rw [if_neg hinv], ?_⟩
    rw [if_neg hinv]
    exact ⟨hok.agent_eq, hok.layout_eq, hok.line_eq, fun _ => ⟨data, hd, hlen, hgood⟩⟩

/-- The caches once snoops have been delivered. Every copy is still good, and an
    agent that held nothing was not disturbed. -/
structure Delivered (P : LineProtocol S E) (layout : CacheLineLayout) (line : Nat)
    (Good : CopyPred) (h : Harness D S E) (after : AgentId → S)
    (caches : AgentId → Option (CacheController S E)) : Prop where
  states_eq : ({ h with caches } : Harness D S E).states P = after
  copies : ∀ agent c, caches agent = some c → CopyOk P layout line Good agent c
  idle : ∀ agent c, caches agent = some c → h.caches agent = some c ∨ P.isStable c.state = true
  untouched : ∀ agent, h.states P agent = P.invalid → caches agent = h.caches agent

/-- Snoops are delivered as the vector of states says. -/
theorem deliverSnoops_spec {snoops} :
    ∀ (h : Harness D S E) (after : AgentId → S),
      (∀ agent c, h.caches agent = some c → CopyOk P layout line Good agent c) →
      snoopStates P (h.states P) snoops = some after →
      ∃ caches, h.deliverSnoops P snoops = (.ok (), { h with caches }) ∧
        Delivered P layout line Good h after caches := by
  induction snoops with
  | nil =>
    intro h after hok hs
    exact ⟨h.caches, rfl, Option.some.inj hs, hok, fun _ _ hc => .inl hc, fun _ _ => rfl⟩
  | cons snoop rest ih =>
    intro h after hok hs
    unfold snoopStates at hs
    split at hs
    next ht => simp only [reduceCtorEq] at hs
    next next ht =>
      by_cases hgo : h.states P snoop.target ≠ P.invalid ∧ P.isStable next = true
      · rw [if_pos hgo] at hs
        obtain ⟨hheld, hnext⟩ := hgo
        obtain ⟨c, hc, hstab, hst⟩ := cache_of_states hheld
        rw [← hst] at ht hheld
        rcases acceptSnoop_spec (hok _ c hc) hstab hheld ht hnext with
          ⟨result, c', hsnoop, hst', hok'⟩
        have hsts : (h.setCache snoop.target c').states P
            = update (h.states P) snoop.target next := by
          rw [states_setCache, hst', settled_of_stable hnext]
        rw [← hsts] at hs
        have hokAll : ∀ agent c, (h.setCache snoop.target c').caches agent = some c →
            CopyOk P layout line Good agent c :=
          forall_setCache hok' fun agent d _ => hok agent d
        obtain ⟨caches, hrun, hend⟩ := ih _ after hokAll hs
        refine ⟨caches, ?_, hend.states_eq, hend.copies, fun agent d hd => ?_, fun agent hinv => ?_⟩
        · unfold deliverSnoops
          simp only [hc, hsnoop]
          exact hrun
        · rcases hend.idle agent d hd with hbef | hdone
          · rcases of_setCache hbef with ⟨rfl, rfl⟩ | ⟨ha, hbef⟩
            · exact .inr (by rw [hst']; exact hnext)
            · exact .inl hbef
          · exact .inr hdone
        · have ha : agent ≠ snoop.target := by
            rintro rfl
            rw [states_of_cache hc, settled_of_stable hstab] at hinv
            exact hheld hinv
          have hkeep := hend.untouched agent (by rw [hsts, update_of_ne ha]; exact hinv)
          rw [hkeep, h.setCache_of_ne c' ha]
      · simp [if_neg hgo] at hs

/-- One event to every agent of a list, each of which it makes give up the
    line. -/
theorem snoopStates_invalidate (event : E) (hinv : P.isStable P.invalid = true)
    (targets : List AgentId) :
    ∀ (states : AgentId → S), targets.Nodup →
      (∀ t ∈ targets, states t ≠ P.invalid ∧ P.transition (states t) event = some P.invalid) →
      snoopStates P states (targets.map fun t => ⟨t, event⟩)
        = some fun agent => if agent ∈ targets then P.invalid else states agent := by
  induction targets with
  | nil =>
    intro states _ _
    simp [snoopStates]
  | cons t rest ih =>
    intro states hnd hgive
    have ht := hgive t List.mem_cons_self
    have hrest := ih (update states t P.invalid) (List.nodup_cons.mp hnd).2 (by
      intro u hu
      have hut : u ≠ t := fun h => (List.nodup_cons.mp hnd).1 (h ▸ hu)
      rw [update_of_ne hut]
      exact hgive u (List.mem_cons_of_mem t hu))
    simp only [List.map_cons, snoopStates, ht.2]
    rw [if_pos ⟨ht.1, hinv⟩, hrest]
    congr 1
    funext agent
    by_cases hat : agent = t
    · subst hat
      simp
    · simp [hat]

end Snoops

/-- The request a miss sends downstream, by whether the processor reads and by
    the state it missed in. -/
def missKind (P : LineProtocol S E) (read : Bool) (before : S) : RequestKind :=
  if read then .readShared else if P.upgradesFrom before then .upgrade else .readUnique

theorem missKind_ne_upgrade {P : LineProtocol S E} {read} (h : P.upgradesFrom before = false) :
    missKind P read before ≠ .upgrade := by
  rw [missKind, h]
  cases read <;> decide

/-- A request for the line of a controller. -/
structure IsDownstream (c : CacheController S E) (kind : RequestKind) (request : MemoryRequest) :
    Prop where
  id_eq : request.id = ⟨c.agent, c.nextSequence⟩
  operation_eq : request.operation = kind.operation
  line_eq : request.lineAddress = c.line
  offset_eq : request.lineOffset = 0
  answered : request.responseRequired = true
  size_eq : kind ≠ .upgrade → request.size.bytes = c.layout.bytes

section Downstream

variable {c : CacheController S E} {kind : RequestKind} {request : MemoryRequest}

theorem IsDownstream.of_state {state : S} (h : IsDownstream { c with state } kind request) :
    IsDownstream c kind request :=
  ⟨h.id_eq, h.operation_eq, h.line_eq, h.offset_eq, h.answered, h.size_eq⟩

section

variable (h : IsDownstream c kind request)
include h

theorem IsDownstream.fits (hkind : kind ≠ .upgrade) :
    c.line + c.layout.bytes < wordLimit := by
  have hbnd := request.range.bound
  have hstart := request.start_eq
  have hsize := h.size_eq hkind
  rw [h.line_eq, h.offset_eq] at hstart
  unfold size at hsize
  omega

theorem IsDownstream.returnsData :
    request.returnsData = decide (kind ≠ .upgrade) := by
  unfold MemoryRequest.returnsData
  rw [h.operation_eq]
  cases kind <;> rfl

theorem IsDownstream.reads (hkind : kind ≠ .upgrade) :
    request.operation = .readShared ∨ request.operation = .readUnique := by
  rw [h.operation_eq]
  cases kind with
  | readShared => exact .inl rfl
  | readUnique => exact .inr rfl
  | upgrade => exact absurd rfl hkind

theorem IsDownstream.asks (hag : c.agent = agent) :
    request.id.agent = agent := by
  rwa [h.id_eq]

end

end Downstream

/-- The bytes a downstream request asks for: the line, or for ownership one. -/
def missSize (layout : CacheLineLayout) : RequestKind → AccessSize
  | .upgrade => ⟨1, Nat.one_pos⟩
  | _ => layout.lineSize

theorem missSize_le (layout : CacheLineLayout) (kind : RequestKind) :
    (missSize layout kind).bytes ≤ layout.bytes := by
  cases kind with
  | upgrade => exact layout.pos
  | readShared | readUnique => exact le_rfl

theorem downstreamRequest_eq {kind P request} {c : CacheController S E}
    (hkind : kind = missKind P (CacheController.isCpuRead request.operation) before) :
    c.downstreamRequest P request before
      = (((newEmpty ⟨c.agent, c.nextSequence⟩ kind.operation c.line
            (missSize c.layout kind) c.layout).mapError .memory).map
          (·.withSourceAttributes request),
        { c with nextSequence := c.nextSequence + 1 }) := by
  subst hkind
  unfold CacheController.downstreamRequest missKind
  cases CacheController.isCpuRead request.operation with
  | true => rfl
  | false =>
    cases P.upgradesFrom before with
    | true | false => rfl

/-- A miss that cannot be sent is on a line that ends at the top of the address
    space. Sent, it is a request for the line. -/
theorem downstreamRequest_spec (P : LineProtocol S E) (c : CacheController S E)
    (request : MemoryRequest) (before : S) (haligned : c.layout.lineAddress c.line = c.line) :
    (wordLimit ≤ c.line + c.layout.bytes ∧ ∃ e,
      c.downstreamRequest P request before
        = (.error e, { c with nextSequence := c.nextSequence + 1 })) ∨
    ∃ downstream,
      c.downstreamRequest P request before
        = (.ok downstream, { c with nextSequence := c.nextSequence + 1 }) ∧
      IsDownstream c (missKind P (CacheController.isCpuRead request.operation) before)
        downstream := by
  have hoff : c.layout.lineOffset c.line = 0 := by
    have h := c.layout.lineAddress_add_lineOffset c.line
    rw [haligned] at h
    omega
  generalize hkind : missKind P (CacheController.isCpuRead request.operation) before = kind
  have hop : kind.operation = .readShared ∨ kind.operation = .readUnique ∨
      kind.operation = .upgrade := by
    cases kind
    · exact .inl rfl
    · exact .inr (.inl rfl)
    · exact .inr (.inr rfl)
  have hle := missSize_le c.layout kind
  rw [downstreamRequest_eq hkind.symm]
  rcases newEmpty_eq ⟨c.agent, c.nextSequence⟩ c.line (missSize c.layout kind) c.layout hop with
      ⟨hover, heq⟩ | ⟨d, heq, hid, hkind, hstart, hsize, hlayout, hresp⟩
  · refine .inl ⟨by omega, .memory (.addressOverflow c.line (missSize c.layout kind)), ?_⟩
    rw [heq]
    rfl
  · refine .inr ⟨d.withSourceAttributes request, by rw [heq]; rfl, hid, hkind, ?_, ?_, hresp,
      fun hk => ?_⟩
    · show d.lineLayout.lineAddress d.range.start = c.line
      rw [hlayout, hstart, haligned]
    · show d.lineLayout.lineOffset d.range.start = 0
      rw [hlayout, hstart, hoff]
    · show d.size.bytes = c.layout.bytes
      rw [hsize]
      cases kind with
      | upgrade => exact absurd rfl hk
      | readShared | readUnique => rfl

/-- A controller whose miss was granted: settled, with the data the fill brought
    or, if it brought none, the data held. -/
def filledWith (c : CacheController S E) (filled : S) (data : Option (List UInt8)) :
    CacheController S E :=
  match data with
  | none => { c with pending := none, state := filled }
  | some data =>
    { c with
      pending := none
      state := filled
      data := some data
      lockedReservations := fun _ => none }

/-- A fill the controller waits for leads to serving the request that waits. -/
theorem acceptFill_of_granted {pend ev P resp granted} {c : CacheController S E}
    (hgranted : granted.filter (fun e => !P.isDataResponse e) = none)
    (hpend : c.pending = some pend)
    (hid : resp.requestId = pend.downstream) (hev : granted.or pend.fillEvent = some ev)
    (hfil : P.transition c.state ev = some filled)
    (hlen : ∀ data, resp.data = some data → data.length = c.layout.bytes) :
    CacheController.acceptFill P c resp granted
      = match (filledWith c filled resp.data).completeCpuRequest pend.original with
        | (.error e, c) => (.error e, c)
        | (.ok resp, c) => (.ok ⟨.fill, filled, none, some resp⟩, c) := by
  unfold CacheController.acceptFill
  simp only [hgranted, hpend, hid, ne_eq, not_true_eq_false, if_false, hev, apply_of_some hfil]
  cases hd : resp.data with
  | none => rfl
  | some data =>
    simp only [CacheController.installData, hlen data hd, ne_eq, not_true_eq_false, if_false]
    rfl

/-! ## A request, from its entry to its end -/

/-- The event of a processor request. -/
def requestEvent (P : LineProtocol S E) (read : Bool) : E :=
  if read then P.cpuRead else P.cpuWrite

/-- The end of every request that is not refused on the way: the controller is
    ready, serves the request and is put back. -/
def Harness.finish (h : Harness D S E) (agent : AgentId) (c : CacheController S E)
    (request : MemoryRequest) (kind : ResultKind) (result : SubmitResult D S E) :
    Except (HarnessError S E) (SubmitResult D S E) × Harness D S E :=
  match c.completeCpuRequest request with
  | (.error e, c) => (.error (mapCacheError e), h.setCache agent c)
  | (.ok response, c) =>
    (.ok result, (h.setCache agent c).recordCpuResponse ⟨kind, c.state, none, some response⟩)

section Entry

variable [DecidableEq S] {R : HarnessRules D S E} {h : Harness D S E} {agent : AgentId}
  {c : CacheController S E} {request : MemoryRequest} {after : S}

/-- How a request enters a harness. Only a request for the line, to a controller
    that is settled, goes further. -/
inductive Entry (R : HarnessRules D S E) (h : Harness D S E) (agent : AgentId)
    (request : MemoryRequest) :
    Except (HarnessError S E) (SubmitResult D S E) × Harness D S E → Prop where
  | unknownAgent (hc : h.caches agent = none) :
      Entry R h agent request (.error (.unknownCache agent), h)
  | wrongLine (c : CacheController S E) (hc : h.caches agent = some c)
      (hline : request.lineAddress ≠ c.line) (e : HarnessError S E) :
      Entry R h agent request (.error e, h)
  /-- A request that accesses nothing is answered in any state. -/
  | idle (c : CacheController S E) (hc : h.caches agent = some c)
      (hop : request.operation = .noAccess) (result : SubmitResult D S E) :
      Entry R h agent request (.ok result, { h with
          cpuResponses := h.cpuResponses ++ [⟨0, .hit, request.id, .completed, none⟩] })
  | unexpected (c : CacheController S E) (hc : h.caches agent = some c)
      (hop : request.operation = .noAccess) (hnone : request.responseRequired = false)
      (e : HarnessError S E) :
      Entry R h agent request (.error e, h)
  | busy (c : CacheController S E) (hc : h.caches agent = some c)
      (hbusy : R.protocol.isStable c.state = false) (e : HarnessError S E) :
      Entry R h agent request (.error e, h)
  | admitted (c : CacheController S E) (hc : h.caches agent = some c)
      (hline : request.lineAddress = c.line) (hop : request.operation ≠ .noAccess)
      (hstable : R.protocol.isStable c.state = true)
      (outcome : Except (HarnessError S E) (SubmitResult D S E) × Harness D S E) :
      Entry R h agent request outcome

theorem submit_entry (R : HarnessRules D S E) (h : Harness D S E) (agent : AgentId)
    (request : MemoryRequest) : Entry R h agent request (h.submitCpuRequest R agent request) := by
  cases hc : h.caches agent with
  | none =>
    have hrun : h.submitCpuRequest R agent request = (.error (.unknownCache agent), h) := by
      unfold submitCpuRequest
      simp [hc]
    rw [hrun]
    exact .unknownAgent hc
  | some c =>
    have hself := setCache_eq_self hc
    by_cases hline : request.lineAddress = c.line
    case neg =>
      have hrun : h.submitCpuRequest R agent request
          = (.error (.cache (.wrongLine c.line request.lineAddress)), h) := by
        unfold submitCpuRequest CacheController.acceptCpuRequest
        simp [hc, hline, hself, mapCacheError]
      rw [hrun]
      exact .wrongLine c hc hline _
    by_cases hop : request.operation = .noAccess
    case pos =>
      cases hresp : request.responseRequired with
      | false =>
        have hrun : h.submitCpuRequest R agent request
            = (.error (.cache (.memory (.responseNotExpected request.id))), h) := by
          unfold submitCpuRequest CacheController.acceptCpuRequest
          simp only [hc, hline, ne_eq, not_true_eq_false, if_false, hop, if_true,
            MemoryResponse.completed, hresp, CacheController.respond, Except.mapError,
            Except.map, hself, mapCacheError]
        rw [hrun]
        exact .unexpected c hc hop hresp _
      | true =>
        have hret : request.returnsData = false := by
          unfold returnsData
          rw [hop]
          rfl
        have hrun : h.submitCpuRequest R agent request = (.ok ⟨.immediateHit, .hit, none⟩, { h with
                cpuResponses := h.cpuResponses ++ [⟨0, .hit, request.id, .completed, none⟩] }) := by
          unfold submitCpuRequest CacheController.acceptCpuRequest
          simp only [hc, hline, ne_eq, not_true_eq_false, if_false, hop, if_true,
            MemoryResponse.completed_none hresp hret, CacheController.respond,
            Except.mapError, Except.map, hself]
          rfl
        rw [hrun]
        exact .idle c hc hop _
    cases hstab : R.protocol.isStable c.state with
    | false =>
      have hrun : h.submitCpuRequest R agent request = (.error (.lineBusy c.state), h) := by
        unfold submitCpuRequest CacheController.acceptCpuRequest
        simp [hc, hline, hop, isTransient, hstab, hself, mapCacheError]
      rw [hrun]
      exact .busy c hc hstab _
    | true => exact .admitted c hc hline hop hstab _

/-- A hit is served at once. -/
theorem submitCpuRequest_of_hit (hc : h.caches agent = some c)
    (hline : request.lineAddress = c.line) (hop : request.operation ≠ .noAccess)
    (hstab : R.protocol.isStable c.state = true)
    (hstep : R.protocol.transition c.state
      (requestEvent R.protocol (CacheController.isCpuRead request.operation)) = some after)
    (haft : R.protocol.isStable after = true) :
    h.submitCpuRequest R agent request
      = h.finish agent { c with state := after } request .hit ⟨.immediateHit, .hit, none⟩ := by
  have hev : R.protocol.apply c.agent c.line c.state
      (CacheController.cpuEvent R.protocol request) = .ok after :=
    apply_of_some hstep
  unfold submitCpuRequest CacheController.acceptCpuRequest finish
  simp only [hc, hline, ne_eq, not_true_eq_false, if_false, hop, isTransient, hstab,
    Bool.not_true, Bool.false_eq_true, hev, haft]
  generalize CacheController.completeCpuRequest { c with state := after } request = completion
  rcases completion with ⟨_ | resp, c'⟩
  · rfl
  · rfl

/-- A miss is sent to the directory. -/
theorem submitCpuRequest_of_miss (hc : h.caches agent = some c)
    (hline : request.lineAddress = c.line) (hop : request.operation ≠ .noAccess)
    (hstab : R.protocol.isStable c.state = true)
    (hstep : R.protocol.transition c.state
      (requestEvent R.protocol (CacheController.isCpuRead request.operation)) = some after)
    (haft : R.protocol.isStable after = false) :
    h.submitCpuRequest R agent request
      = match CacheController.downstreamRequest R.protocol { c with state := after } request
            c.state with
        | (.error e, c) => (.error (mapCacheError e), h.setCache agent c)
        | (.ok downstream, c) =>
          (h.setCache agent { c with
            pending := some ⟨request, downstream.id, R.protocol.missFillEvent after⟩ }).resolveMiss
            R agent .miss downstream := by
  have hev : R.protocol.apply c.agent c.line c.state
      (CacheController.cpuEvent R.protocol request) = .ok after :=
    apply_of_some hstep
  unfold submitCpuRequest CacheController.acceptCpuRequest
  simp only [hc, hline, ne_eq, not_true_eq_false, if_false, hop, isTransient, hstab,
    Bool.not_true, Bool.false_eq_true, hev, haft, Bool.not_false, if_true]
  generalize CacheController.downstreamRequest R.protocol { c with state := after } request
    c.state = sent
  rcases sent with ⟨_ | downstream, c'⟩
  · rfl
  · rfl

end Entry

end Rem6.Coherence
