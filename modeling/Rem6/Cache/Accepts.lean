import Rem6.Cache.Completion

/-!
# What the Controller's Calls Can Do

The cases of a processor request and of a fill, each said once: how far the
call got, what it answers and which controller it leaves. Everything proved
about runs of controllers is a case analysis over these two relations, and
nothing below them is unfolded again.

A request that reaches the table and is accepted there has moved the line,
whatever happens to it afterwards. The same goes for a fill that answers the
pending miss, which has also taken the miss.

## Main definitions

* `Reaches`: A processor request gets as far as the table.
* `CpuAccept`: What a processor request can lead to.
* `FillAccept`: What a fill can lead to, for a controller that is granted no
  event of its own.
* `installStable`: A line put in place without any protocol.

## Theorems

* `downstreamRequest_spec`: The request a miss sends, or why it cannot.
* `acceptCpuRequest_spec`, `acceptFill_spec`: The calls are among their cases.
* `acceptCpuRequest_sized`, `acceptFill_sized`, `acceptSnoop_sized`,
  `installStable_sized`: Every call keeps the line whole.
-/

namespace Rem6.Cache

open Memory Protocol MemoryRequest

namespace CacheController

variable {S E : Type}

/-- A processor request gets as far as the table. -/
structure Reaches (P : LineProtocol S E) (c : CacheController S E) (request : MemoryRequest) :
    Prop where
  line_eq : request.lineAddress = c.line
  accesses : request.operation ≠ .noAccess
  stable : P.isTransient c.state = false

/-- The controller after a miss: the line waits, and a sequence number is spent. -/
def waiting (c : CacheController S E) (after : S) : CacheController S E :=
  { c with state := after, nextSequence := c.nextSequence + 1 }

/-- The bytes that a miss asks for: the line, or one byte of a copy already held. -/
def missBytes (P : LineProtocol S E) (c : CacheController S E) (request : MemoryRequest)
    (before : S) : Nat :=
  if isCpuRead request.operation then c.layout.bytes
  else if P.upgradesFrom before then 1 else c.layout.bytes

/-- What a processor request can lead to. -/
inductive CpuAccept (P : LineProtocol S E) (c : CacheController S E) (request : MemoryRequest) :
    Except (CacheControllerError S E) (CacheControllerResult S) × CacheController S E → Prop where
  /-- The request never got to the table: it is for another line, or the line
      is waiting for an earlier request. -/
  | turnedAway (e : CacheControllerError S E) (h : ¬ Reaches P c request) :
      CpuAccept P c request (.error e, c)
  /-- A request without access is answered by anybody. -/
  | noAccess (response : MemoryResponse) (hop : request.operation = .noAccess)
      (hresponse : MemoryResponse.completed request none = .ok response) :
      CpuAccept P c request (.ok ⟨.hit, c.state, none, some response⟩, c)
  | refused (e : ProtocolError S E) (h : Reaches P c request)
      (hnone : P.transition c.state (cpuEvent P request) = none) :
      CpuAccept P c request (.error (.protocol e), c)
  /-- A miss whose request cannot be built, the line being the topmost one. -/
  | unsent (after : S) (e : CacheControllerError S E) (h : Reaches P c request)
      (hmove : P.transition c.state (cpuEvent P request) = some after)
      (hwait : P.isTransient after = true)
      (htop : wordLimit ≤ c.line + missBytes P c request c.state) :
      CpuAccept P c request (.error e, c.waiting after)
  | missed (after : S) (downstream : MemoryRequest) (h : Reaches P c request)
      (hmove : P.transition c.state (cpuEvent P request) = some after)
      (hwait : P.isTransient after = true) (hid : downstream.id = ⟨c.agent, c.nextSequence⟩)
      (hroom : c.line + missBytes P c request c.state < wordLimit) :
      CpuAccept P c request (.ok ⟨.miss, after, some downstream, none⟩,
        { c.waiting after with
          pending := some ⟨request, ⟨c.agent, c.nextSequence⟩, P.missFillEvent after⟩ })
  | unserved (after : S) (e : CacheControllerError S E) (d : CacheController S E)
      (h : Reaches P c request) (hmove : P.transition c.state (cpuEvent P request) = some after)
      (hhit : P.isTransient after = false)
      (hserve : completeCpuRequest { c with state := after } request = (.error e, d)) :
      CpuAccept P c request (.error e, d)
  | hit (after : S) (response : MemoryResponse) (d : CacheController S E) (h : Reaches P c request)
      (hmove : P.transition c.state (cpuEvent P request) = some after)
      (hhit : P.isTransient after = false)
      (hserve : completeCpuRequest { c with state := after } request = (.ok response, d)) :
      CpuAccept P c request (.ok ⟨.hit, after, none, some response⟩, d)

/-- The request a miss sends bears the next sequence number. It is refused when what
    it asks for ends where the addresses end. -/
theorem downstreamRequest_spec (P : LineProtocol S E) (c : CacheController S E)
    (req : MemoryRequest) (before : S) :
    (∃ e, downstreamRequest P c req before
        = (.error e, { c with nextSequence := c.nextSequence + 1 }) ∧
      wordLimit ≤ c.line + missBytes P c req before) ∨
    ∃ downstream, downstreamRequest P c req before
        = (.ok downstream, { c with nextSequence := c.nextSequence + 1 }) ∧
      downstream.id = ⟨c.agent, c.nextSequence⟩ ∧
      c.line + missBytes P c req before < wordLimit := by
  -- The three shapes of the request differ in operation and size only.
  have hbuild : ∀ operation size,
      operation = .readShared ∨ operation = .readUnique ∨ operation = .upgrade →
      (∃ e, (((newEmpty ⟨c.agent, c.nextSequence⟩ operation c.line size
            c.layout).mapError .memory).map (·.withSourceAttributes req)
            : Except (CacheControllerError S E) MemoryRequest) = .error e ∧
        wordLimit ≤ c.line + size.bytes) ∨
      ∃ downstream, (((newEmpty ⟨c.agent, c.nextSequence⟩ operation c.line size
            c.layout).mapError .memory).map (·.withSourceAttributes req)
            : Except (CacheControllerError S E) MemoryRequest) = .ok downstream ∧
        downstream.id = ⟨c.agent, c.nextSequence⟩ ∧ c.line + size.bytes < wordLimit := by
    intro operation size hop
    rcases newEmpty_eq ⟨c.agent, c.nextSequence⟩ c.line size c.layout hop
      with ⟨htop, herr⟩ | ⟨downstream, hok, hid, -, hstart, hsize, -⟩
    · exact .inl ⟨_, by rw [herr]; rfl, htop⟩
    · exact .inr ⟨downstream.withSourceAttributes req, by rw [hok]; rfl, hid,
        hstart ▸ hsize ▸ downstream.range.bound⟩
  unfold downstreamRequest readShared newUpgrade readUnique missBytes
  simp only [Prod.mk.injEq, and_true]
  split
  · exact hbuild .readShared c.layout.lineSize (.inl rfl)
  split
  · exact hbuild .upgrade ⟨1, Nat.one_pos⟩ (.inr (.inr rfl))
  · exact hbuild .readUnique c.layout.lineSize (.inr (.inl rfl))

theorem acceptCpuRequest_spec (P : LineProtocol S E) (c : CacheController S E)
    (request : MemoryRequest) : CpuAccept P c request (c.acceptCpuRequest P request) := by
  unfold acceptCpuRequest
  by_cases hline : request.lineAddress = c.line
  case neg =>
    rw [if_pos hline]
    exact .turnedAway _ (fun h => hline h.line_eq)
  rw [if_neg (not_not_intro hline)]
  by_cases hop : request.operation = .noAccess
  case pos =>
    -- Answering nothing to nothing: a request without access expects an answer.
    have hanswer : MemoryResponse.completed request none = .ok ⟨request.id, .completed, none⟩ :=
      MemoryResponse.completed_none (request.answered (by rw [hop]; rfl))
        (by unfold returnsData; rw [hop]; rfl)
    rw [if_pos hop, hanswer]
    exact .noAccess _ hop hanswer
  rw [if_neg hop]
  by_cases hbusy : P.isTransient c.state = true
  case pos =>
    rw [if_pos hbusy]
    exact .turnedAway _ (fun h => absurd h.stable (by rw [hbusy]; decide))
  rw [if_neg hbusy]
  have hreaches : Reaches P c request := ⟨hline, hop, Bool.not_eq_true _ ▸ hbusy⟩
  cases happly : P.apply c.agent c.line c.state (cpuEvent P request) with
  | error e =>
    have hnone : P.transition c.state (cpuEvent P request) = none := by
      by_contra hsome
      obtain ⟨after, haft⟩ := Option.ne_none_iff_exists'.mp hsome
      simp [LineProtocol.apply_of_some haft] at happly
    exact .refused e hreaches hnone
  | ok after =>
    have hmove := LineProtocol.apply_eq_ok.mp happly
    simp only
    split
    next hwait =>
      rcases downstreamRequest_spec P { c with state := after } request c.state with
        ⟨e, hsent, htop⟩ | ⟨downstream, hsent, hid, hroom⟩
      · rw [hsent]
        exact .unsent after e hreaches hmove hwait htop
      · rw [hsent]
        have hmis : CpuAccept P c request _ := .missed after downstream hreaches hmove hwait hid
          hroom
        simp only [hid]
        exact hmis
    next hwait =>
      rcases hserve : completeCpuRequest { c with state := after } request with ⟨answer, d⟩
      cases answer with
      | error e => exact .unserved after e d hreaches hmove (Bool.not_eq_true _ ▸ hwait) hserve
      | ok resp => exact .hit after resp d hreaches hmove (Bool.not_eq_true _ ▸ hwait) hserve

/-- The controller that a fill which answers the pending miss goes on with. -/
def filling (c : CacheController S E) (after : S) : CacheController S E :=
  { c with pending := none, state := after }

/-- What a fill can lead to, for a controller that is granted no event. -/
inductive FillAccept (P : LineProtocol S E) (c : CacheController S E)
    (response : MemoryResponse) :
    Except (CacheControllerError S E) (CacheControllerResult S) × CacheController S E → Prop where
  | idle (h : c.pending = none) : FillAccept P c response (.error .noPendingMiss, c)
  | unexpected (pending : PendingMiss E) (h : c.pending = some pending)
      (hid : response.requestId ≠ pending.downstream) :
      FillAccept P c response (.error (.unexpectedFill pending.downstream response.requestId), c)
  /-- The line no longer waits for what the miss waits for. -/
  | refused (pending : PendingMiss E) (e : CacheControllerError S E)
      (h : c.pending = some pending) (hid : response.requestId = pending.downstream)
      (hnone : ∀ event, pending.fillEvent = some event → P.transition c.state event = none) :
      FillAccept P c response (.error e, { c with pending := none })
  | unfit (pending : PendingMiss E) (event : E) (after : S) (data : List UInt8)
      (h : c.pending = some pending) (hid : response.requestId = pending.downstream)
      (hevent : pending.fillEvent = some event) (hmove : P.transition c.state event = some after)
      (hdata : response.data = some data) (hlen : data.length ≠ c.layout.bytes) :
      FillAccept P c response
        (.error (.lineDataSizeMismatch c.layout.bytes data.length), c.filling after)
  | unserved (pending : PendingMiss E) (event : E) (after : S) (d d' : CacheController S E)
      (e : CacheControllerError S E)
      (h : c.pending = some pending) (hid : response.requestId = pending.downstream)
      (hevent : pending.fillEvent = some event) (hmove : P.transition c.state event = some after)
      (hinstall : (c.filling after).installData response.data = .ok d)
      (hserve : d.completeCpuRequest pending.original = (.error e, d')) :
      FillAccept P c response (.error e, d')
  | filled (pending : PendingMiss E) (event : E) (after : S) (d d' : CacheController S E)
      (answer : MemoryResponse)
      (h : c.pending = some pending) (hid : response.requestId = pending.downstream)
      (hevent : pending.fillEvent = some event) (hmove : P.transition c.state event = some after)
      (hinstall : (c.filling after).installData response.data = .ok d)
      (hserve : d.completeCpuRequest pending.original = (.ok answer, d')) :
      FillAccept P c response (.ok ⟨.fill, after, none, some answer⟩, d')

theorem installData_cases (c : CacheController S E) (data : Option (List UInt8)) :
    (∃ d, c.installData data = .ok d) ∨
    ∃ bytes, data = some bytes ∧ bytes.length ≠ c.layout.bytes ∧
      c.installData data = .error (.lineDataSizeMismatch c.layout.bytes bytes.length) := by
  unfold installData
  cases data with
  | none => exact .inl ⟨c, rfl⟩
  | some bytes =>
    simp only
    by_cases hlen : bytes.length = c.layout.bytes
    · exact .inl ⟨_, if_neg (not_not_intro hlen)⟩
    · exact .inr ⟨bytes, rfl, hlen, if_pos hlen⟩

theorem acceptFill_spec (P : LineProtocol S E) (c : CacheController S E) (resp : MemoryResponse) :
    FillAccept P c resp (c.acceptFill P resp none) := by
  unfold acceptFill
  simp only [Option.filter_none, Option.none_or]
  cases hpend : c.pending with
  | none => exact .idle hpend
  | some pend =>
    simp only
    by_cases hid : resp.requestId = pend.downstream
    case neg =>
      rw [if_pos hid]
      exact .unexpected pend hpend hid
    rw [if_neg (not_not_intro hid)]
    cases hev : pend.fillEvent with
    | none =>
      exact .refused pend _ hpend hid (fun ev h => by
        rw [hev] at h
        cases h)
    | some ev =>
      simp only
      cases happly : P.apply c.agent c.line c.state ev with
      | error e =>
        refine .refused pend _ hpend hid (fun other h => ?_)
        by_contra hsome
        obtain ⟨after, haft⟩ := Option.ne_none_iff_exists'.mp hsome
        rw [← Option.some.inj (hev.symm.trans h)] at haft
        simp [LineProtocol.apply_of_some haft] at happly
      | ok after =>
        have hmove := LineProtocol.apply_eq_ok.mp happly
        simp only
        rcases installData_cases (c.filling after) resp.data with
          ⟨d, hins⟩ | ⟨data, hdata, hlen, hins⟩
        · simp only [filling] at hins
          rw [hins]
          simp only
          rcases hserve : d.completeCpuRequest pend.original with ⟨answer, d'⟩
          cases answer with
          | error e => exact .unserved pend ev after d d' e hpend hid hev hmove hins hserve
          | ok answer => exact .filled pend ev after d d' answer hpend hid hev hmove hins hserve
        · simp only [filling] at hins
          rw [hins]
          exact .unfit pend ev after data hpend hid hev hmove hdata hlen

/-- Put the line in a stable state with the given data, whatever it was. The
    state stays when the data is refused. -/
def installStable (c : CacheController S E) (state : S) (data : List UInt8) :
    Except (CacheControllerError S E) Unit × CacheController S E :=
  let c := { c with state }
  match c.installData (some data) with
  | .error e => (.error e, c)
  | .ok c => (.ok (), c)

/-! ## Whole lines -/

variable {P : LineProtocol S E} {c : CacheController S E}

theorem installData_ok {d : CacheController S E} {data : Option (List UInt8)}
    (h : c.installData data = .ok d) :
    d.pending = c.pending ∧ d.layout = c.layout ∧ d.data = data.or c.data ∧
      (∀ bytes, data = some bytes → bytes.length = c.layout.bytes) ∧
      ∀ request, d.storeConditionalAllowed request =
        (data.isNone && c.storeConditionalAllowed request) := by
  unfold installData at h
  cases data with
  | none => exact Except.ok.inj h ▸ ⟨rfl, rfl, rfl, nofun, fun _ => rfl⟩
  | some bytes =>
    simp only at h
    split at h
    · cases h
    next hlen =>
      exact Except.ok.inj h ▸ ⟨rfl, rfl, rfl, fun _ h => Option.some.inj h ▸ not_not.mp hlen,
        fun _ => rfl⟩

theorem installData_sized {d} {data : Option (List UInt8)} (h : Sized c)
    (hdata : c.installData data = .ok d) : Sized d := by
  obtain ⟨-, hlayout, hd, hlen, -⟩ := installData_ok hdata
  intro line hline
  rw [hlayout]
  cases data with
  | none => exact h line (hd.symm.trans hline)
  | some bytes => exact Option.some.inj (hd.symm.trans hline) ▸ hlen bytes rfl

theorem acceptCpuRequest_sized {req} (h : Sized c) : Sized (c.acceptCpuRequest P req).2 := by
  have hspec := acceptCpuRequest_spec P c req
  generalize c.acceptCpuRequest P req = oc at hspec ⊢
  have hserved : ∀ after : S, Sized (completeCpuRequest { c with state := after } req).2 :=
    fun after => completeCpuRequest_sized (c := { c with state := after }) req h
  cases hspec with
  | turnedAway | noAccess | refused | unsent | missed => exact h
  | unserved after e d _ _ _ hserve | hit after resp d _ _ _ hserve =>
    have := hserved after
    rwa [hserve] at this

theorem acceptFill_sized {resp} (h : Sized c) : Sized (c.acceptFill P resp none).2 := by
  have hspec := acceptFill_spec P c resp
  generalize c.acceptFill P resp none = oc at hspec ⊢
  have hserved : ∀ after d req, (c.filling after).installData resp.data = .ok d →
      Sized (d.completeCpuRequest req).2 := fun after d req hins =>
    completeCpuRequest_sized req (installData_sized (c := c.filling after) h hins)
  cases hspec with
  | idle | unexpected | refused | unfit => exact h
  | unserved pend ev after d d' e _ _ _ _ hins hserve
  | filled pend ev after d d' e _ _ _ _ hins hserve =>
    have := hserved after d pend.original hins
    rwa [hserve] at this

theorem acceptSnoop_sized {ev} [DecidableEq S] (h : Sized c) : Sized (c.acceptSnoop P ev).2 := by
  unfold acceptSnoop
  cases P.apply c.agent c.line c.state ev with
  | error e => exact h
  | ok after =>
    simp only
    split
    · intro data hdata
      cases hdata
    · exact h

theorem installStable_sized {state : S} {data : List UInt8} (h : Sized c) :
    Sized (c.installStable state data).2 := by
  unfold installStable
  simp only
  cases hdata : ({ c with state } : CacheController S E).installData (some data) with
  | error e => exact h
  | ok d => exact installData_sized (c := { c with state }) h hdata

end CacheController

end Rem6.Cache
