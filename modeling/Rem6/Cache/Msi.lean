import Rem6.Cache.Accepts

/-!
# Failing Calls of the MSI Controller

The MSI controller with everything its snapshot shows: beside the line, the
data and the pending miss there is the trace, to which the line's table adds
an entry for every event it accepts.

Each call moves the line through the table, and takes the pending miss, before
it looks at the data. A call that fails later than that has already changed
the controller. `Ready` says when a call cannot fail late, in terms of the
controller it finds: then a call that fails has changed nothing at all, and
whatever fill the line waited for is still welcome. A call that is not ready
fails and shows in the snapshot, where the trace is longer, the miss is gone or
the state is another. A fill that tells the cache to try again is such a call.

## Main definitions

* `MsiCacheController`: The controller with its trace; its data is a whole line.
* `MsiCacheController.snapshot`: What a snapshot holds. Reservations are not
  part of it.
* `MsiCall`, `MsiCacheController.perform`: The calls that can fail.
* `MsiCacheController.Ready`: The call does not fail after it moved the line.

## Theorems

* `acceptCpuRequest_failed`, `acceptFill_failed`, `installStable_failed`: A
  ready call that fails leaves its controller.
* `failed_call_changes_nothing`: A call changes nothing when it fails exactly if it
  is ready.
* `retried_fill_drops_miss`: A retry leaves a line that no fill can complete.
-/

namespace Rem6.Cache

open Memory Protocol

/-- One accepted event, as the line's trace keeps it. -/
structure MsiTraceEntry where
  agent : AgentId
  line : Nat
  before : MsiState
  event : MsiEvent
  after : MsiState
deriving DecidableEq, Repr

structure MsiCacheController where
  core : CacheController MsiState MsiEvent
  trace : List MsiTraceEntry
  /-- What data there is, is a whole line. -/
  sized : core.Sized

structure MsiCacheControllerSnapshot where
  agent : AgentId
  line : Nat
  state : MsiState
  trace : List MsiTraceEntry
  layout : CacheLineLayout
  nextSequence : Nat
  data : Option (List UInt8)
  pending : Option (PendingMiss MsiEvent)

inductive MsiCall where
  | acceptCpuRequest (request : MemoryRequest)
  | acceptFill (response : MemoryResponse)
  | acceptSnoop (event : MsiEvent)
  | installShared (data : List UInt8)
  | installModified (data : List UInt8)

namespace MsiCacheController

open CacheController

variable (c : MsiCacheController)

def new (agent : AgentId) (layout : CacheLineLayout) (lineAddress : Nat) : MsiCacheController where
  core := CacheController.new msi agent layout lineAddress
  trace := []
  sized := fun _ h => by cases h

def snapshot : MsiCacheControllerSnapshot where
  agent := c.core.agent
  line := c.core.line
  state := c.core.state
  trace := c.trace
  layout := c.core.layout
  nextSequence := c.core.nextSequence
  data := c.core.data
  pending := c.core.pending

/-- The event a call hands to the table of the line, if it gets that far. -/
def tableEvent : MsiCall → Option MsiEvent
  | .acceptCpuRequest request =>
    if request.lineAddress ≠ c.core.line then none
    else if request.operation = .noAccess then none
    else if msi.isTransient c.core.state then none
    else some (cpuEvent msi request)
  | .acceptFill response =>
    match c.core.pending with
    | none => none
    | some pending =>
      if response.requestId ≠ pending.downstream then none else pending.fillEvent
  | .acceptSnoop event => some event
  -- A forced state does not go through the table.
  | .installShared _ | .installModified _ => none

/-- The trace after the table was handed an event: one more entry if it
    accepted the event. -/
def tracing (event : Option MsiEvent) : List MsiTraceEntry :=
  match event with
  | none => c.trace
  | some event =>
    match msi.transition c.core.state event with
    | none => c.trace
    | some after => c.trace ++ [⟨c.core.agent, c.core.line, c.core.state, event, after⟩]

def acceptCpuRequest (request : MemoryRequest) :
    Except (CacheControllerError MsiState MsiEvent) (CacheControllerResult MsiState) ×
      MsiCacheController :=
  let outcome := c.core.acceptCpuRequest msi request
  (outcome.1, ⟨outcome.2, c.tracing (c.tableEvent (.acceptCpuRequest request)),
    acceptCpuRequest_sized c.sized⟩)

/-- The MSI controller is granted nothing: it fixed its fill event when it
    missed. -/
def acceptFill (response : MemoryResponse) :
    Except (CacheControllerError MsiState MsiEvent) (CacheControllerResult MsiState) ×
      MsiCacheController :=
  let outcome := c.core.acceptFill msi response none
  (outcome.1, ⟨outcome.2, c.tracing (c.tableEvent (.acceptFill response)),
    acceptFill_sized c.sized⟩)

def acceptSnoop (event : MsiEvent) :
    Except (CacheControllerError MsiState MsiEvent) (CacheControllerResult MsiState) ×
      MsiCacheController :=
  let outcome := c.core.acceptSnoop msi event
  (outcome.1, ⟨outcome.2, c.tracing (c.tableEvent (.acceptSnoop event)), acceptSnoop_sized c.sized⟩)

def installStable (state : MsiState) (data : List UInt8) :
    Except (CacheControllerError MsiState MsiEvent) Unit × MsiCacheController :=
  let outcome := c.core.installStable state data
  (outcome.1, ⟨outcome.2, c.trace, installStable_sized c.sized⟩)

def installShared (data : List UInt8) :
    Except (CacheControllerError MsiState MsiEvent) Unit × MsiCacheController :=
  c.installStable .shared data

def installModified (data : List UInt8) :
    Except (CacheControllerError MsiState MsiEvent) Unit × MsiCacheController :=
  c.installStable .modified data

/-- One call, without what it reports. -/
def perform : MsiCall → Except (CacheControllerError MsiState MsiEvent) Unit × MsiCacheController
  | .acceptCpuRequest request =>
    ((c.acceptCpuRequest request).1.map fun _ => (), (c.acceptCpuRequest request).2)
  | .acceptFill response => ((c.acceptFill response).1.map fun _ => (), (c.acceptFill response).2)
  | .acceptSnoop event => ((c.acceptSnoop event).1.map fun _ => (), (c.acceptSnoop event).2)
  | .installShared data => c.installShared data
  | .installModified data => c.installModified data

/-- The call does not fail after it moved the line. A processor request that
    reaches the table can be served on a hit and sent downstream on a miss, a
    fill that answers the pending miss is accepted by the table and brings what
    the waiting request needs, and forced data is a whole line. -/
def Ready : MsiCall → Prop
  | .acceptCpuRequest request =>
    ∀ event after, c.tableEvent (.acceptCpuRequest request) = some event →
      msi.transition c.core.state event = some after →
      if msi.isTransient after then
        c.core.line + missBytes msi c.core request c.core.state < wordLimit
      else Servable c.core.layout c.core.data (c.core.storeConditionalAllowed request) request
  | .acceptFill response =>
    ∀ pending, c.core.pending = some pending → response.requestId = pending.downstream →
      (∃ event after, pending.fillEvent = some event ∧
        msi.transition c.core.state event = some after) ∧
      (∀ data, response.data = some data → data.length = c.core.layout.bytes) ∧
      -- New data ends the reservations.
      Servable c.core.layout (response.data.or c.core.data)
        (response.data.isNone && c.core.storeConditionalAllowed pending.original) pending.original
  | .acceptSnoop _ => True
  | .installShared data => c.core.state = .shared ∨ data.length = c.core.layout.bytes
  | .installModified data => c.core.state = .modified ∨ data.length = c.core.layout.bytes

variable {c} {e : CacheControllerError MsiState MsiEvent}

theorem eq_of_parts {core : CacheController MsiState MsiEvent} {trace : List MsiTraceEntry}
    {hsized : core.Sized} (hcore : core = c.core) (htr : trace = c.trace) :
    (⟨core, trace, hsized⟩ : MsiCacheController) = c := by
  subst hcore htr
  rfl

theorem tableEvent_of_not_reaches {req} (h : ¬ Reaches msi c.core req) :
    c.tableEvent (.acceptCpuRequest req) = none := by
  simp only [tableEvent]
  by_cases hline : req.lineAddress = c.core.line
  case neg => exact if_pos hline
  rw [if_neg (not_not_intro hline)]
  by_cases hop : req.operation = .noAccess
  case pos => exact if_pos hop
  rw [if_neg hop]
  by_cases hbusy : msi.isTransient c.core.state = true
  case pos => exact if_pos hbusy
  exact absurd ⟨hline, hop, Bool.not_eq_true _ ▸ hbusy⟩ h

theorem tableEvent_of_reaches {req} (h : Reaches msi c.core req) :
    c.tableEvent (.acceptCpuRequest req) = some (cpuEvent msi req) := by
  simp only [tableEvent]
  rw [if_neg (not_not_intro h.line_eq), if_neg h.accesses, if_neg (by rw [h.stable]; decide)]

theorem acceptCpuRequest_failed {req} (hready : c.Ready (.acceptCpuRequest req))
    (h : (c.acceptCpuRequest req).1 = .error e) : (c.acceptCpuRequest req).2 = c := by
  have hspec := acceptCpuRequest_spec msi c.core req
  suffices hpar : (c.core.acceptCpuRequest msi req).2 = c.core ∧
      c.tracing (c.tableEvent (.acceptCpuRequest req)) = c.trace from
    eq_of_parts hpar.1 hpar.2
  unfold acceptCpuRequest at h
  simp only at h
  generalize c.core.acceptCpuRequest msi req = oc at hspec h ⊢
  cases hspec with
  | turnedAway _ hnot => exact ⟨rfl, by rw [tableEvent_of_not_reaches hnot]; rfl⟩
  | noAccess | missed | hit => cases h
  | refused _ hreaches hnone =>
    exact ⟨rfl, by simp [tableEvent_of_reaches hreaches, tracing, hnone]⟩
  | unsent after _ hreaches hmove hwait htop =>
    have hroom := hready _ after (tableEvent_of_reaches hreaches) hmove
    rw [if_pos hwait] at hroom
    exact absurd hroom (not_lt.mpr htop)
  | unserved after _ d hreaches hmove hhit hserve =>
    have hservable := hready _ after (tableEvent_of_reaches hreaches) hmove
    rw [if_neg (by rw [hhit]; decide)] at hservable
    rcases completeCpuRequest_of_servable (c := { c.core with state := after }) c.sized hservable
      with ⟨resp, hok⟩
    simp [hserve] at hok

theorem acceptFill_failed {resp} (hready : c.Ready (.acceptFill resp))
    (h : (c.acceptFill resp).1 = .error e) : (c.acceptFill resp).2 = c := by
  have hspec := acceptFill_spec msi c.core resp
  suffices hpar : (c.core.acceptFill msi resp none).2 = c.core ∧
      c.tracing (c.tableEvent (.acceptFill resp)) = c.trace from
    eq_of_parts hpar.1 hpar.2
  unfold acceptFill at h
  simp only at h
  generalize c.core.acceptFill msi resp none = oc at hspec h ⊢
  cases hspec with
  | idle hpend => exact ⟨rfl, by simp [tableEvent, hpend, tracing]⟩
  | unexpected pend hpend hid =>
    refine ⟨rfl, ?_⟩
    simp [tableEvent, hpend, hid, tracing]
  | refused pend _ hpend hid hnone =>
    obtain ⟨ev, after, hev, hmove⟩ := (hready pend hpend hid).1
    simp [hnone ev hev] at hmove
  | unfit pend _ _ data hpend hid _ _ hdata hlen =>
    exact absurd ((hready pend hpend hid).2.1 data hdata) hlen
  | unserved pend _ after d d' _ hpend hid _ _ hins hserve =>
    have hservable := (hready pend hpend hid).2.2
    obtain ⟨-, hlayout, hdata, -, hreserved⟩ := installData_ok hins
    have hready' : Servable d.layout d.data (d.storeConditionalAllowed pend.original)
        pend.original := by
      rwa [hlayout, hdata, hreserved]
    rcases completeCpuRequest_of_servable
      (installData_sized (c := c.core.filling after) c.sized hins) hready' with ⟨answer, hok⟩
    simp [hserve] at hok
  | filled => cases h

theorem acceptSnoop_failed {ev} (h : (c.acceptSnoop ev).1 = .error e) :
    (c.acceptSnoop ev).2 = c := by
  unfold acceptSnoop CacheController.acceptSnoop at h ⊢
  cases hmove : msi.transition c.core.state ev with
  | none =>
    simp only [LineProtocol.apply, hmove] at h ⊢
    refine eq_of_parts ?_ (by simp [tableEvent, tracing, hmove])
    split <;> simp_all only [reduceCtorEq]
  | some after =>
    simp only [LineProtocol.apply_of_some hmove] at h
    cases h

/-- Data of the wrong length is only harmless where the line already is in the
    state it is forced to. -/
theorem installStable_failed {state : MsiState} {data : List UInt8}
    (hready : c.core.state = state ∨ data.length = c.core.layout.bytes)
    (h : (c.installStable state data).1 = .error e) : (c.installStable state data).2 = c := by
  unfold installStable CacheController.installStable at h ⊢
  simp only at h ⊢
  rcases installData_cases { c.core with state } (some data) with
    ⟨d, hok⟩ | ⟨bytes, hdata, hlen, herr⟩
  · simp [hok] at h
  · rw [← Option.some.inj hdata] at hlen
    have hst : c.core.state = state := hready.resolve_right hlen
    refine eq_of_parts ?_ rfl
    rw [herr, ← hst]

theorem perform_failed {call} (hready : c.Ready call) (h : (c.perform call).1 = .error e) :
    (c.perform call).2 = c := by
  -- A call that only drops its report fails where the call fails.
  have hrep : ∀ {α : Type} {res : Except (CacheControllerError MsiState MsiEvent) α},
      (res.map fun _ => ()) = .error e → res = .error e := by
    intro α res hres
    cases res with
    | error _ => exact congrArg _ (Except.error.inj hres)
    | ok _ => cases hres
  cases call with
  | acceptCpuRequest req => exact acceptCpuRequest_failed hready (hrep h)
  | acceptFill resp => exact acceptFill_failed hready (hrep h)
  | acceptSnoop ev => exact acceptSnoop_failed (hrep h)
  | installShared data | installModified data => exact installStable_failed hready h

/-! ## Calls that are not ready -/

/-- A table that accepted an event has left an entry. -/
theorem tracing_ne {event : MsiEvent} {after : MsiState}
    (hmove : msi.transition c.core.state event = some after) :
    c.tracing (some event) ≠ c.trace := by
  simp only [tracing, hmove]
  intro h
  simpa using congrArg List.length h

/-- A processor request that cannot fail late can be served or sent. -/
theorem acceptCpuRequest_ready {req : MemoryRequest}
    (h : ∀ e, (c.acceptCpuRequest req).1 = .error e → (c.acceptCpuRequest req).2.trace = c.trace) :
    c.Ready (.acceptCpuRequest req) := by
  have hspec := acceptCpuRequest_spec msi c.core req
  intro event after hevent hmove
  by_cases hreaches : Reaches msi c.core req
  case neg =>
    rw [tableEvent_of_not_reaches hreaches] at hevent
    cases hevent
  cases (tableEvent_of_reaches hreaches).symm.trans hevent
  have hlate : ∀ e, (c.core.acceptCpuRequest msi req).1 ≠ .error e := fun e herror => by
    have htrace := h e herror
    simp only [acceptCpuRequest, hevent] at htrace
    exact tracing_ne hmove htrace
  generalize c.core.acceptCpuRequest msi req = outcome at hspec hlate
  cases hspec with
  | turnedAway e _ | refused e _ _ | unsent _ e _ _ _ _ | unserved _ e _ _ _ _ _ =>
    exact absurd rfl (hlate _)
  | noAccess _ hop => exact absurd hop hreaches.accesses
  | missed after' _ _ hmove' hwait _ hroom =>
    cases hmove'.symm.trans hmove
    rwa [if_pos hwait]
  | hit after' response d _ hmove' hhit hserve =>
    cases hmove'.symm.trans hmove
    rw [if_neg (by rw [hhit]; decide)]
    exact servable_of_completeCpuRequest (c := { c.core with state := after }) (by rw [hserve])

/-- A fill that cannot fail late brings what the waiting request needs. -/
theorem acceptFill_ready {resp : MemoryResponse}
    (h : ∀ e, (c.acceptFill resp).1 = .error e →
      (c.acceptFill resp).2.core.pending = c.core.pending) :
    c.Ready (.acceptFill resp) := by
  have hspec := acceptFill_spec msi c.core resp
  intro pending hpending hid
  unfold acceptFill at h
  simp only at h
  generalize c.core.acceptFill msi resp none = outcome at hspec h
  cases hspec with
  | idle hidle => cases hidle.symm.trans hpending
  | unexpected other hother hid' =>
    cases hother.symm.trans hpending
    exact absurd hid hid'
  | refused _ _ hother | unfit _ _ _ _ hother => cases (h _ rfl).trans hpending
  | unserved other _ after d d' e _ _ _ _ hins hserve =>
    have hkept := (completeCpuRequest_served d other.original).pending_eq
    rw [hserve] at hkept
    cases (hkept.trans (installData_ok hins).1).symm.trans ((h _ rfl).trans hpending)
  | filled other event after d d' _ hother _ hevent hmove hins hserve =>
    cases hother.symm.trans hpending
    obtain ⟨-, hlayout, hdata, hlen, hreserved⟩ := installData_ok hins
    have hservable := servable_of_completeCpuRequest (c := d) (by rw [hserve])
    rw [hlayout, hdata, hreserved] at hservable
    exact ⟨⟨event, after, hevent, hmove⟩, hlen, hservable⟩

theorem installStable_ready {state : MsiState} {data : List UInt8}
    (h : ∀ e, (c.installStable state data).1 = .error e →
      (c.installStable state data).2.core.state = c.core.state) :
    c.core.state = state ∨ data.length = c.core.layout.bytes := by
  refine or_iff_not_imp_right.mpr fun hlen => ?_
  unfold installStable CacheController.installStable installData at h
  simp only [if_pos hlen] at h
  exact (h _ rfl).symm

/-- A call that fails shows in no snapshot, and the fill that was awaited before the
    call does after it what it would have done, exactly if the call is ready. -/
theorem failed_call_changes_nothing (c : MsiCacheController) (call : MsiCall) :
    (∀ e, (c.perform call).1 = .error e →
      (c.perform call).2.snapshot = c.snapshot ∧
        ∀ response, (c.perform call).2.acceptFill response = c.acceptFill response) ↔
      c.Ready call := by
  constructor
  · intro h
    have hmap : ∀ {α : Type} {res : Except (CacheControllerError MsiState MsiEvent) α} {e},
        res = .error e → (res.map fun _ => ()) = .error e := by
      rintro α res e rfl
      rfl
    cases call with
    | acceptCpuRequest req =>
      exact acceptCpuRequest_ready fun e he => congrArg (·.trace) (h e (hmap he)).1
    | acceptFill resp =>
      exact acceptFill_ready fun e he => congrArg (·.pending) (h e (hmap he)).1
    | acceptSnoop => trivial
    | installShared data | installModified data =>
      exact installStable_ready fun e he => congrArg (·.state) (h e he).1
  · intro hready e h
    rw [perform_failed hready h]
    exact ⟨rfl, fun _ => rfl⟩

end MsiCacheController

/-! ## A fill that says to try again -/

/-- A line that waits for a read. -/
def quadWaiting : MsiCacheController :=
  ((MsiCacheController.new 1 quadLayout 0).acceptCpuRequest (readByte 0 0)).2

/-- The line that was asked for. -/
def quadFill (sequence : Nat) : MemoryResponse := ⟨⟨1, sequence⟩, .completed, some [1, 2, 3, 4]⟩

/-- A fill for another request is turned away and changes nothing, and the right
    one is then accepted. -/
theorem stray_fill_changes_nothing :
    (quadWaiting.perform (.acceptFill (quadFill 7))).1 = .error (.unexpectedFill ⟨1, 0⟩ ⟨1, 7⟩) ∧
    (quadWaiting.perform (.acceptFill (quadFill 7))).2.snapshot = quadWaiting.snapshot ∧
    ∃ result, ((quadWaiting.perform (.acceptFill (quadFill 7))).2.acceptFill (quadFill 0)).1
      = .ok result := by
  have hready : quadWaiting.Ready (.acceptFill (quadFill 7)) := by
    intro pending hpending hid
    rw [← Option.some.inj hpending] at hid
    cases hid
  rcases (MsiCacheController.failed_call_changes_nothing quadWaiting (.acceptFill (quadFill 7))).mpr
    hready _ rfl with ⟨hsnapshot, hfill⟩
  refine ⟨rfl, hsnapshot, ?_⟩
  rw [hfill]
  exact ⟨_, rfl⟩

/-- A fill that says to try again moves the line and takes the miss before it
    fails, and the fill that was asked for finds nothing to complete. -/
theorem retried_fill_drops_miss :
    ∃ downstream, ((MsiCacheController.new 1 quadLayout 0).acceptCpuRequest (readByte 0 0)).1
        = .ok ⟨.miss, .invalidToShared, some downstream, none⟩ ∧
      (quadWaiting.perform (.acceptFill (.retry downstream))).1 = .error (.lineDataUnavailable 0) ∧
      (quadWaiting.perform (.acceptFill (.retry downstream))).2.snapshot ≠ quadWaiting.snapshot ∧
      (∃ result, (quadWaiting.acceptFill (quadFill downstream.id.sequence)).1 = .ok result) ∧
      ((quadWaiting.perform (.acceptFill (.retry downstream))).2.acceptFill
        (quadFill downstream.id.sequence)).1 = .error .noPendingMiss := by
  refine ⟨_, rfl, rfl, fun h => ?_, ⟨_, rfl⟩, rfl⟩
  have hstate := congrArg MsiCacheControllerSnapshot.state h
  cases hstate

end Rem6.Cache
