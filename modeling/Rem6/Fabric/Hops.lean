import Rem6.Fabric.Model
import Rem6.Lib.Trace

/-!
# Hops

What the calls that transmit do, hop by hop. `Hopped` says once what one hop
does to the fabric: it takes its router stage and its lane, and moves the ticks
at which they are free. Every call that goes well is a trace of such hops, in
whatever order its packets were granted, so what is to be proved of the calls is
proved of one hop.

## Main definitions

* `ReservedHop`, `HopStep`: One hop as a step of the fabric.
* `Hopped`: What it does.
* `performAll`: Calls one after the other.

## Theorems

* `HopStep.hopped`: A hop does what `Hopped` says.
* `performAll_ran`: Calls that go well are a trace of hops.
-/

namespace Rem6.Fabric

open Lib Lib.SortedMap Kernel Fallible FabricLaneState FabricModel

variable {packet : FabricPacket} {hop : FabricPathHop} {injection : Nat}
  {timing : FabricHopTiming} {model model' model'' : FabricModel}

variable {ready idx flits arrival rounds : Nat} {transfers : List FabricTransfer}

theorem reserveRouter_ok {router} (h : model.reserveRouter hop ready = .ok (some router)) :
    (hop.routerStage = some router.stage ∧ router.readyTick = ready) ∧
      router.startTick
        = max (max ready (model.inputNext router.stage)) (model.outputNext router.stage) ∧
      router.startTick ≤ router.departTick := by
  unfold reserveRouter at h
  cases hstage : hop.routerStage with
  | none => simp [hstage] at h
  | some stage =>
    simp only [hstage, Option.elim_some, reserveRouterStage, okOr] at h
    cases hdep : checkedAdd (max (max ready (model.inputNext stage)) (model.outputNext stage))
      stage.latency with
    | none =>
      rw [hdep] at h
      cases h
    | some depart =>
      rw [hdep] at h
      cases h
      exact ⟨⟨rfl, rfl⟩, rfl, (eq_add_of_checkedAdd hdep) ▸ Nat.le_add_right ..⟩

inductive FabricResource where
  | link (link : FabricLinkId)
  | routerInputVc (key : FabricRouterInputVcKey)
  | routerOutputPort (key : FabricRouterOutputPortKey)

def FabricModel.next (model : FabricModel) : FabricResource → Nat
  | .link link => model.linkNext link
  | .routerInputVc key => (model.routerInputVcs.find key).getD 0
  | .routerOutputPort key => (model.routerOutputPorts.find key).getD 0

def FabricHopTiming.lane (timing : FabricHopTiming) : FabricLaneKey :=
  toLex (timing.link, timing.virtualNetwork)

/-- A hop that was reserved for a packet. -/
structure ReservedHop where
  packet : FabricPacket
  hop : FabricPathHop
  timing : FabricHopTiming

def HopStep (model : FabricModel) (reserved : ReservedHop) (model' : FabricModel) : Prop :=
  ∃ index ingress,
    reserveHop reserved.packet index reserved.hop ingress model = (.ok reserved.timing, model')

variable {r : ReservedHop}

/-- What a hop does: it gets its router stage and its lane, and all is committed. -/
structure Hopped (model : FabricModel) (r : ReservedHop) (reservation : FabricLaneReservation)
    (model' : FabricModel) : Prop where
  link : r.timing.link = r.hop.link
  lane : r.timing.lane = laneOf r.packet r.hop
  start : r.timing.startTick = reservation.startTick
  depart : r.timing.departTick = reservation.departTick
  arrival : r.timing.arrivalTick = reservation.arrivalTick
  router : model.reserveRouter r.hop r.timing.ingressTick = .ok r.timing.router
  reserves : Reserves r.timing.laneReadyTick r.timing.serializationTicks r.hop.latency
    r.hop.creditDepth (model.linkNext r.hop.link) (model.lane r.timing.lane) reservation
    (model'.lane r.timing.lane)
  lanes : ∀ lane ≠ r.timing.lane, model'.lane lane = model.lane lane
  next : ∀ resource, model'.next resource = match resource with
    | .link link => if link = r.hop.link then reservation.departTick else model.linkNext link
    | .routerInputVc key => r.timing.router.elim (model.next resource) fun router =>
      if key = router.stage.inputKey then router.departTick else model.next resource
    | .routerOutputPort key => r.timing.router.elim (model.next resource) fun router =>
      if key = router.stage.outputKey then router.departTick else model.next resource
  waitLog : model'.waitLog
    = model.waitLog ++ waitRecords r.packet r.hop r.timing.laneReadyTick reservation

theorem lane_commitHop {resv own key} {lane : FabricLaneState} :
    (commitHop packet idx hop flits resv timing
      { model with lanes := model.lanes.put own lane }).lane key
        = if key = own then lane else model.lane key := by
  have hlanes : (commitHop packet idx hop flits resv timing
      { model with lanes := model.lanes.put own lane }).lanes = model.lanes.put own lane := by
    unfold commitHop
    cases timing.router <;> rfl
  rw [FabricModel.lane, hlanes, Dict.find_put]
  split <;> rfl

theorem HopStep.hopped (h : HopStep model r model') : ∃ resv, Hopped model r resv model' := by
  obtain ⟨packet, hop, timing⟩ := r
  obtain ⟨idx, ingress, h⟩ := h
  simp only [reserveHop] at h
  obtain ⟨_, _, ⟨⟩, h⟩ := bind_eq_ok h
  obtain ⟨router, hrouter, h⟩ := check_bind_eq_ok h
  obtain ⟨serialization, -, h⟩ := check_bind_eq_ok h
  obtain ⟨flits, -, h⟩ := check_bind_eq_ok h
  obtain ⟨resv, lane, hres, h⟩ := within_bind_eq_ok h
  obtain ⟨_, _, ⟨⟩, h⟩ := bind_eq_ok h
  cases h
  have hgetD : ∀ (c : Prop) [Decidable c] {β : Type} (value default : β) (found : Option β),
      (if c then some value else found).getD default = if c then value else found.getD default := by
    intro c _ β value default found
    split <;> rfl
  refine ⟨resv, rfl, rfl, rfl, rfl, rfl, hrouter, ?_, ?_, ?_, ?_⟩
  · rw [lane_commitHop, if_pos]
    · exact reserve_ok hop.creditDepth_pos hres
    · rfl
  · intro key hkey
    exact (lane_commitHop).trans (if_neg hkey)
  · rintro (link | key | key) <;> unfold commitHop <;> cases router <;>
      simp [next, linkNext, commitRouterReservation, Dict.find_put, hgetD]
  · unfold commitHop
    cases router <;> rfl

/-! ## Calls -/

/-- The hops of a transfer, with its packet. -/
def FabricTransfer.taken (transfer : FabricTransfer) : List (FabricPacket × FabricHopTiming) :=
  transfer.hops.map (transfer.packet, ·)

/-- The hop is on the path of a request. -/
def Asked (requests : List (FabricPacket × FabricPath)) (r : ReservedHop) : Prop :=
  ∃ request ∈ requests, request.1 = r.packet ∧ r.hop ∈ request.2

/-- A run that reserved hops of some requests. -/
def Ran (requests : List (FabricPacket × FabricPath)) (model : FabricModel)
    (taken : List (FabricPacket × FabricHopTiming)) (model' : FabricModel) : Prop :=
  ∃ reserved, Trace HopStep model reserved model' ∧
    reserved.map (fun r => (r.packet, r.timing)) = taken ∧ ∀ r ∈ reserved, Asked requests r

variable {requests : List (FabricPacket × FabricPath)}

theorem Ran.nil : Ran requests model [] model := ⟨[], .nil _, rfl, by simp⟩

theorem Ran.append {front back} (h : Ran requests model front model')
    (h' : Ran requests model' back model'') :
    Ran requests model (front ++ back) model'' := by
  obtain ⟨reserved, htr, rfl, hask⟩ := h
  obtain ⟨reserved', htr', rfl, hask'⟩ := h'
  refine ⟨reserved ++ reserved', htr.append htr', List.map_append, fun r hr => ?_⟩
  exact (List.mem_append.1 hr).elim (hask r) (hask' r)

theorem reserveHops_ran {path res} (hask : ∃ req ∈ requests, req.1 = packet ∧ path ⊆ req.2) :
    ∀ {idx arrival : Nat} {model : FabricModel},
      reserveHops packet idx path arrival model = (.ok res, model') →
        Ran requests model (res.2.map (packet, ·)) model' := by
  induction path generalizing res with
  | nil =>
    intro idx arrival model h
    cases h
    exact .nil
  | cons hop rest ih =>
    intro idx arrival model h
    obtain ⟨timing, middle, hhopped, h⟩ := bind_eq_ok h
    obtain ⟨⟨last, timings⟩, _, hrest, h⟩ := bind_eq_ok h
    cases h
    obtain ⟨req, hmem, hpkt, hpath⟩ := hask
    obtain ⟨hhead, htail⟩ := List.cons_subset.1 hpath
    have hfirst : Ran requests model [(packet, timing)] middle :=
      ⟨[⟨packet, hop, timing⟩], .cons ⟨idx, arrival, hhopped⟩ (.nil _), rfl,
        List.forall_mem_singleton.2 ⟨req, hmem, hpkt, hhead⟩⟩
    exact hfirst.append (ih ⟨req, hmem, hpkt, htail⟩ hrest)

theorem reserveTransfer_ran {req transfer} (hmem : req ∈ requests)
    (h : reserveTransfer injection req model = (.ok transfer, model')) :
    Ran requests model transfer.taken model' := by
  obtain ⟨⟨arrival, hops⟩, _, hrun, h⟩ := bind_eq_ok h
  cases h
  exact reserveHops_ran ⟨req, hmem, rfl, List.Subset.refl _⟩ hrun

theorem transmitEach_ran {q} (hsub : q ⊆ requests)
    (h : transmitEach injection q model = (.ok transfers, model')) :
    Ran requests model (transfers.flatMap (·.taken)) model' := by
  induction q generalizing transfers model with
  | nil =>
    cases h
    exact .nil
  | cons req rest ih =>
    obtain ⟨transfer, _, hrun, h⟩ := bind_eq_ok h
    obtain ⟨_, _, hrest, h⟩ := bind_eq_ok h
    cases h
    exact (reserveTransfer_ran (List.cons_subset.1 hsub).1 hrun).append
      (ih (List.cons_subset.1 hsub).2 hrest)

theorem transmitGranted_ran {q}
    {grant : (q : List (FabricPacket × FabricPath)) → Option (Fin q.length)}
    (hsub : q ⊆ requests)
    (h : transmitGranted injection grant rounds q model = (.ok transfers, model')) :
    Ran requests model (transfers.flatMap (·.taken)) model' := by
  induction rounds generalizing q transfers model with
  | zero =>
    cases h
    exact .nil
  | succ rounds ih =>
    cases hgrant : grant q with
    | none =>
      simp only [transmitGranted, hgrant] at h
      cases h
    | some granted =>
      simp only [transmitGranted, hgrant] at h
      obtain ⟨transfer, _, hrun, h⟩ := bind_eq_ok h
      obtain ⟨_, _, hrest, h⟩ := bind_eq_ok h
      cases h
      exact (reserveTransfer_ran (hsub (List.get_mem ..)) hrun).append
        (ih (fun _ hmem => hsub (List.mem_of_mem_eraseIdx hmem)) hrest)

theorem perform_ran {call} (hsub : call.requests ⊆ requests)
    (h : perform call model = (.ok transfers, model')) :
    Ran requests model (transfers.flatMap (·.taken)) model' := by
  cases call with
  | transmit => exact transmitEach_ran hsub h
  | transmitBatch =>
    obtain ⟨-, -, h⟩ := check_bind_eq_ok h
    exact transmitEach_ran (fun _ hmem => hsub ((List.mem_insertionSort _).1 hmem)) h
  | transmitQosBatch =>
    obtain ⟨-, -, h⟩ := check_bind_eq_ok h
    exact transmitGranted_ran hsub h

/-- Calls one after the other, up to the first that fails. -/
def performAll : List FabricCall → Fallible FabricModel FabricError (List FabricTransfer)
  | [] => pure []
  | call :: calls => do
    let transfers ← perform call
    let later ← performAll calls
    return transfers ++ later

/-- Calls that all go well are a trace of hops on the paths they asked for. -/
theorem performAll_ran {calls} (hsub : calls.flatMap (·.requests) ⊆ requests)
    (h : performAll calls model = (.ok transfers, model')) :
    Ran requests model (transfers.flatMap (·.taken)) model' := by
  induction calls generalizing transfers model with
  | nil =>
    cases h
    exact .nil
  | cons call calls ih =>
    rw [List.flatMap_cons, List.append_subset] at hsub
    obtain ⟨front, _, hrun, h⟩ := bind_eq_ok h
    obtain ⟨back, _, hrest, h⟩ := bind_eq_ok h
    cases h
    rw [List.flatMap_append]
    exact (perform_ran hsub.1 hrun).append (ih hsub.2 hrest)

end Rem6.Fabric
