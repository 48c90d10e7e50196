import Rem6.Fabric.Hops

/-!
# Nothing is Taken Twice

Reservations are made packet by packet, with injection ticks in any order, yet
no resource is ever taken twice at one tick. For a link, a router input channel
and a router output port the fabric keeps the tick at which the last packet
leaves, and nobody starts before it. For the credits of a lane it keeps the
ticks at which they come back; those before the start of the current packet are
forgotten, which is sound because packets on a lane start one after the other.

## Main definitions

* `FabricHopTiming.occupies`: The resources of a hop, with their ticks.
* `inFlight`: How many packets are on a lane.
* `Remembers`, `Credited`: What the fabric knows of the hops so far.

## Theorems

* `never_overcommitted`: In any calls that go well no resource is over-committed.
-/

namespace Rem6.Fabric

open Lib List

variable {timing : FabricHopTiming} {model model' : FabricModel} {past : List ReservedHop}
  {r : ReservedHop} {reservation : FabricLaneReservation}

/-- A resource with the ticks it is occupied from and until. -/
structure Occupancy where
  resource : FabricResource
  (startTick departTick : Nat)

def FabricHopTiming.occupies (timing : FabricHopTiming) : List Occupancy :=
  ⟨.link timing.link, timing.startTick, timing.departTick⟩ :: timing.router.elim [] fun router =>
      [⟨.routerInputVc router.stage.inputKey, router.startTick, router.departTick⟩,
        ⟨.routerOutputPort router.stage.outputKey, router.startTick, router.departTick⟩]

/-- The later hop starts on a shared resource once the earlier one has left it. -/
def After (earlier later : FabricHopTiming) : Prop :=
  ∀ x ∈ earlier.occupies, ∀ y ∈ later.occupies, x.resource = y.resource → x.departTick ≤ y.startTick

theorem mem_occupies {x} : x ∈ timing.occupies ↔
    x = ⟨.link timing.link, timing.startTick, timing.departTick⟩ ∨ ∃ router ∈ timing.router,
      x = ⟨.routerInputVc router.stage.inputKey, router.startTick, router.departTick⟩ ∨
      x = ⟨.routerOutputPort router.stage.outputKey, router.startTick, router.departTick⟩ := by
  rw [FabricHopTiming.occupies, mem_cons]
  cases timing.router <;> simp

/-- A hop takes its resources when they are free, and they are free again when it
    departs. No other resource is touched. -/
theorem Hopped.occupies (h : Hopped model r reservation model') :
    (∀ x ∈ r.timing.occupies, model.next x.resource ≤ x.startTick ∧
      x.startTick ≤ x.departTick ∧ model'.next x.resource = x.departTick) ∧
    ∀ resource, (∀ x ∈ r.timing.occupies, x.resource ≠ resource) →
      model'.next resource = model.next resource := by
  refine ⟨fun x hx => ?_, fun resource hfree => ?_⟩
  · rw [h.next]
    rcases mem_occupies.1 hx with rfl | ⟨router, hmem, hx⟩
    · have hstart := h.reserves.start_le
      have hdep := h.reserves.depart
      simp only [FabricModel.next, h.link, h.start, h.depart, if_true, and_true]
      omega
    · have hrouter := h.router
      rw [hmem] at hrouter ⊢
      obtain ⟨-, hstart, hle⟩ := reserveRouter_ok hrouter
      rcases hx with rfl | rfl
      · refine ⟨?_, hle, if_pos rfl⟩
        exact hstart ▸ le_trans (le_max_right ..) (le_max_left ..)
      · exact ⟨hstart ▸ le_max_right .., hle, if_pos rfl⟩
  · rw [h.next]
    have hrouter : ∀ router ∈ r.timing.router,
        .routerInputVc router.stage.inputKey ≠ resource ∧
          .routerOutputPort router.stage.outputKey ≠ resource := fun router hmem =>
      ⟨hfree _ (mem_occupies.2 (.inr ⟨router, hmem, .inl rfl⟩)),
        hfree _ (mem_occupies.2 (.inr ⟨router, hmem, .inr rfl⟩))⟩
    have hlink := hfree _ (mem_occupies.2 (.inl rfl))
    cases resource with
    | link link => exact if_neg fun heq => hlink (by rw [heq, h.link])
    | routerInputVc key =>
      cases htaken : r.timing.router with
      | none => rfl
      | some router => exact if_neg fun heq => (hrouter router htaken).1 (by rw [heq])
    | routerOutputPort key =>
      cases htaken : r.timing.router with
      | none => rfl
      | some router => exact if_neg fun heq => (hrouter router htaken).2 (by rw [heq])

/-- What the model remembers of the hops that were reserved. -/
structure Remembers (past : List ReservedHop) (model : FabricModel) : Prop where
  after : past.Pairwise fun a b => After a.timing b.timing
  next : ∀ r ∈ past, ∀ x ∈ r.timing.occupies, x.departTick ≤ model.next x.resource

theorem Remembers.step (h : Remembers past model) (hstep : Hopped model r reservation model') :
    Remembers (past ++ [r]) model' := by
  obtain ⟨htaken, hfree⟩ := hstep.occupies
  refine ⟨pairwise_append.2 ⟨h.after, pairwise_singleton .., ?_⟩, ?_⟩
  · intro a ha b hb x hx y hy heq
    obtain rfl := mem_singleton.1 hb
    have hpast := h.next a ha x hx
    rw [heq] at hpast
    exact hpast.trans (htaken y hy).1
  · intro a ha x hx
    rcases mem_append.1 ha with ha | ha
    · have hpast := h.next a ha x hx
      by_cases hshared : ∃ y ∈ r.timing.occupies, y.resource = x.resource
      · obtain ⟨y, hy, heq⟩ := hshared
        obtain ⟨hstart, hdep, hnext⟩ := htaken y hy
        rw [heq] at hstart hnext
        omega
      · rwa [hfree _ fun y hy heq => hshared ⟨y, hy, heq⟩]
    · obtain rfl := mem_singleton.1 ha
      exact (htaken x hx).2.2.ge

/-- The hops that have started on a lane and not arrived. -/
def inFlight (lane : FabricLaneKey) (tick : Nat) (timings : List FabricHopTiming) : Nat :=
  timings.countP fun timing =>
    timing.lane = lane ∧ timing.startTick ≤ tick ∧ tick < timing.arrivalTick

/-- What a lane with credits remembers of the hops on it. From the last start on,
    each that is in flight still has its credit out. -/
structure Credited (lane : FabricLaneKey) (depth : Nat) (past : List ReservedHop)
    (model : FabricModel) : Prop where
  starts : ∀ r ∈ past, r.timing.lane = lane → r.timing.startTick ≤ (model.lane lane).nextAvailable
  out : ∀ tick, (∀ r ∈ past, r.timing.lane = lane → r.timing.startTick ≤ tick) →
    inFlight lane tick (past.map (·.timing)) ≤ (model.lane lane).creditReturns.countP (tick < ·)
  room : ∀ tick, inFlight lane tick (past.map (·.timing)) ≤ depth

theorem inFlight_snoc {lane tick}
    : inFlight lane tick ((past ++ [r]).map (·.timing))
      = inFlight lane tick (past.map (·.timing)) + if r.timing.lane = lane ∧
          r.timing.startTick ≤ tick ∧ tick < r.timing.arrivalTick then 1 else 0 := by
  simp [inFlight, countP_append, countP_singleton]

/-- From its start on a hop is in flight as long as its credit is out. -/
theorem Credited.step {lane depth} (h : Credited lane depth past model)
    (hstep : Hopped model r reservation model')
    (hdepth : r.timing.lane = lane → r.hop.creditDepth = some depth) :
    Credited lane depth (past ++ [r]) model' := by
  by_cases hsame : r.timing.lane = lane
  · obtain ⟨hroom, hperm⟩ := hstep.reserves.credits depth (hdepth hsame)
    have hstart := hstep.reserves.start_le
    have hnext := hstep.reserves.next
    have hdep := hstep.reserves.depart
    rw [hsame] at hroom hperm hstart hnext
    rw [← hstep.start] at hroom hperm hstart hdep
    have hlast : ∀ a ∈ past, a.timing.lane = lane → a.timing.startTick ≤ r.timing.startTick := by
      intro a ha hon
      have hpast := h.starts a ha hon
      omega
    have hout : ∀ tick, r.timing.startTick ≤ tick →
        inFlight lane tick (past.map (·.timing))
          ≤ ((model.lane lane).retain r.timing.startTick).creditReturns.countP (tick < ·) := by
      intro tick htk
      refine (h.out tick fun a ha hon => (hlast a ha hon).trans htk).trans_eq ?_
      rw [FabricLaneState.retain, countP_filter]
      refine countP_congr fun credit _ => ?_
      simp only [decide_eq_true_eq, Bool.and_eq_true]
      omega
    refine ⟨?_, ?_, ?_⟩
    · intro a ha hon
      have hfrom : a.timing.startTick ≤ r.timing.startTick :=
        (mem_append.1 ha).elim (hlast a · hon) fun ha => (mem_singleton.1 ha) ▸ le_rfl
      omega
    · intro tick htk
      have hpast := hout tick (htk r (by simp) hsame)
      rw [inFlight_snoc, hperm.countP_eq, countP_append, countP_singleton, ← hstep.arrival]
      refine Nat.add_le_add hpast ?_
      split
      · next hon => rw [if_pos (by simpa using hon.2.2)]
      · exact Nat.zero_le _
    · intro tick
      rw [inFlight_snoc]
      split
      · next hon =>
          have hpast := hout tick hon.2.1
          have hle := countP_le_length (p := (tick < ·))
            (l := ((model.lane lane).retain r.timing.startTick).creditReturns)
          omega
      · exact h.room tick
  · have hcnt : ∀ tick, inFlight lane tick ((past ++ [r]).map (·.timing))
        = inFlight lane tick (past.map (·.timing)) := by
      intro tick
      rw [inFlight_snoc, if_neg fun hon => hsame hon.1]
      rfl
    have hon : ∀ {a}, a ∈ past ++ [r] → a.timing.lane = lane → a ∈ past := by
      intro a ha hon
      refine (mem_append.1 ha).elim id fun ha => ?_
      exact absurd (mem_singleton.1 ha ▸ hon) hsame
    have hlane := hstep.lanes lane (Ne.symm hsame)
    refine ⟨fun a ha hlane' => ?_, fun tick htk => ?_, fun tick => hcnt tick ▸ h.room tick⟩
    · rw [hlane]
      exact h.starts a (hon ha hlane') hlane'
    · rw [hcnt, hlane]
      exact h.out tick fun a ha => htk a (mem_append_left _ ha)

/-- In any calls that go well, a link, a router input channel or a router output
    port is free again before the next hop takes it, and a lane whose hops all
    have the same credits is never used beyond them. -/
theorem never_overcommitted (calls : List FabricCall) (model model' : FabricModel)
    (transfers : List FabricTransfer) (h : performAll calls model = (.ok transfers, model')) :
    (transfers.flatMap (·.hops)).Pairwise After ∧
      ∀ lane depth, (∀ call ∈ calls, ∀ request ∈ call.requests, ∀ hop ∈ request.2,
          laneOf request.1 hop = lane → hop.creditDepth = some depth) →
        ∀ tick, inFlight lane tick (transfers.flatMap (·.hops)) ≤ depth := by
  obtain ⟨reserved, htrace, htaken, hasked⟩ := performAll_ran (Subset.refl _) h
  have htimings : transfers.flatMap (·.hops) = reserved.map (·.timing) := by
    have hsound := congrArg (map Prod.snd) htaken
    simpa [map_flatMap, FabricTransfer.taken, Function.comp_def] using hsound.symm
  rw [htimings]
  refine ⟨?_, fun lane depth hdepth => ?_⟩
  · have hremembers : Remembers reserved model' :=
      htrace.invariant Remembers (fun past s r s' hpast hstep => by
        obtain ⟨reservation, hhopped⟩ := hstep.hopped
        exact hpast.step hhopped) [] ⟨.nil, by simp⟩
    exact pairwise_map.2 hremembers.after
  · have hcredited : Credited lane depth reserved model' :=
      htrace.invariant (fun past s => (∀ r ∈ past, Asked _ r) → Credited lane depth past s)
        (fun past s r s' hpast hstep hasked => by
          obtain ⟨reservation, hhopped⟩ := hstep.hopped
          rw [forall_mem_append] at hasked
          refine (hpast hasked.1).step hhopped fun hlane => ?_
          obtain ⟨request, hmem, hpacket, hhop⟩ := hasked.2 r (mem_singleton_self _)
          obtain ⟨call, hcall, hrequest⟩ := mem_flatMap.1 hmem
          exact hdepth call hcall request hrequest r.hop hhop
            (by rw [hpacket, ← hhopped.lane, hlane]))
        [] (fun _ => ⟨by simp, by simp [inFlight], by simp [inFlight]⟩) hasked
    exact hcredited.room

/-- Two packets that share a router output port and the one credit of a lane. -/
def sharedPort : List FabricCall :=
  [.transmit 5 ⟨0, 4, 0⟩ [⟨"l", 3, 1, none, some 1, none, some ⟨"r", 0, 0, 0, 2⟩, by simp⟩],
    .transmit 0 ⟨1, 4, 0⟩ [⟨"l", 3, 1, none, some 1, none, some ⟨"r", 1, 0, 0, 2⟩, by simp⟩]]

theorem sharedPort_never_overcommitted :
    ∃ transfers model', performAll sharedPort .new = (.ok transfers, model') ∧
      (transfers.flatMap (·.hops)).length = 2 ∧
      ∀ tick, inFlight (toLex ("l", 0)) tick (transfers.flatMap (·.hops)) ≤ 1 := by
  have hrun : performAll sharedPort .new = (.ok _, _) := rfl
  refine ⟨_, _, hrun, rfl, ?_⟩
  refine (never_overcommitted _ _ _ _ hrun).2 (toLex ("l", 0)) 1 ?_
  simp [sharedPort, FabricCall.requests]

end Rem6.Fabric
