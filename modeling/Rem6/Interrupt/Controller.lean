import Mathlib.Data.List.MinMax
import Mathlib.Data.List.Sort
import Mathlib.Data.Prod.Lex
import Rem6.Lib.Fallible
import Rem6.Lib.Run
import Rem6.Lib.SortedMap

/-!
# The Interrupt Controller

Lines are routed to targets. A device asserts a line and so makes it pending; a
target claims the pending line of the highest priority, the lowest line among
equals, and completes it later. A target has at most one claim at a time, and
claiming again returns the same one.

The maps of the controller are sorted lists of their values. Whatever the calls
are, they stay sorted, every line with a route has a priority and no other line
has one, and every pending line, every claim and every event goes where the
route of its line says (`WellFormed`).

## Main definitions

* `InterruptController`: Routes, priorities, pending lines, claims and history.
* `InterruptCall`, `InterruptController.perform`: A call and the controller
  after it, whether it failed or not.
* `InterruptController.WellFormed`: What every call preserves.

## Theorems

* `WellFormed.perform`, `run_wellFormed`: Every controller that calls build from
  the empty one is well formed.
* `claimFiltered_eq`: What a claim takes.
-/

namespace Rem6.Interrupt

open Lib SortedMap

/-! ## Lines, routes and events -/

structure InterruptRoute where
  (line target targetPartition : Nat)
deriving DecidableEq, Repr

structure PendingInterrupt where
  (line target targetPartition source assertedTick : Nat)
deriving DecidableEq, Repr

structure InterruptClaim where
  (line target targetPartition source assertedTick claimedTick : Nat)
deriving DecidableEq, Repr

inductive InterruptEventKind where
  | assert | deassert | claim | complete
deriving DecidableEq, Repr

structure InterruptEvent where
  (tick line target targetPartition source : Nat)
  kind : InterruptEventKind
deriving DecidableEq, Repr

/-- A signal that arrives at the controller. -/
structure InterruptDelivery where
  tick : Nat
  route : InterruptRoute
  source : Nat
  kind : InterruptEventKind
deriving DecidableEq, Repr

inductive InterruptError where
  | duplicateLine (line : Nat)
  | duplicateSnapshotPriority (line : Nat)
  | duplicateSnapshotPending (line : Nat)
  | duplicateSnapshotClaim (target targetPartition : Nat)
  | missingSnapshotPriority (line : Nat)
  | unknownLine (line : Nat)
  | alreadyPending (line source : Nat)
  | notPending (line : Nat)
  | sourceMismatch (line expected actual : Nat)
  | routeMismatch (line : Nat) (expected actual : InterruptRoute)
  | noClaimedInterrupt (target targetPartition : Nat)
  | claimMismatch (target targetPartition expected actual : Nat)
  | nonSignalDelivery (kind : InterruptEventKind)
deriving DecidableEq, Repr

def PendingInterrupt.route (pending : PendingInterrupt) : InterruptRoute :=
  ⟨pending.line, pending.target, pending.targetPartition⟩

def InterruptClaim.route (claim : InterruptClaim) : InterruptRoute :=
  ⟨claim.line, claim.target, claim.targetPartition⟩

def InterruptEvent.route (event : InterruptEvent) : InterruptRoute :=
  ⟨event.line, event.target, event.targetPartition⟩

/-- Claims are kept by the target that made them. -/
def InterruptClaim.key (claim : InterruptClaim) : Nat ×ₗ Nat :=
  toLex (claim.target, claim.targetPartition)

def defaultPriority : Nat := 1

/-! ## The controller -/

structure InterruptController where
  routes : List InterruptRoute := []
  priorities : List (Nat × Nat) := []
  pending : List PendingInterrupt := []
  claimed : List InterruptClaim := []
  history : List InterruptEvent := []
deriving DecidableEq, Repr

namespace InterruptController

def routeFor (controller : InterruptController) (line : Nat) :
    Except InterruptError InterruptRoute :=
  match get InterruptRoute.line line controller.routes with
  | some route => .ok route
  | none => .error (.unknownLine line)

def priorityFor (controller : InterruptController) (line : Nat) : Nat :=
  ((get Prod.fst line controller.priorities).map Prod.snd).getD defaultPriority

def priority (controller : InterruptController) (line : Nat) : Except InterruptError Nat := do
  let _ ← controller.routeFor line
  return controller.priorityFor line

def registerRoute (route : InterruptRoute) : Fallible InterruptController InterruptError Unit :=
  fun controller =>
    match get InterruptRoute.line route.line controller.routes with
    | some _ => (.error (.duplicateLine route.line), controller)
    | none =>
      (.ok (), { controller with
        routes := insert InterruptRoute.line route controller.routes
        priorities := insert Prod.fst (route.line, defaultPriority) controller.priorities })

def registerLine (line target : Nat) : Fallible InterruptController InterruptError Unit :=
  registerRoute ⟨line, target, target⟩

def setPriority (line priority : Nat) : Fallible InterruptController InterruptError Unit :=
  fun controller =>
    match controller.routeFor line with
    | .error error => (.error error, controller)
    | .ok _ =>
      (.ok (), { controller with
        priorities := insert Prod.fst (line, priority) controller.priorities })

def assert (line source tick : Nat) : Fallible InterruptController InterruptError Unit :=
  fun controller =>
    match controller.routeFor line with
    | .error error => (.error error, controller)
    | .ok route =>
      match get PendingInterrupt.line line controller.pending with
      | some pending => (.error (.alreadyPending line pending.source), controller)
      | none =>
        (.ok (), { controller with
          pending := insert PendingInterrupt.line
            ⟨line, route.target, route.targetPartition, source, tick⟩ controller.pending
          history := controller.history ++
            [⟨tick, line, route.target, route.targetPartition, source, .assert⟩] })

def deassert (line source tick : Nat) : Fallible InterruptController InterruptError Unit :=
  fun controller =>
    match controller.routeFor line with
    | .error error => (.error error, controller)
    | .ok route =>
      match get PendingInterrupt.line line controller.pending with
      | none => (.error (.notPending line), controller)
      | some pending =>
        if pending.source ≠ source then
          (.error (.sourceMismatch line pending.source source), controller)
        else
          (.ok (), { controller with
            pending := erase PendingInterrupt.line line controller.pending
            history := controller.history ++
              [⟨tick, line, route.target, route.targetPartition, source, .deassert⟩] })

def checkDeliveryRoute (controller : InterruptController) (route : InterruptRoute) :
    Except InterruptError Unit := do
  let expected ← controller.routeFor route.line
  if expected ≠ route then .error (.routeMismatch route.line expected route) else .ok ()

def applyDelivery (delivery : InterruptDelivery) :
    Fallible InterruptController InterruptError Unit :=
  fun controller =>
    match controller.checkDeliveryRoute delivery.route with
    | .error error => (.error error, controller)
    | .ok () =>
      match delivery.kind with
      | .assert => assert delivery.route.line delivery.source delivery.tick controller
      | .deassert => deassert delivery.route.line delivery.source delivery.tick controller
      | .claim => (.error (.nonSignalDelivery .claim), controller)
      | .complete => (.error (.nonSignalDelivery .complete), controller)

/-- Higher priorities come first, and lower lines among equals. -/
def claimOrder (entry : PendingInterrupt × Nat) : Natᵒᵈ ×ₗ Nat :=
  toLex (OrderDual.toDual entry.2, entry.1.line)

/-- The pending lines that a target may claim, with their priorities. -/
def claimable (controller : InterruptController) (target targetPartition : Nat)
    (accept : PendingInterrupt → Nat → Bool) : List (PendingInterrupt × Nat) :=
  (controller.pending.filter fun pending =>
      pending.target = target ∧ pending.targetPartition = targetPartition).filterMap fun pending =>
    let priority := controller.priorityFor pending.line
    if priority > 0 && accept pending priority then some (pending, priority) else none

/-- Each pending line is offered to `accept` once. -/
def claimFiltered (target targetPartition tick : Nat) (accept : PendingInterrupt → Nat → Bool)
    (controller : InterruptController) : Option InterruptClaim × InterruptController :=
  match get InterruptClaim.key (toLex (target, targetPartition)) controller.claimed with
  | some claim => (some claim, controller)
  | none =>
    match (controller.claimable target targetPartition accept).argmin claimOrder with
    | none => (none, controller)
    | some (pending, _) =>
      let claim : InterruptClaim :=
        ⟨pending.line, target, targetPartition, pending.source, pending.assertedTick, tick⟩
      (some claim, { controller with
        pending := erase PendingInterrupt.line pending.line controller.pending
        claimed := insert InterruptClaim.key claim controller.claimed
        history := controller.history ++
          [⟨tick, pending.line, target, targetPartition, pending.source, .claim⟩] })

def claim (target targetPartition tick : Nat) (controller : InterruptController) :
    Option InterruptClaim × InterruptController :=
  claimFiltered target targetPartition tick (fun _ _ => true) controller

def complete (target targetPartition line tick : Nat) :
    Fallible InterruptController InterruptError Unit :=
  fun controller =>
    match get InterruptClaim.key (toLex (target, targetPartition)) controller.claimed with
    | none => (.error (.noClaimedInterrupt target targetPartition), controller)
    | some claimed =>
      if claimed.line ≠ line then
        (.error (.claimMismatch target targetPartition claimed.line line), controller)
      else
        (.ok (), { controller with
          claimed := erase InterruptClaim.key (toLex (target, targetPartition)) controller.claimed
          history := controller.history ++
            [⟨tick, claimed.line, target, targetPartition, claimed.source, .complete⟩] })

section

variable (controller : InterruptController)

/-- The pending lines by partition, target and line. -/
def sortedPending : List PendingInterrupt :=
  controller.pending.insertionSort fun a b =>
    (toLex (a.targetPartition, toLex (a.target, a.line)) : Nat ×ₗ Nat ×ₗ Nat) ≤
      toLex (b.targetPartition, toLex (b.target, b.line))

def sortedClaimed : List InterruptClaim :=
  controller.claimed.insertionSort fun a b =>
    (toLex (a.targetPartition, toLex (a.target, a.line)) : Nat ×ₗ Nat ×ₗ Nat) ≤
      toLex (b.targetPartition, toLex (b.target, b.line))

theorem perm_sortedPending :
    controller.sortedPending.Perm controller.pending :=
  List.perm_insertionSort _ _

theorem perm_sortedClaimed :
    controller.sortedClaimed.Perm controller.claimed :=
  List.perm_insertionSort _ _

end

end InterruptController

/-! ## Calls -/

inductive InterruptCall where
  | registerLine (line target : Nat)
  | registerRoute (route : InterruptRoute)
  | setPriority (line priority : Nat)
  | assert (line source tick : Nat)
  | deassert (line source tick : Nat)
  | applyDelivery (delivery : InterruptDelivery)
  | claim (target targetPartition tick : Nat)
  | claimFiltered (target targetPartition tick : Nat) (accept : PendingInterrupt → Nat → Bool)
  | complete (target targetPartition line tick : Nat)

namespace InterruptController

/-- The controller after a call, whether it failed or not. -/
def perform (controller : InterruptController) : InterruptCall → InterruptController
  | .registerLine line target => (registerLine line target controller).2
  | .registerRoute route => (registerRoute route controller).2
  | .setPriority line priority => (setPriority line priority controller).2
  | .assert line source tick => (assert line source tick controller).2
  | .deassert line source tick => (deassert line source tick controller).2
  | .applyDelivery delivery => (applyDelivery delivery controller).2
  | .claim target targetPartition tick => (claim target targetPartition tick controller).2
  | .claimFiltered target targetPartition tick accept =>
    (claimFiltered target targetPartition tick accept controller).2
  | .complete target targetPartition line tick =>
    (complete target targetPartition line tick controller).2

/-! ## Well-formed controllers -/

structure WellFormed (controller : InterruptController) : Prop where
  routes : Sorted InterruptRoute.line controller.routes
  priorities : Sorted Prod.fst controller.priorities
  pending : Sorted PendingInterrupt.line controller.pending
  claimed : Sorted InterruptClaim.key controller.claimed
  prioritized : ∀ line, (∃ entry ∈ controller.priorities, entry.1 = line) ↔
    ∃ route ∈ controller.routes, route.line = line
  pendingRouted : ∀ pending ∈ controller.pending, pending.route ∈ controller.routes
  claimedRouted : ∀ claim ∈ controller.claimed, claim.route ∈ controller.routes
  historyRouted : ∀ event ∈ controller.history, event.route ∈ controller.routes

section WellFormed

variable {controller : InterruptController}

theorem wellFormed_new : WellFormed {} where
  routes := .nil
  priorities := .nil
  pending := .nil
  claimed := .nil
  prioritized := fun line => by
    constructor <;> rintro ⟨_, hmem, -⟩ <;> cases hmem
  pendingRouted := by simp
  claimedRouted := by simp
  historyRouted := by simp

variable {line tgt tgtPtn : Nat}

theorem routeFor_eq_ok {route} (h : controller.routeFor line = .ok route) :
    route ∈ controller.routes ∧ route.line = line := by
  unfold routeFor at h
  split at h
  next found hfound =>
    cases h
    exact get_eq_some hfound
  next => cases h

theorem WellFormed.routeFor_of_mem {route} (hwf : WellFormed controller)
    (h : route ∈ controller.routes) :
    controller.routeFor route.line = .ok route := by
  unfold routeFor
  rw [get_of_mem hwf.routes h]

theorem route_eq {route} (h : route.line = line) :
    (⟨line, route.target, route.targetPartition⟩ : InterruptRoute) = route := by
  rw [← h]

theorem forall_mem_append_singleton {α : Type} {P : α → Prop} {vals : List α} {value : α}
    (h : ∀ a ∈ vals, P a) (hv : P value) : ∀ a ∈ vals ++ [value], P a := by
  intro a ha
  rcases List.mem_append.1 ha with ha | ha
  · exact h a ha
  · rwa [List.mem_singleton.1 ha]

theorem WellFormed.registerRoute (hwf : WellFormed controller) (route : InterruptRoute) :
    WellFormed (registerRoute route controller).2 := by
  unfold InterruptController.registerRoute
  split
  · exact hwf
  next hnew =>
    have hmem : ∀ other, other ∈ insert InterruptRoute.line route controller.routes ↔
        other = route ∨ other ∈ controller.routes := fun other => by
      rw [mem_insert hwf.routes]
      exact or_congr_right (and_iff_left_of_imp (get_eq_none_iff.1 hnew other))
    have hold : ∀ {other}, other ∈ controller.routes →
        other ∈ insert InterruptRoute.line route controller.routes := fun h =>
      (hmem _).2 (.inr h)
    refine ⟨sorted_insert hwf.routes _, sorted_insert hwf.priorities _,
      hwf.pending, hwf.claimed, fun line => ?_, fun pend h => hold (hwf.pendingRouted pend h),
      fun claim h => hold (hwf.claimedRouted claim h),
      fun ev h => hold (hwf.historyRouted ev h)⟩
    simp only [mem_insert hwf.priorities, hmem]
    constructor
    · rintro ⟨entry, rfl | ⟨hent, -⟩, rfl⟩
      · exact ⟨route, .inl rfl, rfl⟩
      · obtain ⟨other, hoth, hline⟩ := (hwf.prioritized entry.1).1 ⟨entry, hent, rfl⟩
        exact ⟨other, .inr hoth, hline⟩
    · rintro ⟨other, rfl | hoth, rfl⟩
      · exact ⟨_, .inl rfl, rfl⟩
      · obtain ⟨entry, hent, hline⟩ := (hwf.prioritized other.line).2 ⟨other, hoth, rfl⟩
        refine ⟨entry, .inr ⟨hent, ?_⟩, hline⟩
        rw [hline]
        exact get_eq_none_iff.1 hnew other hoth

theorem WellFormed.setPriority (hwf : WellFormed controller) (line prio : Nat) :
    WellFormed (setPriority line prio controller).2 := by
  unfold InterruptController.setPriority
  split
  · exact hwf
  next route hroute =>
    obtain ⟨hmem, hline⟩ := routeFor_eq_ok hroute
    refine ⟨hwf.routes, sorted_insert hwf.priorities _, hwf.pending, hwf.claimed,
      fun other => ?_, hwf.pendingRouted, hwf.claimedRouted, hwf.historyRouted⟩
    simp only [mem_insert hwf.priorities]
    rw [← hwf.prioritized]
    constructor
    · rintro ⟨entry, rfl | ⟨hent, -⟩, rfl⟩
      · exact (hwf.prioritized line).2 ⟨route, hmem, hline⟩
      · exact ⟨entry, hent, rfl⟩
    · rintro ⟨entry, hent, rfl⟩
      by_cases heq : entry.1 = line
      · exact ⟨(line, prio), .inl rfl, heq.symm⟩
      · exact ⟨entry, .inr ⟨hent, heq⟩, rfl⟩

theorem WellFormed.assert (hwf : WellFormed controller) (line src tick : Nat) :
    WellFormed (assert line src tick controller).2 := by
  unfold InterruptController.assert
  split
  · exact hwf
  next route hroute =>
    obtain ⟨hmem, hline⟩ := routeFor_eq_ok hroute
    split
    · exact hwf
    · refine ⟨hwf.routes, hwf.priorities, sorted_insert hwf.pending _, hwf.claimed,
        hwf.prioritized, fun pend h => ?_, hwf.claimedRouted,
        forall_mem_append_singleton hwf.historyRouted ?_⟩
      · rcases (mem_insert hwf.pending).1 h with rfl | ⟨h, -⟩
        · rwa [PendingInterrupt.route, route_eq hline]
        · exact hwf.pendingRouted pend h
      · rwa [InterruptEvent.route, route_eq hline]

theorem WellFormed.deassert (hwf : WellFormed controller) (line src tick : Nat) :
    WellFormed (deassert line src tick controller).2 := by
  unfold InterruptController.deassert
  split
  · exact hwf
  next route hroute =>
    obtain ⟨hmem, hline⟩ := routeFor_eq_ok hroute
    split
    · exact hwf
    · split
      · exact hwf
      · refine ⟨hwf.routes, hwf.priorities, sorted_filter hwf.pending _, hwf.claimed,
          hwf.prioritized, fun pend h => ?_, hwf.claimedRouted,
          forall_mem_append_singleton hwf.historyRouted ?_⟩
        · exact hwf.pendingRouted pend (mem_erase.1 h).1
        · rwa [InterruptEvent.route, route_eq hline]

theorem WellFormed.applyDelivery (hwf : WellFormed controller) (delivery : InterruptDelivery) :
    WellFormed (applyDelivery delivery controller).2 := by
  unfold InterruptController.applyDelivery
  split
  · exact hwf
  · split
    · exact hwf.assert _ _ _
    · exact hwf.deassert _ _ _
    · exact hwf
    · exact hwf

/-- What a target may claim is pending, is routed to it, has a priority above
    zero and was accepted. -/
theorem mem_claimable {entry} {accept : PendingInterrupt → Nat → Bool} :
    entry ∈ controller.claimable tgt tgtPtn accept ↔
      (entry.1 ∈ controller.pending ∧ entry.1.target = tgt ∧ entry.1.targetPartition = tgtPtn) ∧
      entry.2 = controller.priorityFor entry.1.line ∧ 0 < entry.2 ∧
        accept entry.1 entry.2 = true := by
  unfold claimable
  simp only [List.mem_filterMap, List.mem_filter, decide_eq_true_eq]
  constructor
  · rintro ⟨pend, hpend, hsome⟩
    split at hsome
    next hacc =>
      simp only [Bool.and_eq_true, decide_eq_true_eq] at hacc
      cases hsome
      exact ⟨hpend, rfl, hacc⟩
    next => cases hsome
  · rintro ⟨hpend, hprio, hpos, hacc⟩
    refine ⟨entry.1, hpend, ?_⟩
    rw [← hprio, if_pos (by simp [hpos, hacc])]

/-- A claim that changes the controller takes the first of the pending lines. -/
theorem claimFiltered_eq (tgt tgtPtn tick : Nat) (accept : PendingInterrupt → Nat → Bool)
    (controller : InterruptController) :
    (claimFiltered tgt tgtPtn tick accept controller).2 = controller ∨
      ∃ entry ∈ controller.claimable tgt tgtPtn accept,
        (claimFiltered tgt tgtPtn tick accept controller).2 =
          { controller with
            pending := erase PendingInterrupt.line entry.1.line controller.pending
            claimed := insert InterruptClaim.key
              ⟨entry.1.line, tgt, tgtPtn, entry.1.source, entry.1.assertedTick, tick⟩
              controller.claimed
            history := controller.history ++
              [⟨tick, entry.1.line, tgt, tgtPtn, entry.1.source, .claim⟩] } := by
  unfold claimFiltered
  split
  · exact .inl rfl
  · split
    · exact .inl rfl
    next pend prio hfirst => exact .inr ⟨(pend, prio), List.argmin_mem hfirst, rfl⟩

theorem WellFormed.claimFiltered (hwf : WellFormed controller) (tgt tgtPtn tick : Nat)
    (accept : PendingInterrupt → Nat → Bool) :
    WellFormed (claimFiltered tgt tgtPtn tick accept controller).2 := by
  rcases claimFiltered_eq tgt tgtPtn tick accept controller with
    hsame | ⟨entry, hent, haft⟩
  · rwa [hsame]
  · obtain ⟨⟨hpend, rfl, rfl⟩, -⟩ := mem_claimable.1 hent
    have hroute := hwf.pendingRouted entry.1 hpend
    rw [haft]
    refine ⟨hwf.routes, hwf.priorities, sorted_filter hwf.pending _,
      sorted_insert hwf.claimed _, hwf.prioritized, fun pend h => ?_,
      fun claim h => ?_, forall_mem_append_singleton hwf.historyRouted hroute⟩
    · exact hwf.pendingRouted pend (mem_erase.1 h).1
    · rcases (mem_insert hwf.claimed).1 h with rfl | ⟨h, -⟩
      · exact hroute
      · exact hwf.claimedRouted claim h

theorem WellFormed.complete (hwf : WellFormed controller) (tgt tgtPtn line tick : Nat) :
    WellFormed (complete tgt tgtPtn line tick controller).2 := by
  unfold InterruptController.complete
  split
  · exact hwf
  next claim hclaim =>
    split
    · exact hwf
    · obtain ⟨hmem, hkey⟩ := get_eq_some hclaim
      obtain ⟨rfl, rfl⟩ := Prod.mk.inj (toLex.injective hkey)
      refine ⟨hwf.routes, hwf.priorities, hwf.pending, sorted_filter hwf.claimed _,
        hwf.prioritized, hwf.pendingRouted, fun other h => ?_,
        forall_mem_append_singleton hwf.historyRouted (hwf.claimedRouted claim hmem)⟩
      exact hwf.claimedRouted other (mem_erase.1 h).1

/-- Every call preserves well-formedness. -/
theorem WellFormed.perform (hwf : WellFormed controller) (call : InterruptCall) :
    WellFormed (controller.perform call) := by
  cases call with
  | registerLine => exact hwf.registerRoute _
  | registerRoute route => exact hwf.registerRoute route
  | setPriority line prio => exact hwf.setPriority line prio
  | assert line src tick => exact hwf.assert line src tick
  | deassert line src tick => exact hwf.deassert line src tick
  | applyDelivery delivery => exact hwf.applyDelivery delivery
  | claim tgt tgtPtn tick => exact hwf.claimFiltered tgt tgtPtn tick _
  | claimFiltered tgt tgtPtn tick accept => exact hwf.claimFiltered tgt tgtPtn tick accept
  | complete tgt tgtPtn line tick => exact hwf.complete tgt tgtPtn line tick

/-- The controllers that calls build. -/
theorem run_wellFormed (calls : List InterruptCall) : WellFormed (run perform {} calls) := by
  suffices h : ∀ {controller}, WellFormed controller →
      WellFormed (run perform controller calls) from
    h wellFormed_new
  induction calls with
  | nil =>
    intro controller hwf
    exact hwf
  | cons call rest ih =>
    intro controller hwf
    exact ih (hwf.perform call)

end WellFormed

end InterruptController

end Rem6.Interrupt
