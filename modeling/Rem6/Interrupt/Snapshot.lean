import Rem6.Interrupt.Controller

/-!
# Snapshots of the Interrupt Controller

A snapshot lists what the controller holds. It is validated before it is
restored: lines and claims are listed once, everything goes where a route says,
and no line is pending and claimed at the same time.

The last check is the one that calls can violate. A line that is claimed is not
pending, but nothing keeps its device from asserting it again before the claim
is completed, and such a controller cannot be restored from its own snapshot
(`reasserted_line_not_restored`). When no claimed line is asserted, the pending
lines and the claimed lines stay apart (`Apart`), every snapshot is accepted, and
restoring it into any controller gives back the one it was taken from.

## Main definitions

* `InterruptController.snapshot`, `validateSnapshot`, `restore`: The code.
* `Apart`: No line is both pending and claimed.
* `InterruptCall.SparesClaimed`: The call does not assert a claimed line.

## Theorems

* `Apart.perform`: Calls that spare the claimed lines keep them apart.
* `validateSnapshot_of_apart`: The snapshot is accepted.
* `restore_snapshot`: Restoring it gives the controller back.
* `run_restores`: Both, along every run of such calls.
-/

namespace Rem6.Interrupt

open Lib SortedMap

structure InterruptSnapshot where
  tick : Nat
  routes : List InterruptRoute
  priorities : List (Nat × Nat)
  pending : List PendingInterrupt
  claimed : List InterruptClaim
  history : List InterruptEvent
deriving DecidableEq, Repr

/-! ## Validation -/

def require {ε : Type} (condition : Prop) [Decidable condition] (error : ε) : Except ε Unit :=
  if condition then .ok () else .error error

variable {ε α κ : Type}

theorem require_of_pos {condition : Prop} [Decidable condition] (h : condition)
    {error : ε} : require condition error = .ok () :=
  if_pos h

/-- A set that a value is added to, unless it is there. -/
def insertNew [LinearOrder κ] (error : ε) (value : κ) (seen : List κ) :
    Except ε (List κ) :=
  if value ∈ seen then .error error else .ok (insert id value seen)

namespace InterruptSnapshot

variable (snapshot : InterruptSnapshot)

def snapshotRoute (line : Nat) : Except InterruptError InterruptRoute :=
  match snapshot.routes.find? fun route => route.line = line with
  | some route => .ok route
  | none => .error (.unknownLine line)

/-- A line goes where its route says. -/
def checkRouted (actual : InterruptRoute) : Except InterruptError Unit := do
  let route ← snapshot.snapshotRoute actual.line
  require (route = actual) (.routeMismatch actual.line route actual)

/-- The lines with a route, each listed once. -/
def routeLines : Except InterruptError (List Nat) :=
  snapshot.routes.foldlM
    (fun seen route => insertNew (.duplicateLine route.line) route.line seen) []

/-- The lines with a priority, each one with a route and listed once. -/
def priorityLines (routes : List Nat) : Except InterruptError (List Nat) :=
  snapshot.priorities.foldlM (fun seen entry => do
      require (entry.1 ∈ routes) (.unknownLine entry.1)
      insertNew (.duplicateSnapshotPriority entry.1) entry.1 seen) []

/-- The pending lines, each one routed and listed once. -/
def pendingLines : Except InterruptError (List Nat) :=
  snapshot.pending.foldlM (fun seen pending => do
      snapshot.checkRouted pending.route
      insertNew (.duplicateSnapshotPending pending.line) pending.line seen) []

/-- The targets with a claim, each claim routed, not pending and the only one of
    its target. -/
def claimKeys (pendingLines : List Nat) : Except InterruptError (List (Nat ×ₗ Nat)) :=
  snapshot.claimed.foldlM (fun seen claim => do
      snapshot.checkRouted claim.route
      require (claim.line ∉ pendingLines) (.duplicateSnapshotPending claim.line)
      insertNew (.duplicateSnapshotClaim claim.target claim.targetPartition) claim.key seen) []

end InterruptSnapshot

namespace InterruptController

def snapshot (controller : InterruptController) (tick : Nat) : InterruptSnapshot :=
  { tick
    routes := controller.routes
    priorities := controller.priorities
    pending := controller.sortedPending
    claimed := controller.sortedClaimed
    history := controller.history }

def validateSnapshot (snapshot : InterruptSnapshot) : Except InterruptError Unit := do
  let routes ← snapshot.routeLines
  let priorities ← snapshot.priorityLines routes
  routes.forM fun line => require (line ∈ priorities) (.missingSnapshotPriority line)
  let pendingLines ← snapshot.pendingLines
  let _ ← snapshot.claimKeys pendingLines
  snapshot.history.forM fun event => snapshot.checkRouted event.route

def restore (snapshot : InterruptSnapshot) : Fallible InterruptController InterruptError Unit :=
  fun controller =>
    match validateSnapshot snapshot with
    | .error error => (.error error, controller)
    | .ok () =>
      (.ok (),
        { routes := ofList InterruptRoute.line snapshot.routes
          priorities := ofList Prod.fst snapshot.priorities
          pending := ofList PendingInterrupt.line snapshot.pending
          claimed := ofList InterruptClaim.key snapshot.claimed
          history := snapshot.history })

/-! ## Pending and claimed lines -/

/-- No line is both pending and claimed. -/
def Apart (controller : InterruptController) : Prop :=
  ∀ pending ∈ controller.pending, ∀ claim ∈ controller.claimed, pending.line ≠ claim.line

instance (controller : InterruptController) : Decidable controller.Apart :=
  inferInstanceAs (Decidable (∀ _ ∈ _, ∀ _ ∈ _, _ ≠ _))

def LineClaimed (controller : InterruptController) (line : Nat) : Prop :=
  ∃ claim ∈ controller.claimed, claim.line = line

end InterruptController

/-- The call does not assert a line that is claimed. -/
def InterruptCall.SparesClaimed (controller : InterruptController) : InterruptCall → Prop
  | .assert line _ _ => ¬ controller.LineClaimed line
  | .applyDelivery delivery =>
    delivery.kind = .assert → ¬ controller.LineClaimed delivery.route.line
  | _ => True

namespace InterruptController

section Apart

variable {controller : InterruptController}

section

variable (h : Apart controller)
include h

theorem Apart.registerRoute (route : InterruptRoute) :
    Apart (registerRoute route controller).2 := by
  unfold InterruptController.registerRoute
  split <;> exact h

theorem Apart.setPriority (line prio : Nat) :
    Apart (setPriority line prio controller).2 := by
  unfold InterruptController.setPriority
  split <;> exact h

theorem Apart.assert {line} (hwf : WellFormed controller)
    (hclaimed : ¬ controller.LineClaimed line) (src tick : Nat) :
    Apart (assert line src tick controller).2 := by
  unfold InterruptController.assert
  split
  · exact h
  · split
    · exact h
    · intro pend hpend claim hclaim
      rcases (mem_insert hwf.pending).1 hpend with rfl | ⟨hpend, -⟩
      · exact fun heq => hclaimed ⟨claim, hclaim, heq.symm⟩
      · exact h pend hpend claim hclaim

theorem Apart.deassert (line src tick : Nat) :
    Apart (deassert line src tick controller).2 := by
  unfold InterruptController.deassert
  split
  · exact h
  · split
    · exact h
    · split
      · exact h
      · exact fun pend hpend => h pend (mem_erase.1 hpend).1

theorem Apart.claimFiltered (hwf : WellFormed controller)
    (tgt tgtPtn tick : Nat) (accept : PendingInterrupt → Nat → Bool) :
    Apart (claimFiltered tgt tgtPtn tick accept controller).2 := by
  rcases claimFiltered_eq tgt tgtPtn tick accept controller with
    hsame | ⟨entry, -, haft⟩
  · rwa [hsame]
  · rw [haft]
    intro pend hpend claim hclaim
    obtain ⟨hpend, hline⟩ := mem_erase.1 hpend
    rcases (mem_insert hwf.claimed).1 hclaim with rfl | ⟨hclaim, -⟩
    · exact hline
    · exact h pend hpend claim hclaim

theorem Apart.complete (tgt tgtPtn line tick : Nat) :
    Apart (complete tgt tgtPtn line tick controller).2 := by
  unfold InterruptController.complete
  split
  · exact h
  · split
    · exact h
    · exact fun pend hpend claim hclaim => h pend hpend claim (mem_erase.1 hclaim).1

/-- Calls that spare the claimed lines keep pending and claimed lines apart. -/
theorem Apart.perform {call} (hwf : WellFormed controller)
    (hspares : call.SparesClaimed controller) : Apart (controller.perform call) := by
  cases call with
  | registerLine => exact h.registerRoute _
  | registerRoute route => exact h.registerRoute route
  | setPriority line prio => exact h.setPriority line prio
  | assert line src tick => exact h.assert hwf hspares src tick
  | deassert line src tick => exact h.deassert line src tick
  | applyDelivery delivery =>
    show Apart (InterruptController.applyDelivery delivery controller).2
    unfold InterruptController.applyDelivery
    split
    · exact h
    · split
      next hkind => exact h.assert hwf (hspares hkind) _ _
      · exact h.deassert _ _ _
      · exact h
      · exact h
  | claim tgt tgtPtn tick => exact h.claimFiltered hwf tgt tgtPtn tick _
  | claimFiltered tgt tgtPtn tick accept => exact h.claimFiltered hwf tgt tgtPtn tick accept
  | complete tgt tgtPtn line tick => exact h.complete tgt tgtPtn line tick

end

end Apart

/-! ## Snapshots are accepted -/

section Accepted

variable {controller : InterruptController}

variable {key : α → κ} {step : List κ → α → Except ε (List κ)} {vals : List α}

/-- A loop that adds keys to a set, over values of different keys, collects
    them. -/
theorem foldlM_insertNew [LinearOrder κ] (error : α → ε)
   
    (hstep : ∀ value ∈ vals, ∀ seen, step seen value = insertNew (error value) (key value) seen)
    (hdis : vals.Pairwise fun a b => key a ≠ key b) :
    ∀ {seen : List κ}, Sorted id seen → (∀ value ∈ vals, key value ∉ seen) →
      ∃ after, vals.foldlM step seen = .ok after ∧
        ∀ k, k ∈ after ↔ k ∈ seen ∨ ∃ value ∈ vals, key value = k := by
  induction vals with
  | nil =>
    intro seen _ _
    refine ⟨seen, rfl, fun k => ?_⟩
    simp
  | cons head rest ih =>
    intro seen hsorted hnew
    obtain ⟨hhead, hrest⟩ := List.pairwise_cons.1 hdis
    have hmem : ∀ k, k ∈ insert id (key head) seen ↔ k = key head ∨ k ∈ seen := by
      intro k
      rw [mem_insert hsorted]
      refine or_congr_right (and_iff_left_of_imp fun hk heq => ?_)
      have hkey : k = key head := heq
      exact hnew head List.mem_cons_self (hkey ▸ hk)
    obtain ⟨after, haft, hkeys⟩ :=
      ih (fun value h => hstep value (List.mem_cons_of_mem _ h)) hrest
        (sorted_insert hsorted (key head)) fun value h hin => by
          rcases (hmem _).1 hin with heq | hin
          · exact hhead value h heq.symm
          · exact hnew value (List.mem_cons_of_mem _ h) hin
    refine ⟨after, ?_, fun k => ?_⟩
    · rwa [List.foldlM_cons, hstep head List.mem_cons_self, insertNew,
        if_neg (hnew head List.mem_cons_self)]
    · rw [hkeys, hmem]
      simp only [List.mem_cons, exists_eq_or_imp, eq_comm (a := k)]
      rw [or_assoc, or_left_comm]

theorem foldlM_insertNew_nil [LinearOrder κ] (error : α → ε)
   
    (hstep : ∀ value ∈ vals, ∀ seen, step seen value = insertNew (error value) (key value) seen)
    (hdis : vals.Pairwise fun a b => key a ≠ key b) :
    ∃ after, vals.foldlM step [] = .ok after ∧ ∀ k, k ∈ after ↔ ∃ value ∈ vals, key value = k := by
  obtain ⟨after, haft, hkeys⟩ := foldlM_insertNew error hstep hdis .nil fun _ _ => List.not_mem_nil
  refine ⟨after, haft, fun k => ?_⟩
  rw [hkeys]
  simp

theorem forM_eq_ok {check : α → Except ε Unit}
    (h : ∀ value ∈ vals, check value = .ok ()) : vals.forM check = .ok () := by
  induction vals with
  | nil => rfl
  | cons head rest ih =>
    have hhead := h head List.mem_cons_self
    rw [List.forM_eq_forM, List.forM_cons, hhead]
    exact ih fun value hv => h value (List.mem_cons_of_mem _ hv)

theorem WellFormed.checkRouted {route} (hwf : WellFormed controller) (tick : Nat)
    (h : route ∈ controller.routes) : (controller.snapshot tick).checkRouted route = .ok () := by
  have hfind : (controller.snapshot tick).snapshotRoute route.line = .ok route := by
    have hget := get_of_mem hwf.routes h
    unfold SortedMap.get at hget
    unfold InterruptSnapshot.snapshotRoute snapshot
    rw [hget]
  unfold InterruptSnapshot.checkRouted
  rw [hfind]
  exact require_of_pos rfl

theorem distinct_of_perm [LinearOrder κ] {sorted : List α}
    (hperm : vals.Perm sorted) (hsorted : Sorted key sorted) :
    vals.Pairwise fun a b => key a ≠ key b :=
  (hperm.pairwise_iff Ne.symm).2 (hsorted.imp ne_of_lt)

theorem WellFormed.exists_routeLines (hwf : WellFormed controller) (tick : Nat) :
    ∃ lines, (controller.snapshot tick).routeLines = .ok lines ∧
      ∀ line, line ∈ lines ↔ ∃ route ∈ controller.routes, route.line = line :=
  foldlM_insertNew_nil _ (fun _ _ _ => rfl) (hwf.routes.imp ne_of_lt)

theorem WellFormed.exists_priorityLines (hwf : WellFormed controller) (tick : Nat)
    {routes : List Nat}
    (hroutes : ∀ line, line ∈ routes ↔ ∃ route ∈ controller.routes, route.line = line) :
    ∃ lines, (controller.snapshot tick).priorityLines routes = .ok lines ∧
      ∀ line, line ∈ lines ↔ ∃ entry ∈ controller.priorities, entry.1 = line := by
  refine foldlM_insertNew_nil (fun entry => .duplicateSnapshotPriority entry.1)
    (fun entry h seen => ?_) (hwf.priorities.imp ne_of_lt)
  rw [require_of_pos ((hroutes _).2 ((hwf.prioritized _).1 ⟨entry, h, rfl⟩))]
  rfl

theorem WellFormed.exists_pendingLines (hwf : WellFormed controller) (tick : Nat) :
    ∃ lines, (controller.snapshot tick).pendingLines = .ok lines ∧
      ∀ line, line ∈ lines ↔ ∃ pend ∈ controller.sortedPending, pend.line = line := by
  refine foldlM_insertNew_nil (fun pend => .duplicateSnapshotPending pend.line)
    (fun pend h seen => ?_) (distinct_of_perm controller.perm_sortedPending hwf.pending)
  rw [hwf.checkRouted tick (hwf.pendingRouted pend (controller.perm_sortedPending.mem_iff.1 h))]
  rfl

theorem WellFormed.exists_claimKeys (hwf : WellFormed controller) (tick : Nat)
    {pendingLines : List Nat} (h : ∀ claim ∈ controller.claimed, claim.line ∉ pendingLines) :
    ∃ keys, (controller.snapshot tick).claimKeys pendingLines = .ok keys ∧
      ∀ key, key ∈ keys ↔ ∃ claim ∈ controller.sortedClaimed, claim.key = key := by
  refine foldlM_insertNew_nil
    (fun claim => .duplicateSnapshotClaim claim.target claim.targetPartition)
    (fun claim hclaim seen => ?_) (distinct_of_perm controller.perm_sortedClaimed hwf.claimed)
  have hmem := controller.perm_sortedClaimed.mem_iff.1 hclaim
  rw [hwf.checkRouted tick (hwf.claimedRouted claim hmem), require_of_pos (h claim hmem)]
  rfl

/-- The snapshot of a well-formed controller is accepted when no line is both
    pending and claimed. -/
theorem validateSnapshot_of_apart (hwf : WellFormed controller) (h : Apart controller)
    (tick : Nat) : validateSnapshot (controller.snapshot tick) = .ok () := by
  obtain ⟨routes, hroutes, hlin⟩ := hwf.exists_routeLines tick
  obtain ⟨priorities, hprio, hprioritized⟩ := hwf.exists_priorityLines tick hlin
  obtain ⟨pendingLines, hpend, hpendLines⟩ := hwf.exists_pendingLines tick
  have hapart : ∀ claim ∈ controller.claimed, claim.line ∉ pendingLines := by
    intro claim hclaim hin
    obtain ⟨pend, hmem, hline⟩ := (hpendLines claim.line).1 hin
    exact h pend (controller.perm_sortedPending.mem_iff.1 hmem) claim hclaim hline
  obtain ⟨keys, hkeys, -⟩ := hwf.exists_claimKeys tick hapart
  have hcovered : (routes.forM fun line =>
      require (line ∈ priorities) (InterruptError.missingSnapshotPriority line)) = .ok () :=
    forM_eq_ok fun line hline => require_of_pos
      ((hprioritized line).2 ((hwf.prioritized line).2 ((hlin line).1 hline)))
  have hhist : ((controller.snapshot tick).history.forM fun ev =>
      (controller.snapshot tick).checkRouted ev.route) = .ok () :=
    forM_eq_ok fun ev hev => hwf.checkRouted tick (hwf.historyRouted ev hev)
  unfold validateSnapshot
  simp only [hroutes, hprio, hcovered, hpend, hkeys, hhist, bind, Except.bind]

/-- Restoring the snapshot into any controller gives back the one it was taken
    from. -/
theorem restore_snapshot (hwf : WellFormed controller) (h : Apart controller) (tick : Nat)
    (other : InterruptController) :
    restore (controller.snapshot tick) other = (.ok (), controller) := by
  unfold restore
  rw [validateSnapshot_of_apart hwf h tick]
  simp [snapshot, ofList_perm (.refl _) hwf.routes, ofList_perm (.refl _) hwf.priorities,
    ofList_perm controller.perm_sortedPending hwf.pending,
    ofList_perm controller.perm_sortedClaimed hwf.claimed]

end Accepted

/-! ## Runs -/

/-- Along every run of calls that assert no claimed line, no line is pending and
    claimed at once, the snapshot is accepted, and restoring it into any
    controller gives back the routes, priorities, pending lines, claims and
    history. -/
theorem run_restores (calls : List InterruptCall)
    (h : Along perform (fun controller call => call.SparesClaimed controller) {} calls) :
    Apart (run perform {} calls) ∧
      ∀ tick, validateSnapshot ((run perform {} calls).snapshot tick) = .ok () ∧
        ∀ other, restore ((run perform {} calls).snapshot tick) other =
          (.ok (), run perform {} calls) := by
  have hinv : WellFormed (run perform {} calls) ∧ Apart (run perform {} calls) :=
    along_invariant perform _ (fun controller => WellFormed controller ∧ Apart controller)
      (fun _ call hinv hspares => ⟨hinv.1.perform call, hinv.2.perform hinv.1 hspares⟩) calls {}
      ⟨wellFormed_new, fun _ hmem => absurd hmem List.not_mem_nil⟩ h
  exact ⟨hinv.2, fun tick => ⟨validateSnapshot_of_apart hinv.1 hinv.2 tick,
    restore_snapshot hinv.1 hinv.2 tick⟩⟩

/-- A line that is asserted, claimed, completed and asserted again. -/
def servicedCalls : List InterruptCall :=
  [.registerLine 7 0, .setPriority 7 3, .assert 7 1 10, .claim 0 0 11, .complete 0 0 7 12,
    .assert 7 1 13]

theorem run_restores_serviced :
    Along perform (fun controller call => call.SparesClaimed controller) {} servicedCalls ∧
      Apart (run perform {} servicedCalls) ∧
      ∀ tick, validateSnapshot ((run perform {} servicedCalls).snapshot tick) = .ok () ∧
        ∀ other, restore ((run perform {} servicedCalls).snapshot tick) other =
          (.ok (), run perform {} servicedCalls) := by
  have hspares : Along perform (fun controller call => call.SparesClaimed controller) {}
      servicedCalls := by
    have hdone : ∀ line, ¬ LineClaimed (run perform {} (servicedCalls.take 5)) line := by
      rintro line ⟨claim, hmem, -⟩
      cases hmem
    have hnone : ∀ line, ¬ LineClaimed (run perform {} (servicedCalls.take 2)) line := by
      rintro line ⟨claim, hmem, -⟩
      cases hmem
    exact ⟨trivial, trivial, hnone 7, trivial, trivial, hdone 7, trivial⟩
  exact ⟨hspares, run_restores servicedCalls hspares⟩

/-- The same device raises its line before the claim is completed. -/
def reassertedCalls : List InterruptCall :=
  [.registerLine 7 0, .assert 7 1 10, .claim 0 0 11, .assert 7 1 12]

theorem reasserted_line_not_restored :
    ¬ Apart (run perform {} reassertedCalls) ∧
      validateSnapshot ((run perform {} reassertedCalls).snapshot 20) =
        .error (.duplicateSnapshotPending 7) ∧
      restore ((run perform {} reassertedCalls).snapshot 20) (run perform {} reassertedCalls) =
        (.error (.duplicateSnapshotPending 7), run perform {} reassertedCalls) := by
  decide

end InterruptController

end Rem6.Interrupt
