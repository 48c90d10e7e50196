import Mathlib.Data.List.MinMax
import Mathlib.Data.List.Nodup
import Mathlib.Data.Prod.Lex
import Rem6.Lib.Run

/-!
# Arbitration Between Requestors

A queue arbiter picks one request of a queue. Only requests of the highest
priority in the queue are eligible, which is the numerically smallest. Under the
least-recently-granted policy the arbiter keeps a list of the requestors it has
seen. It serves the first of them that is eligible and moves it to the back.

Nothing is shared by the queues of two calls, so the progress of a requestor is
read off the arbiter's list alone. A call that passes over an eligible requestor
grants one that stood before it, which then stands behind it, and new requestors
are put behind it as well. The number of places from the requestor to the end of
the list grows with every such call. It cannot exceed the length of the list.

The list names nobody twice: the fields are private, and a snapshot is only ever
taken of an arbiter. Identifiers and priorities are taken as naturals. The size and
the id of a request, which no policy reads, are left out.

## Main definitions

* `QosQueueArbiter`: The arbiter, with the requestors it knows.
* `grant`: The index it picks, and its state afterwards.
* `places`: The places from a requestor to the end of the list.

## Theorems

* `grant_highest`: Every policy picks a request of the highest priority.
* `places_lt`: A requestor that is passed over gains a place.
* `lrg_never_starves`: Nobody is passed over as often as there are requestors.
-/

namespace Rem6.Fabric

open Lib List

inductive QosQueuePolicyKind where
  | fifo | lifo | leastRecentlyGranted
deriving DecidableEq, Repr

structure QosQueuedRequest where
  (requestor priority order : Nat)
deriving DecidableEq, Repr

structure QosGrant where
  queueIndex : Nat
deriving DecidableEq, Repr

structure QosQueueArbiter where
  policy : QosQueuePolicyKind
  lrgRequestors : List Nat
  nodup : lrgRequestors.Nodup
deriving DecidableEq, Repr

def fifoGrant (queue : List QosQueuedRequest) (priority : Nat) : Option QosGrant :=
  ((queue.zipIdx.filter (·.1.priority = priority)).argmin fun (request, index) =>
    toLex (request.order, index)).map fun (_, index) => ⟨index⟩

def lifoGrant (queue : List QosQueuedRequest) (priority : Nat) : Option QosGrant :=
  ((queue.zipIdx.filter (·.1.priority = priority)).argmax fun (request, index) =>
    toLex (request.order, index)).map fun (_, index) => ⟨index⟩

/-- The entry of a requestor in the map of first eligible requests. -/
def firstEligibleByRequestor (queue : List QosQueuedRequest) (priority requestor : Nat) :
    Option Nat :=
  queue.findIdx? fun request => request.priority = priority ∧ request.requestor = requestor

namespace QosQueueArbiter

def new (policy : QosQueuePolicyKind) : QosQueueArbiter := ⟨policy, [], nodup_nil⟩

section

variable (arbiter : QosQueueArbiter)

def register (request : QosQueuedRequest) : QosQueueArbiter :=
  if h : request.requestor ∈ arbiter.lrgRequestors then arbiter
  else
    { arbiter with
      lrgRequestors := arbiter.lrgRequestors.concat request.requestor
      nodup := arbiter.nodup.concat h }

section

variable (queue : List QosQueuedRequest)

def registerLrgRequestors :
    QosQueueArbiter :=
  queue.foldl register arbiter

def rotateLrgAfterGrant (requestor : Nat) : QosQueueArbiter :=
  if requestor ∈ arbiter.lrgRequestors then
    { arbiter with
      lrgRequestors := (arbiter.lrgRequestors.erase requestor).concat requestor
      nodup := (arbiter.nodup.erase _).concat arbiter.nodup.not_mem_erase }
  else arbiter

def lrgGrant (highestPriority : Nat) :
    Option QosGrant × QosQueueArbiter :=
  let registered := arbiter.registerLrgRequestors queue
  let first := firstEligibleByRequestor queue highestPriority
  match registered.lrgRequestors.find? fun requestor => (first requestor).isSome with
  | none => (none, registered)
  | some requestor => ((first requestor).map .mk, registered.rotateLrgAfterGrant requestor)

def grant :
    Option QosGrant × QosQueueArbiter :=
  match (queue.map (·.priority)).min? with
  | none => (none, arbiter)
  | some highestPriority =>
    match arbiter.policy with
    | .fifo => (fifoGrant queue highestPriority, arbiter)
    | .lifo => (lifoGrant queue highestPriority, arbiter)
    | .leastRecentlyGranted => arbiter.lrgGrant queue highestPriority

/-! ### What is granted -/

/-- A request of a queue that no other request of it goes before. -/
def Highest (request : QosQueuedRequest) : Prop :=
  request ∈ queue ∧ ∀ other ∈ queue, request.priority ≤ other.priority

/-- The request that a call grants. -/
def granted :
    Option QosQueuedRequest :=
  (arbiter.grant queue).1.bind fun grant => queue[grant.queueIndex]?

def next : QosQueueArbiter :=
  (arbiter.grant queue).2

end

end

variable {arbiter : QosQueueArbiter} {queue : List QosQueuedRequest}

theorem min?_of_highest {req} (h : Highest queue req) :
    (queue.map (·.priority)).min? = some req.priority :=
  min?_eq_some_iff.mpr ⟨mem_map_of_mem h.1, forall_mem_map.mpr h.2⟩

variable {highest prio requestor idx served : Nat} {front back : List Nat}

theorem highest_of_min? {request} (hmin : (queue.map (·.priority)).min? = some highest)
    {index : Nat} (hget : queue[index]? = some request) (hprio : request.priority = highest) :
    Highest queue request :=
  ⟨mem_of_getElem? hget, fun _ hoth =>
    hprio ▸ (min?_eq_some_iff.mp hmin).2 _ (mem_map_of_mem hoth)⟩

theorem firstEligible_some (h : firstEligibleByRequestor queue prio requestor = some idx) :
    ∃ req, queue[idx]? = some req ∧ req.priority = prio ∧ req.requestor = requestor := by
  obtain ⟨hlt, hel, -⟩ := findIdx?_eq_some_iff_getElem.mp h
  exact ⟨_, getElem?_eq_getElem hlt, of_decide_eq_true hel⟩

theorem firstEligible_isSome {req} (h : req ∈ queue) :
    (firstEligibleByRequestor queue req.priority req.requestor).isSome := by
  rw [firstEligibleByRequestor, findIdx?_isSome, any_eq_true]
  exact ⟨req, h, decide_eq_true ⟨rfl, rfl⟩⟩

/-- Whatever the policy, an index is returned of a request of the highest priority. -/
theorem grant_highest {picked : QosGrant} (h : (arbiter.grant queue).1 = some picked) :
    ∃ request, queue[picked.queueIndex]? = some request ∧ Highest queue request := by
  unfold QosQueueArbiter.grant at h
  split at h
  · cases h
  next highest hmin =>
    suffices ∃ request, queue[picked.queueIndex]? = some request ∧ request.priority = highest by
      obtain ⟨request, hget, hprio⟩ := this
      exact ⟨request, hget, highest_of_min? hmin hget hprio⟩
    have hpick : ∀ pair ∈ queue.zipIdx.filter (·.1.priority = highest),
        queue[pair.2]? = some pair.1 ∧ pair.1.priority = highest := fun pair hpair =>
      ⟨mem_zipIdx_iff_getElem?.mp (mem_of_mem_filter hpair),
        of_decide_eq_true (mem_filter.mp hpair).2⟩
    split at h
    · obtain ⟨pair, hpair, rfl⟩ := Option.map_eq_some_iff.mp h
      exact ⟨_, hpick pair (argmin_mem hpair)⟩
    · obtain ⟨pair, hpair, rfl⟩ := Option.map_eq_some_iff.mp h
      exact ⟨_, hpick pair (argmax_mem hpair)⟩
    · simp only [lrgGrant] at h
      split at h
      · cases h
      · obtain ⟨index, hidx, rfl⟩ := Option.map_eq_some_iff.mp h
        obtain ⟨request, hget, hprio, -⟩ := firstEligible_some hidx
        exact ⟨request, hget, hprio⟩

/-! ### Who is passed over -/

/-- The places from a requestor to the end of a list, its own among them, and
    none if the list does not name it. -/
def places (requestor : Nat) (known : List Nat) : Nat := known.length - known.idxOf requestor

theorem places_append (requestor : Nat) (known later : List Nat) :
    places requestor known ≤ places requestor (known ++ later) := by
  unfold places
  rw [idxOf_append, length_append]
  split
  · omega
  next h => simp [idxOf_eq_length h]

/-- Who is moved from before a requestor to the back gives it a place. -/
theorem places_moved (hfresh : requestor ∉ front) (hback : requestor ∈ back)
    (hne : served ≠ requestor) :
    places requestor (front ++ served :: back) <
      places requestor (front ++ (back ++ [served])) := by
  have hlt := idxOf_lt_length_of_mem hback
  simp only [places, idxOf_append, hfresh, hback, if_false, if_true, idxOf_cons_ne _ hne,
    length_append, length_cons, length_nil]
  omega

theorem register_spec (arbiter : QosQueueArbiter) (request : QosQueuedRequest) :
    (arbiter.register request).policy = arbiter.policy ∧
      arbiter.lrgRequestors <+: (arbiter.register request).lrgRequestors ∧
      request.requestor ∈ (arbiter.register request).lrgRequestors := by
  unfold register
  split
  next h => exact ⟨rfl, prefix_rfl, h⟩
  · exact ⟨rfl, prefix_concat _ _, by simp⟩

/-- Registering the requestors of a queue appends those that are new. -/
theorem registerLrgRequestors_spec (arbiter : QosQueueArbiter) (queue : List QosQueuedRequest) :
    (arbiter.registerLrgRequestors queue).policy = arbiter.policy ∧
      arbiter.lrgRequestors <+: (arbiter.registerLrgRequestors queue).lrgRequestors ∧
      ∀ req ∈ queue, req.requestor ∈ (arbiter.registerLrgRequestors queue).lrgRequestors := by
  induction queue generalizing arbiter with
  | nil => exact ⟨rfl, prefix_rfl, fun _ h => absurd h not_mem_nil⟩
  | cons req queue ih =>
    obtain ⟨hp, hpre, hmem⟩ := register_spec arbiter req
    obtain ⟨hp', hpre', hmem'⟩ := ih (arbiter.register req)
    exact ⟨hp'.trans hp, hpre.trans hpre', forall_mem_cons.mpr ⟨hpre'.subset hmem, hmem'⟩⟩

theorem rotateLrgAfterGrant_eq (hkn : arbiter.lrgRequestors = front ++ requestor :: back)
    (hfresh : requestor ∉ front) :
    (arbiter.rotateLrgAfterGrant requestor).lrgRequestors = front ++ (back ++ [requestor]) := by
  have hmem : requestor ∈ arbiter.lrgRequestors := hkn ▸ mem_append_right _ mem_cons_self
  rw [rotateLrgAfterGrant, if_pos hmem]
  show (arbiter.lrgRequestors.erase requestor).concat requestor = _
  rw [concat_eq_append, hkn, erase_append_right _ hfresh, erase_cons_head, append_assoc]

/-- A call serves the first requestor of the list that is eligible. -/
theorem served_spec {req} (hp : arbiter.policy = .leastRecentlyGranted) (hask : Highest queue req) :
    ∃ served front back, arbiter.granted queue = some served ∧
      (arbiter.registerLrgRequestors queue).lrgRequestors = front ++ served.requestor :: back ∧
      (arbiter.next queue).lrgRequestors = front ++ (back ++ [served.requestor]) ∧
      req.requestor ∉ front := by
  have hmem := (registerLrgRequestors_spec arbiter queue).2.2 req hask.1
  cases hfind : (arbiter.registerLrgRequestors queue).lrgRequestors.find? fun requestor =>
      (firstEligibleByRequestor queue req.priority requestor).isSome with
  | none => exact absurd (firstEligible_isSome hask.1) (find?_eq_none.mp hfind _ hmem)
  | some requestor =>
    obtain ⟨hel, front, back, hsplit, hfresh⟩ := find?_eq_some_iff_append.mp hfind
    obtain ⟨idx, hidx⟩ := Option.isSome_iff_exists.mp hel
    obtain ⟨served, hget, -, rfl⟩ := firstEligible_some hidx
    have hout : ∀ other, (firstEligibleByRequestor queue req.priority other).isSome →
        other ∉ front := fun other hel hoth => by simpa [hel] using hfresh other hoth
    refine ⟨served, front, back, ?_, hsplit, ?_, hout _ (firstEligible_isSome hask.1)⟩
    · simp [granted, grant, min?_of_highest hask, hp, lrgGrant, hfind, hidx, hget]
    · simp only [next, grant, min?_of_highest hask, hp, lrgGrant, hfind]
      exact rotateLrgAfterGrant_eq hsplit (hout _ hel)

theorem next_policy : (arbiter.next queue).policy = arbiter.policy := by
  have hreg := (registerLrgRequestors_spec arbiter queue).1
  unfold next grant
  split
  · rfl
  · split
    · rfl
    · rfl
    · simp only [lrgGrant]
      split
      · exact hreg
      · unfold rotateLrgAfterGrant
        split <;> exact hreg

/-- A requestor that is eligible and not granted gains a place. -/
theorem places_lt {req} (hp : arbiter.policy = .leastRecentlyGranted) (hask : Highest queue req)
    (hmiss : ∀ served ∈ arbiter.granted queue, served.requestor ≠ req.requestor) :
    max 1 (places req.requestor arbiter.lrgRequestors) <
      places req.requestor (arbiter.next queue).lrgRequestors := by
  obtain ⟨-, ⟨later, hlater⟩, hmem⟩ := registerLrgRequestors_spec arbiter queue
  obtain ⟨served, front, back, hserved, hsplit, hnext, hfresh⟩ := served_spec hp hask
  have hne := hmiss served hserved
  replace hmem := hmem req hask.1
  have hback : req.requestor ∈ back := by
    rw [hsplit] at hmem
    simpa [hfresh, hne.symm] using hmem
  have hpos : 0 < places req.requestor (front ++ served.requestor :: back) :=
    hsplit ▸ Nat.sub_pos_of_lt (idxOf_lt_length_of_mem hmem)
  have hgrow := places_append req.requestor arbiter.lrgRequestors later
  rw [hlater, hsplit] at hgrow
  rw [hnext]
  have hmov := places_moved hfresh hback hne
  omega

/-- Every queue of a run has a request of the requestor that is of the highest
    priority in it. -/
def AsksAlong (requestor : Nat) (queues : List (List QosQueuedRequest)) : Prop :=
  ∀ queue ∈ queues, ∃ request, Highest queue request ∧ request.requestor = requestor

theorem places_run {qs} (hp : arbiter.policy = .leastRecentlyGranted)
    (hask : AsksAlong requestor qs)
    (hmiss : ∀ served ∈ observe next granted arbiter qs, served.requestor ≠ requestor) :
    max 1 (places requestor arbiter.lrgRequestors) + qs.length ≤
      max 1 (places requestor (run next arbiter qs).lrgRequestors) := by
  induction qs generalizing arbiter with
  | nil => exact Nat.le_refl _
  | cons queue qs ih =>
    obtain ⟨hhere, hlater⟩ := forall_mem_append.mp hmiss
    obtain ⟨⟨req, hhi, rfl⟩, hrest⟩ := forall_mem_cons.mp hask
    have hstep := places_lt hp hhi fun served hserved =>
      hhere served (Option.mem_toList.mpr hserved)
    have hrun := ih (next_policy.trans hp) hrest hlater
    rw [run_cons, length_cons]
    omega

/-- Under the least-recently-granted policy every grant is a request of the highest
    priority in its queue, and a requestor that has such a request in each of as
    many queues as the arbiter knows requestors in the end is granted one of them. -/
theorem lrg_never_starves (arbiter : QosQueueArbiter)
    (hpolicy : arbiter.policy = .leastRecentlyGranted) (queues : List (List QosQueuedRequest)) :
    (∀ queue picked, ((run next arbiter queues).grant queue).1 = some picked →
      ∃ request, queue[picked.queueIndex]? = some request ∧ Highest queue request) ∧
    ∀ requestor, queues ≠ [] → AsksAlong requestor queues →
      queues.length = (run next arbiter queues).lrgRequestors.length →
      ∃ served ∈ observe next granted arbiter queues, served.requestor = requestor := by
  refine ⟨fun queue picked => grant_highest, fun requestor hsome hask hcount => ?_⟩
  by_contra! hmiss
  have hrun := places_run hpolicy hask hmiss
  have hle : places requestor (run next arbiter queues).lrgRequestors ≤ _ := Nat.sub_le _ _
  have hpos := length_pos_of_ne_nil hsome
  omega

/-- Two requestors take turns. -/
theorem lrg_never_starves_two :
    let queue : List QosQueuedRequest := [⟨4, 1, 0⟩, ⟨5, 1, 1⟩]
    ∃ served ∈ observe next granted (new .leastRecentlyGranted) [queue, queue],
      served.requestor = 5 :=
  (lrg_never_starves (new .leastRecentlyGranted) rfl [_, _]).2 5 (cons_ne_nil _ _)
    (by
      intro queue hq
      refine ⟨⟨5, 1, 1⟩, ?_, rfl⟩
      obtain rfl : queue = _ := by simpa using hq
      unfold Highest
      decide)
    rfl

end QosQueueArbiter

end Rem6.Fabric
