import Mathlib.Data.List.DropRight
import Rem6.Lib.Run

/-!
# Repairing the Return Address Stack

The stack that return addresses are predicted from is changed at fetch, before it
is known whether the fetch was right. Each change is kept as a pending operation,
with copies of the stack before and after it. A commit forgets the oldest pending
operation. A squash drops one with all that are younger, and puts the copy from
before it back, although older ones may be committed by then and an overflow may
have dropped entries.

What the stack should hold is computed from the calls alone. `Log` lists the changes
that were asked for: a commit moves the oldest pending one to those that stay, and a
squash of a pending one takes it out with all that are younger. The stack is what a
replay of the log on an empty stack gives, and the pending operations are the ones
that the replay makes, with its stacks before and after each. A squash cuts the log
and goes back to the replay at the cut.

Ids are 64-bit words that grow by one per operation and are taken as naturals, as
addresses are. Snapshots of the stack are left out.

## Main definitions

* `ReturnAddressStack`: The stack with its pending operations.
* `next`: The stack after a call.
* `Log`, `Log.next`: The changes that were not squashed, computed from the calls.
* `replay`, `operations`: What the changes leave on an empty stack, and the operations
  they are recorded as.
* `Follows`: The stack agrees with the log.

## Theorems

* `Follows.record`, `Follows.commit`, `Follows.squash`: What the calls keep.
* `stack_replayed`: Every run leaves what the replay leaves.
-/

namespace Rem6.Cpu

open Lib List

inductive ReturnAddressStackError where
  | unknownOperation (id : Nat)
  | outOfOrderOperationCommit (expected actual : Nat)
deriving DecidableEq, Repr

inductive ReturnAddressStackOperationKind where
  | push | pop | popThenPush
deriving DecidableEq, Repr

structure ReturnAddressStackOperation where
  id : Nat
  kind : ReturnAddressStackOperationKind
  (pushedAddress predictedReturn : Option Nat)
  (stackBefore stackAfter : List Nat)
deriving DecidableEq, Repr

structure ReturnAddressStackRepair where
  restoredStack : List Nat
  reverted : ReturnAddressStackOperation
  removedYoungers : List ReturnAddressStackOperation
deriving DecidableEq, Repr

structure ReturnAddressStackConfig where
  entries : Nat
  pos : 0 < entries

/-- The stack, newest address last. -/
structure ReturnAddressStack where
  config : ReturnAddressStackConfig
  stack : List Nat
  nextOperation : Nat
  pendingOperations : List ReturnAddressStackOperation

/-- An address on top of a stack. If the stack is full, the oldest makes room. -/
def pushOnto (entries : Nat) (stack : List Nat) (address : Nat) : List Nat :=
  (if stack.length = entries then stack.tail else stack) ++ [address]

namespace ReturnAddressStack

def new (config : ReturnAddressStackConfig) : ReturnAddressStack := ⟨config, [], 0, []⟩

variable (ras : ReturnAddressStack)

/-- Keep the change of the stack to `stackAfter` as a pending operation. -/
def recordOperation (kind : ReturnAddressStackOperationKind)
    (pushedAddress predictedReturn : Option Nat) (stackAfter : List Nat) :
    ReturnAddressStackOperation × ReturnAddressStack :=
  let operation := ⟨ras.nextOperation, kind, pushedAddress, predictedReturn, ras.stack, stackAfter⟩
  (operation, { ras with
    stack := stackAfter
    nextOperation := ras.nextOperation + 1
    pendingOperations := ras.pendingOperations ++ [operation] })

def pushSpeculative (returnAddress : Nat) : ReturnAddressStackOperation × ReturnAddressStack :=
  ras.recordOperation .push (some returnAddress) none
    (pushOnto ras.config.entries ras.stack returnAddress)

def popSpeculative : ReturnAddressStackOperation × ReturnAddressStack :=
  ras.recordOperation .pop none ras.stack.getLast? ras.stack.dropLast

def popThenPushSpeculative (returnAddress : Nat) :
    ReturnAddressStackOperation × ReturnAddressStack :=
  ras.recordOperation .popThenPush (some returnAddress) ras.stack.getLast?
    (pushOnto ras.config.entries ras.stack.dropLast returnAddress)

def commitOperation (id : Nat) :
    Except ReturnAddressStackError ReturnAddressStackOperation × ReturnAddressStack :=
  match ras.pendingOperations with
  | [] => (.error (.unknownOperation id), ras)
  | oldest :: rest =>
    if oldest.id ≠ id then (.error (.outOfOrderOperationCommit oldest.id id), ras)
    else (.ok oldest, { ras with pendingOperations := rest })

def squashFrom (id : Nat) :
    Except ReturnAddressStackError ReturnAddressStackRepair × ReturnAddressStack :=
  match ras.pendingOperations.dropWhile (·.id ≠ id) with
  | [] => (.error (.unknownOperation id), ras)
  | reverted :: removedYoungers =>
    (.ok ⟨reverted.stackBefore, reverted, removedYoungers⟩, { ras with
      stack := reverted.stackBefore
      pendingOperations := ras.pendingOperations.takeWhile (·.id ≠ id) })

/-! ## Calls -/

inductive Call where
  | push (returnAddress : Nat)
  | pop
  | popThenPush (returnAddress : Nat)
  | commitOperation (id : Nat)
  | squashFrom (id : Nat)
deriving DecidableEq, Repr

/-- The stack after a call, whatever it answers. -/
def next : Call → ReturnAddressStack
  | .push returnAddress => (ras.pushSpeculative returnAddress).2
  | .pop => ras.popSpeculative.2
  | .popThenPush returnAddress => (ras.popThenPushSpeculative returnAddress).2
  | .commitOperation id => (ras.commitOperation id).2
  | .squashFrom id => (ras.squashFrom id).2

end ReturnAddressStack

/-! ## The replay -/

open ReturnAddressStack

/-- A change of the stack that was asked for: whether it pops, and what it pushes. -/
structure Change where
  id : Nat
  pops : Bool
  pushes : Option Nat

/-- What a change does to a stack of so many entries. The newest stay on overflow. -/
def Change.apply (entries : Nat) (stack : List Nat) (change : Change) : List Nat :=
  let popped := if change.pops then stack.dropLast else stack
  match change.pushes with
  | none => popped
  | some returnAddress => (popped ++ [returnAddress]).rtake entries

/-- What changes leave on an empty stack. -/
def replay (entries : Nat) (changes : List Change) : List Nat :=
  changes.foldl (Change.apply entries) []

def Change.kind (change : Change) : ReturnAddressStackOperationKind :=
  if change.pops then if change.pushes = none then .pop else .popThenPush else .push

/-- The operation that a change of `stack` is recorded as. -/
def Change.operation (entries : Nat) (stack : List Nat) (change : Change) :
    ReturnAddressStackOperation :=
  ⟨change.id, change.kind, change.pushes, if change.pops then stack.getLast? else none, stack,
    change.apply entries stack⟩

/-- The operations of changes that are made one after the other, from `stack` on. -/
def operations (entries : Nat) : List Nat → List Change → List ReturnAddressStackOperation
  | _, [] => []
  | stack, change :: changes =>
    change.operation entries stack :: operations entries (change.apply entries stack) changes

/-- The changes that were asked for and not squashed, oldest first. -/
structure Log where
  (committed pending : List Change)
  nextId : Nat

namespace Log

def new : Log := ⟨[], [], 0⟩

def record (log : Log) (pops : Bool) (pushes : Option Nat) : Log :=
  ⟨log.committed, log.pending ++ [⟨log.nextId, pops, pushes⟩], log.nextId + 1⟩

/-- The log after a call. Only the oldest pending change can be committed, and a
    squash takes a pending one out with all that are younger. -/
def next (log : Log) : Call → Log
  | .push returnAddress => log.record false (some returnAddress)
  | .pop => log.record true none
  | .popThenPush returnAddress => log.record true (some returnAddress)
  | .commitOperation id =>
    if (log.pending.head?.map (·.id)) = some id then
      ⟨log.committed ++ log.pending.take 1, log.pending.tail, log.nextId⟩
    else log
  | .squashFrom id =>
    if id ∈ log.pending.map (·.id) then { log with pending := log.pending.filter (·.id < id) }
    else log

end Log

section Replay

variable {entries : Nat}

theorem length_apply_le (stack : List Nat) (change : Change) (h : stack.length ≤ entries) :
    (change.apply entries stack).length ≤ entries := by
  unfold Change.apply rtake
  grind

theorem length_replay_le (changes : List Change) : (replay entries changes).length ≤ entries := by
  induction changes using List.reverseRecOn with
  | nil => exact Nat.zero_le entries
  | append_singleton changes change ih =>
    rw [replay, foldl_append]
    exact length_apply_le _ change ih

/-- Below its capacity a stack keeps all of its addresses and the new one. -/
theorem pushOnto_eq (stack : List Nat) (returnAddress : Nat) (h : stack.length ≤ entries)
    (hpos : 0 < entries) :
    pushOnto entries stack returnAddress = (stack ++ [returnAddress]).rtake entries := by
  unfold pushOnto rtake
  rcases h.lt_or_eq with hroom | hfull
  · rw [if_neg hroom.ne, length_append, length_singleton, Nat.sub_eq_zero_of_le hroom, drop_zero]
  · cases stack with
    | nil => exact absurd hfull hpos.ne
    | cons oldest rest => simp [← hfull]

theorem operations_append (front back : List Change) (stack : List Nat) :
    operations entries stack (front ++ back) = operations entries stack front ++
      operations entries (front.foldl (Change.apply entries) stack) back := by
  induction front generalizing stack with
  | nil => rfl
  | cons change front ih => simp [cons_append, operations, ih, foldl_cons]

theorem map_id_operations (entries : Nat) (changes : List Change) (stack : List Nat) :
    (operations entries stack changes).map (·.id) = changes.map (·.id) := by
  induction changes generalizing stack with
  | nil => rfl
  | cons change changes ih => simp [operations, map_cons, ih, Change.operation]

end Replay

/-- The stack is the replay of the log, and its pending operations are the replay's.
    Ids grow. -/
structure Follows (entries : Nat) (ras : ReturnAddressStack) (log : Log) : Prop where
  capacity : ras.config.entries = entries
  stack : ras.stack = replay entries (log.committed ++ log.pending)
  pending : ras.pendingOperations = operations entries (replay entries log.committed) log.pending
  nextId : ras.nextOperation = log.nextId
  ids : log.pending.Pairwise (·.id < ·.id)
  below : ∀ change ∈ log.pending, change.id < log.nextId

section

variable {entries : Nat} {ras : ReturnAddressStack} {log : Log} (h : Follows entries ras log)
include h

/-- A change is recorded as the operation that the replay makes of it. -/
theorem Follows.record (pops : Bool) (pushes : Option Nat) :
    let change : Change := ⟨log.nextId, pops, pushes⟩
    Follows entries (ras.recordOperation change.kind pushes
      (if pops then ras.stack.getLast? else none) (change.apply entries ras.stack)).2
      (log.record pops pushes) := by
  intro change
  have hreplay : log.pending.foldl (Change.apply entries) (replay entries log.committed) =
      ras.stack := by
    rw [h.stack, replay, replay, foldl_append]
  refine ⟨h.capacity, ?_, ?_, congrArg (· + 1) h.nextId, ?_, ?_⟩
  · show change.apply entries ras.stack
      = replay entries (log.committed ++ (log.pending ++ [change]))
    rw [← append_assoc, replay, foldl_append, ← replay, ← h.stack]
    rfl
  · show ras.pendingOperations ++ [_] =
      operations entries (replay entries log.committed) (log.pending ++ [change])
    rw [operations_append, hreplay, ← h.pending, h.nextId]
    rfl
  · refine pairwise_append.mpr ⟨h.ids, pairwise_singleton _ _, fun old hold new hnew => ?_⟩
    rw [mem_singleton.mp hnew]
    exact h.below old hold
  · intro old hold
    rcases mem_append.mp hold with hold | hold
    · exact Nat.lt_succ_of_lt (h.below old hold)
    · rw [mem_singleton.mp hold]
      exact Nat.lt_succ_self log.nextId

theorem Follows.commit (id : Nat) :
    Follows entries (ras.commitOperation id).2 (log.next (.commitOperation id)) := by
  have hpending := h.pending
  unfold ReturnAddressStack.commitOperation Log.next
  rcases hchanges : log.pending with _ | ⟨oldest, rest⟩
  · rw [hchanges] at hpending
    rw [hpending]
    exact h
  · rw [hchanges] at hpending
    rw [hpending]
    simp only [operations, Change.operation, head?_cons, Option.map_some, Option.some.injEq, ne_eq,
      ite_not]
    split
    · have hids := h.ids
      rw [hchanges] at hids
      refine ⟨h.capacity, ?_, ?_, h.nextId, hids.tail, fun change hmem => h.below change ?_⟩
      · rw [h.stack, hchanges]
        simp
      · simp [replay]
      · rw [hchanges]
        exact mem_cons_of_mem oldest hmem
    · exact h

/-- A squash cuts the log at the change it names. -/
theorem Follows.squash (id : Nat) :
    Follows entries (ras.squashFrom id).2 (log.next (.squashFrom id)) := by
  have hids := map_id_operations entries log.pending (replay entries log.committed)
  unfold ReturnAddressStack.squashFrom Log.next
  simp only [h.pending]
  by_cases hmem : id ∈ log.pending.map (·.id)
  · rw [if_pos hmem]
    obtain ⟨change, hchange, rfl⟩ := mem_map.mp hmem
    obtain ⟨older, younger, hsplit⟩ := append_of_mem hchange
    have hsorted := h.ids
    rw [hsplit, pairwise_append, pairwise_cons] at hsorted
    have hcut : log.pending.filter (·.id < change.id) = older := by
      rw [hsplit, filter_append, filter_eq_self.mpr, filter_eq_nil_iff.mpr, append_nil]
      · simp only [mem_cons, forall_eq_or_imp, decide_eq_true_eq]
        exact ⟨Nat.lt_irrefl _, fun other hother => (hsorted.2.1.1 other hother).not_gt⟩
      · exact fun other hother => decide_eq_true (hsorted.2.2 other hother change mem_cons_self)
    -- No older operation has the id, so the code stops at the same one.
    have holder : ∀ operation ∈ operations entries (replay entries log.committed) older,
        operation.id ≠ change.id := by
      intro operation hoperation heq
      have hin := mem_map_of_mem (f := (·.id)) hoperation
      rw [map_id_operations, heq] at hin
      obtain ⟨other, hother, hsame⟩ := mem_map.mp hin
      exact (hsorted.2.2 other hother change mem_cons_self).ne hsame
    have hfirst : ∀ back, (operations entries (replay entries log.committed) older ++
        change.operation entries (replay entries (log.committed ++ older)) :: back).dropWhile
          (·.id ≠ change.id) =
        change.operation entries (replay entries (log.committed ++ older)) :: back := by
      intro back
      rw [dropWhile_append_of_pos (by simpa using holder)]
      simp [Change.operation]
    have hoperations : operations entries (replay entries log.committed) log.pending =
        operations entries (replay entries log.committed) older ++
          change.operation entries (replay entries (log.committed ++ older)) ::
          operations entries (change.apply entries (replay entries (log.committed ++ older)))
            younger := by
      rw [hsplit, operations_append]
      simp [replay, foldl_append, operations]
    rw [hoperations, hfirst, takeWhile_append_of_pos (by simpa using holder), hcut]
    refine ⟨h.capacity, rfl, ?_, h.nextId, hsorted.1, fun other hother => h.below other ?_⟩
    · simp [Change.operation]
    · rw [hsplit]
      exact mem_append_left _ hother
  · rw [if_neg hmem, dropWhile_eq_nil_iff.mpr]
    · exact h
    · intro operation hoperation
      refine decide_eq_true fun heq => hmem ?_
      rw [← hids, ← heq]
      exact mem_map_of_mem hoperation

theorem Follows.step (call : Call) : Follows entries (ras.next call) (log.next call) := by
  have hlength : ras.stack.length ≤ entries := h.stack ▸ length_replay_le _
  have hpos : 0 < entries := h.capacity ▸ ras.config.pos
  cases call with
  | push returnAddress =>
    have hrecord := h.record false (some returnAddress)
    simp only [Change.apply, Bool.false_eq_true, if_false] at hrecord
    rw [← pushOnto_eq _ _ hlength hpos] at hrecord
    simp only [← h.capacity] at hrecord ⊢
    exact hrecord
  | pop => exact h.record true none
  | popThenPush returnAddress =>
    have hrecord := h.record true (some returnAddress)
    simp only [Change.apply, if_true] at hrecord
    have hpopped : ras.stack.dropLast.length ≤ entries := by
      rw [length_dropLast]
      exact (Nat.sub_le _ _).trans hlength
    rw [← pushOnto_eq _ _ hpopped hpos] at hrecord
    simp only [← h.capacity] at hrecord ⊢
    exact hrecord
  | commitOperation id => exact h.commit id
  | squashFrom id => exact h.squash id

end

/-- After any calls the stack is what the changes that were asked for and not squashed
    leave on an empty stack of the same capacity, and the pending operations are the
    ones that this replay makes of the changes that are not committed. -/
theorem stack_replayed (config : ReturnAddressStackConfig) (calls : List Call) :
    let ras := run next (new config) calls
    let log := run Log.next .new calls
    ras.stack = replay config.entries (log.committed ++ log.pending) ∧
      ras.pendingOperations =
        operations config.entries (replay config.entries log.committed) log.pending := by
  have hrun : ∀ calls ras log, Follows config.entries ras log →
      Follows config.entries (run next ras calls) (run Log.next log calls) := by
    intro calls
    induction calls with
    | nil => exact fun ras log h => h
    | cons call calls ih => exact fun ras log h => ih _ _ (h.step call)
  have hnew : Follows config.entries (new config) .new := by
    refine ⟨rfl, rfl, rfl, rfl, .nil, ?_⟩
    simp [Log.new]
  exact ⟨(hrun calls _ _ hnew).stack, (hrun calls _ _ hnew).pending⟩

-- Two calls and a return on a stack of one entry: squashing from the second call
-- brings the address back that it had pushed out.
example :
    (run next (new ⟨1, Nat.one_pos⟩) [.push 4, .push 8, .pop, .squashFrom 1]).stack = [4] := by
  decide

end Rem6.Cpu
