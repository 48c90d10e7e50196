import Rem6.Kernel.Dispatch

/-!
# Driving the Scheduler

Everything that can be done to a scheduler from outside, as one type of
commands, and histories of commands.

A command that runs callbacks may never come back: a callback can keep
scheduling, and a panic of a serial callback goes through to the caller. Each
command of a history therefore comes with the number of rounds its loops may
take, and a history is one whose commands all came back within theirs.

## Main definitions

* `Command`: A call of the scheduler from outside.
* `Outcome`: How it went: the error if any, the machine after it, and what its
  callbacks did.
* `perform`, `performAll`: One command and a history of them.

## Theorems

* `performAll_invariant`: What every command keeps, every history keeps.
-/

namespace Rem6.Kernel

variable {κ ω σ : Type}

inductive Command (κ : Type) where
  | scheduleAt (partition tick : Nat) (callback : κ)
  | scheduleParallelAt (partition tick : Nat) (callback : κ)
  | scheduleAfter (partition delay : Nat) (callback : κ)
  | cancelEvent (id : PartitionEventId)
  | rescheduleEvent (id : PartitionEventId) (tick : Nat)
  | restoreQuiescent (snapshot : SchedulerSnapshot)
  | restoreProjection (snapshot : SchedulerSnapshot)
      (discarded preserved : List PendingEventSnapshot)
  | discardExactEvents (events : List PendingEventSnapshot)
  | runUntilIdle | runNextEpoch
  | runNextEpochUntil (tickLimit : Nat)
  | runUntilIdleConservative | runNextEpochParallel
  | runNextEpochParallelUntil (tickLimit : Nat)
  | runUntilIdleParallel
  | runNextMixedEvent (plan : ParallelEpochPlan)
deriving DecidableEq, Repr

/-- How a command went. `postings` is what the command itself got, `dispatches`
    what its callbacks did. -/
structure Outcome (κ ω σ : Type) where
  error : Option SchedulerError
  machine : Machine κ ω σ
  postings : List (Posting κ)
  dispatches : List (Dispatch κ)
  deliveries : List (Delivery κ)

/-- The error of a call that failed. -/
def errorOf {α : Type} : Except SchedulerError α → Option SchedulerError
  | .error error => some error
  | .ok _ => none

/-- The outcome of scheduling `callback` at a tick. -/
def scheduledOutcome (m : Machine κ ω σ) (partition tick : Nat)
    (callback : PartitionEventCallback κ)
    (outcome : Except SchedulerError PartitionEventId × PartitionedScheduler κ) :
    Outcome κ ω σ :=
  ⟨errorOf outcome.1, { m with scheduler := outcome.2 }, match outcome.1 with
    | .error _ => []
    | .ok id => [.queued id ((m.scheduler.queues partition).nextEvent partition tick callback)],
    [], []⟩

/-- The outcome of a call that neither schedules nor runs anything. -/
def changedOutcome (m : Machine κ ω σ)
    (outcome : Except SchedulerError Unit × PartitionedScheduler κ) : Outcome κ ω σ :=
  ⟨errorOf outcome.1, { m with scheduler := outcome.2 }, [], [], []⟩

/-- The outcome of a checkpoint call. -/
def restoredOutcome (m : Machine κ ω σ)
    (outcome : Except SchedulerError Unit × PartitionedScheduler κ) : Outcome κ ω σ :=
  ⟨errorOf outcome.1, { m with scheduler := outcome.2 },
    [.restored (lowersIds m.scheduler outcome.2)], [], []⟩

/-- The outcome of a serial run. -/
def serialOutcome (ended : Machine κ ω σ × List (Dispatch κ)) : Outcome κ ω σ :=
  ⟨none, ended.1, [], ended.2, []⟩

/-- The outcome of a parallel run. -/
def parallelOutcome (run : EpochRun κ ω σ) : Outcome κ ω σ :=
  ⟨errorOf run.result, run.machine, [], run.dispatches, run.deliveries⟩

variable (callbacks : Callbacks κ ω σ)

/-- Perform a command, its loops taking at most so many rounds. -/
def perform (rounds : Nat) (m : Machine κ ω σ) : Command κ → Option (Outcome κ ω σ)
  | .scheduleAt partition tick callback =>
    some (scheduledOutcome m partition tick (.serial callback)
      (m.scheduler.scheduleAt partition tick callback))
  | .scheduleParallelAt partition tick callback =>
    some (scheduledOutcome m partition tick (.parallel callback)
      (m.scheduler.scheduleParallelAt partition tick callback))
  | .scheduleAfter partition delay callback =>
    some (scheduledOutcome m partition (m.scheduler.now + delay) (.serial callback)
      (m.scheduler.scheduleAfter partition delay callback))
  | .cancelEvent id => some (changedOutcome m (m.scheduler.cancelEvent id))
  | .rescheduleEvent id tick => some (changedOutcome m (m.scheduler.rescheduleEvent id tick))
  | .restoreQuiescent snapshot => some (restoredOutcome m (m.scheduler.restoreQuiescent snapshot))
  | .restoreProjection snapshot discarded preserved =>
    some (restoredOutcome m (m.scheduler.restoreCheckpointProjection snapshot discarded preserved))
  | .discardExactEvents events => some (restoredOutcome m (m.scheduler.discardExactEvents events))
  | .runUntilIdle => (runUntilIdle callbacks rounds m).map serialOutcome
  | .runNextEpoch => (runNextEpoch callbacks rounds m).map serialOutcome
  | .runNextEpochUntil tickLimit =>
    (runNextEpochUntil callbacks rounds tickLimit m).map serialOutcome
  | .runUntilIdleConservative =>
    (runUntilIdleConservative callbacks rounds rounds m).map serialOutcome
  | .runNextEpochParallel => (runNextEpochParallel callbacks rounds m).map parallelOutcome
  | .runNextEpochParallelUntil tickLimit =>
    (runNextEpochParallelUntil callbacks rounds tickLimit m).map parallelOutcome
  | .runUntilIdleParallel => (runUntilIdleParallel callbacks rounds rounds m).map parallelOutcome
  | .runNextMixedEvent plan => (runNextMixedEvent callbacks plan m).map parallelOutcome

/-- Perform commands one after the other, each within its number of rounds. -/
def performAll : List (Nat × Command κ) → Machine κ ω σ →
    Option (List (Outcome κ ω σ) × Machine κ ω σ)
  | [], m => some ([], m)
  | (rounds, command) :: commands, m =>
    match perform callbacks rounds m command with
    | none => none
    | some outcome =>
      (performAll commands outcome.machine).map (fun rest => (outcome :: rest.1, rest.2))

variable {callbacks} in
/-- An invariant that may know what the history has posted so far: what every
    allowed command keeps, every history of allowed commands keeps. -/
theorem performAll_invariant (Allowed : Command κ → Outcome κ ω σ → Prop)
    (Inv : List (Outcome κ ω σ) → Machine κ ω σ → Prop)
    (hstep : ∀ past m rounds cmd oc, Inv past m → perform callbacks rounds m cmd = some
      oc → Allowed cmd oc → Inv (past ++ [oc]) oc.machine) (cmds : List (Nat × Command κ))
    (past : List (Outcome κ ω σ)) (m m' : Machine κ ω σ) (ocs : List (Outcome κ ω σ))
    (hinv : Inv past m) (hrun : performAll callbacks cmds m = some (ocs, m'))
    (hall : (∀ entry ∈ cmds.zip ocs, Allowed entry.1.2 entry.2)) : Inv (past ++ ocs) m' := by
  induction cmds generalizing past m m' ocs with
  | nil =>
    simp only [performAll, Option.some.injEq, Prod.mk.injEq] at hrun
    rwa [← hrun.1, ← hrun.2, List.append_nil]
  | cons entry cmds ih =>
    rcases entry with ⟨rounds, cmd⟩
    simp only [performAll] at hrun
    split at hrun
    next => cases hrun
    next oc hperf =>
      simp only [Option.map_eq_some_iff, Prod.mk.injEq] at hrun
      rcases hrun with ⟨⟨rest, last⟩, hrest, rfl, rfl⟩
      rw [List.zip_cons_cons] at hall
      have hfirst := hall ((rounds, cmd), oc) List.mem_cons_self
      have hnext := ih (past ++ [oc]) oc.machine last rest
        (hstep past m rounds cmd oc hinv hperf hfirst) hrest
        (fun later hlater => hall later (List.mem_cons_of_mem _ hlater))
      rwa [List.append_assoc, List.singleton_append] at hnext

end Rem6.Kernel
