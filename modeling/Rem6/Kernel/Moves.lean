import Mathlib.Data.List.ReduceOption
import Rem6.Kernel.Alignment

/-!
# What Can Happen to a Queue

Everything the scheduler does to one of its queues, cut into single moves: an
event is dispatched, cancelled, rescheduled or put in, a checkpoint call takes
events out and may set the counters, or the queue is lost. Every callback takes
every queue through a trace of such moves, and the labels of the trace account
for what it showed: its dispatch and the events it queued.

What is true of a queue after any history is then shown of single moves only.
Tokens of pending events are pairwise different and below the counter the next one
is taken from (`Tokened`). For ids and orders that is so as long as their counters
have not come round (`Fresh`), and they come round with an event that has the
largest word for one of them. Fresh queues are what makes the rollback of a panicked
callback exact: the events it drops are those the callback put in, and no other.

## Main definitions

* `QueueLabel`, `QueueMove`: The moves of a queue.
* `Tokened`, `Fresh`: Tokens, and all numbers, are different and below the counters.
* `QueueLabel.Roomy`, `CleanMove`: Moves in which no counter comes round.
* `Shows`: The labels account for dispatches.
* `Moved`: A queue went through moves that account for dispatches and arrivals.
* `SerialRun`: A serial run as a trace of dispatches and raised clocks.

## Theorems

* `QueueMove.tokened`: Every move keeps tokens apart.
* `QueueMove.fresh`: A move in which no counter comes round keeps a queue fresh.
* `trace_tokens`: Tokens go up, and events put in have new ones.
* `SerialStep.moved`, `SerialRun.moved`: The moves of the serial dispatcher.
* `dispatchParallel_moved`, `runParallelPartition_moved`: The moves of a worker.
-/

namespace Rem6.Kernel

open Lib PartitionQueue Posting List

variable {κ ω σ : Type} {checkpoints : Prop} {callbacks : Callbacks κ ω σ}

section Labels

/-- What happened to a queue. -/
inductive QueueLabel (κ : Type) where
  /-- An event was taken out and its callback started. -/
  | dispatched (event : PartitionEvent κ)
  /-- A scheduling call put an event in. -/
  | queued (event : PartitionEvent κ)
  /-- A merge put an event in for a remote one. -/
  | arrived (remote : RemoteScheduledEvent κ) (event : PartitionEvent κ)
  /-- The clock moved, or events were put in and rolled back. -/
  | passed (rolledBack : List (PartitionEvent κ))
  | cancelled (event : PartitionEvent κ)
  | rescheduled (event : PartitionEvent κ) (tick : Nat)
  /-- A checkpoint call; `lowered` if it set the id counter back. -/
  | restored (lowered : Bool)
  | lost

/-- The counters for ids, orders and tokens are where they were. -/
structure SameCounters (queue queue' : PartitionQueue κ) : Prop where
  nextId : queue'.nextId = queue.nextId
  nextOrder : queue'.nextOrder = queue.nextOrder
  nextRuntimeToken : queue'.nextRuntimeToken = queue.nextRuntimeToken

/-- The pending events of a partition have different tokens, and the next one will
    have another. -/
structure Tokened (p : Nat) (queue : PartitionQueue κ) : Prop where
  apart : queue.pending.items.Pairwise (fun a b => a.token ≠ b.token)
  issued : ∀ e ∈ queue.pending, e.id.partition = p ∧ e.token < queue.nextRuntimeToken

/-- The same for their ids and orders. -/
structure Fresh (p : Nat) (queue : PartitionQueue κ) : Prop extends Tokened p queue where
  ids : queue.pending.items.Pairwise (fun a b => a.id ≠ b.id ∧ a.order ≠ b.order)
  below : ∀ e ∈ queue.pending,
    (e.id.localId < queue.nextId ∧ e.order < queue.nextOrder) ∧ e.NotLast

/-- Events were put in and rolled back. What the rollback leaves is what was pending
    before, unless a counter has come round. -/
structure RollsBack (p : Nat) (rolledBack : List (PartitionEvent κ))
    (queue queue' : PartitionQueue κ) : Prop where
  apart : rolledBack.Pairwise (fun a b => a.token ≠ b.token)
  issued : ∀ e ∈ rolledBack, e.id.partition = p ∧ queue.nextRuntimeToken ≤ e.token ∧
    e.token < queue'.nextRuntimeToken
  kept : queue'.pending.items.Subperm (rolledBack ++ queue.pending.items)
  exact : Fresh p queue → (∀ e ∈ rolledBack, e.NotLast) →
    queue.pending.items.Perm queue'.pending.items

/-- One move of the queue of a partition. The clock and the counts of remote events
    and of progress transitions are left open. -/
inductive QueueMove (p : Nat) : PartitionQueue κ → QueueLabel κ → PartitionQueue κ → Prop where
  | dispatched {queue queue' : PartitionQueue κ} {event : PartitionEvent κ}
      (hcounters : SameCounters queue queue')
      (hpending : queue.pending.items.Perm (event :: queue'.pending.items)) :
      QueueMove p queue (.dispatched event) queue'
  | queued (queue : PartitionQueue κ) (tick : Nat) (callback : PartitionEventCallback κ) :
      QueueMove p queue (.queued (queue.nextEvent p tick callback)) (queue.enqueue p tick callback)
  | arrived (queue : PartitionQueue κ) (remote : RemoteScheduledEvent κ) :
      QueueMove p queue
        (.arrived remote (queue.nextEvent p remote.tick (.parallel remote.callback)))
        (queue.enqueue p remote.tick (.parallel remote.callback))
  | passed {queue queue' : PartitionQueue κ} {rolledBack : List (PartitionEvent κ)}
      (hid : queue'.nextId = queue.nextId) (horder : queue'.nextOrder = queue.nextOrder)
      (htoken : queue.nextRuntimeToken ≤ queue'.nextRuntimeToken)
      (hrolledBack : RollsBack p rolledBack queue queue') :
      QueueMove p queue (.passed rolledBack) queue'
  | cancelled {queue queue' : PartitionQueue κ} {event : PartitionEvent κ}
      (hcounters : SameCounters queue queue')
      (hpending : queue.pending.items.Perm (event :: queue'.pending.items)) :
      QueueMove p queue (.cancelled event) queue'
  | rescheduled {queue queue' : PartitionQueue κ} {event : PartitionEvent κ} {tick : Nat}
      (rest : List (PartitionEvent κ)) (hcounters : SameCounters queue queue')
      (hbefore : queue.pending.items.Perm (event :: rest))
      (hafter : queue'.pending.items.Perm ({ event with tick } :: rest)) :
      QueueMove p queue (.rescheduled event tick) queue'
  | restored {queue queue' : PartitionQueue κ}
      (htoken : queue'.nextRuntimeToken = queue.nextRuntimeToken)
      (hpending : queue'.pending.items.Subperm queue.pending.items)
      (hcounters : (queue'.nextId = queue.nextId ∧ queue'.nextOrder = queue.nextOrder) ∨
        ∀ e ∈ queue'.pending, e.NotLast →
          e.id.localId < queue'.nextId ∧ e.order < queue'.nextOrder) :
      QueueMove p queue (.restored (decide (queue'.nextId < queue.nextId))) queue'
  | lost (queue : PartitionQueue κ) : QueueMove p queue .lost new

namespace QueueLabel

def dispatched? : QueueLabel κ → Option (PartitionEvent κ)
  | .dispatched event => some event
  | _ => none

def queued? : QueueLabel κ → Option (PartitionEvent κ)
  | .queued event => some event
  | _ => none

/-- The event a label put in. -/
def added? : QueueLabel κ → Option (PartitionEvent κ)
  | .queued event | .arrived _ event => some event
  | _ => none

/-- A remote event that arrived, with the event that was put in for it. -/
def arrived? : QueueLabel κ → Option (RemoteScheduledEvent κ × PartitionEvent κ)
  | .arrived remote event => some (remote, event)
  | _ => none

def rolledBack : QueueLabel κ → List (PartitionEvent κ)
  | .passed rolledBack => rolledBack
  | _ => []

/-- No counter of ids or orders comes round: no event has the largest word for one
    of them. -/
def Roomy : QueueLabel κ → Prop
  | .queued event | .arrived _ event => event.NotLast
  | .passed rolledBack => ∀ e ∈ rolledBack, e.NotLast
  | _ => True

/-- A label of a run: nothing is cancelled, rescheduled or lost, and checkpoint
    calls are made only if they may. -/
def Running (checkpoints : Prop) : QueueLabel κ → Prop
  | .restored _ => checkpoints
  | .cancelled _ | .rescheduled _ _ | .lost => False
  | _ => True

end QueueLabel

variable (labels : List (QueueLabel κ))

/-- The events dispatched. -/
def dispatchedOf : List (PartitionEvent κ) := labels.filterMap QueueLabel.dispatched?

/-- The events queued. -/
def queuedOf : List (PartitionEvent κ) := labels.filterMap QueueLabel.queued?

/-- The remote events that arrived, with the events put in for them. -/
def arrivedOf : List (RemoteScheduledEvent κ × PartitionEvent κ) :=
  labels.filterMap QueueLabel.arrived?

/-- The events that were put in and rolled back. -/
def rolledBackOf : List (PartitionEvent κ) := labels.flatMap QueueLabel.rolledBack

/-- No counter comes round in moves that put in no event with a last number. -/
theorem roomy_of_parts (hqueued : ∀ e ∈ queuedOf labels, e.NotLast)
    (harrived : ∀ a ∈ arrivedOf labels, a.2.NotLast)
    (hrolledBack : ∀ e ∈ rolledBackOf labels, e.NotLast) : ∀ label ∈ labels, label.Roomy := by
  intro label hmem
  cases label with
  | queued e => exact hqueued e (mem_filterMap.mpr ⟨_, hmem, rfl⟩)
  | arrived remote e => exact harrived (remote, e) (mem_filterMap.mpr ⟨_, hmem, rfl⟩)
  | passed rolledBack => exact fun e he => hrolledBack e (mem_flatMap.mpr ⟨_, hmem, he⟩)
  | _ => trivial

variable (more : List (QueueLabel κ))

theorem dispatchedOf_append :
    dispatchedOf (labels ++ more) = dispatchedOf labels ++ dispatchedOf more :=
  filterMap_append

theorem queuedOf_append : queuedOf (labels ++ more) = queuedOf labels ++ queuedOf more :=
  filterMap_append

theorem arrivedOf_append : arrivedOf (labels ++ more) = arrivedOf labels ++ arrivedOf more :=
  filterMap_append

theorem rolledBackOf_append :
    rolledBackOf (labels ++ more) = rolledBackOf labels ++ rolledBackOf more :=
  flatMap_append

end Labels

variable {p tick q hor rounds : Nat} {label : QueueLabel κ}
  {labels labels' more : List (QueueLabel κ)}

section Freshness

variable {queue queue' : PartitionQueue κ}

variable {items : List (PartitionEvent κ)} {cb : PartitionEventCallback κ}

/-- Fewer events are as different as before. -/
theorem pairwise_of_subperm {R : PartitionEvent κ → PartitionEvent κ → Prop}
    {items' : List (PartitionEvent κ)} (hsymm : ∀ {a b}, R a b → R b a)
    (h : items.Subperm items') (hR : items'.Pairwise R) : items.Pairwise R := by
  rcases h with ⟨middle, hperm, hsub⟩
  exact (hperm.pairwise_iff hsymm).mp (hR.sublist hsub)

theorem apart_symm {a b : PartitionEvent κ} (h : a.id ≠ b.id ∧ a.order ≠ b.order) :
    b.id ≠ a.id ∧ b.order ≠ a.order :=
  ⟨h.1.symm, h.2.symm⟩

theorem subperm_of_cons {e : PartitionEvent κ}
    (h : queue.pending.items.Perm (e :: items)) : items.Subperm queue.pending.items :=
  (sublist_cons_self e items).subperm.trans h.symm.subperm

theorem Tokened.fewer (h : Tokened p queue)
    (htoken : queue.nextRuntimeToken ≤ queue'.nextRuntimeToken)
    (hpending : queue'.pending.items.Subperm queue.pending.items) : Tokened p queue' := by
  refine ⟨pairwise_of_subperm Ne.symm hpending h.apart, fun e he => ?_⟩
  obtain ⟨hpartition, hlt⟩ := h.issued e (hpending.subset he)
  exact ⟨hpartition, hlt.trans_le htoken⟩

theorem Fresh.fewer (h : Fresh p queue) (hcounters : SameCounters queue queue')
    (hpending : queue'.pending.items.Subperm queue.pending.items) : Fresh p queue' := by
  refine ⟨h.toTokened.fewer hcounters.nextRuntimeToken.ge hpending,
    pairwise_of_subperm apart_symm hpending h.ids, fun e he => ?_⟩
  rw [hcounters.nextId, hcounters.nextOrder]
  exact h.below e (hpending.subset he)

theorem enqueue_perm :
    (queue.enqueue p tick cb).pending.items.Perm
      (queue.nextEvent p tick cb :: queue.pending.items) :=
  perm_orderedInsert _ _ _

theorem Tokened.enqueue (h : Tokened p queue) (tick : Nat) (cb : PartitionEventCallback κ) :
    Tokened p (queue.enqueue p tick cb) := by
  refine ⟨pairwise_of_subperm Ne.symm enqueue_perm.subperm (pairwise_cons.mpr
    ⟨fun e he => (h.issued e he).2.ne', h.apart⟩), fun e he => ?_⟩
  rcases (mem_enqueue queue).mp he with rfl | hold
  · exact ⟨rfl, Nat.lt_succ_self _⟩
  · exact ⟨(h.issued e hold).1, Nat.lt_succ_of_lt (h.issued e hold).2⟩

/-- An event with successors of its numbers moves the counters up by one. -/
theorem Fresh.enqueue (h : Fresh p queue)
    (hlast : (queue.nextEvent p tick cb).NotLast) : Fresh p (queue.enqueue p tick cb) := by
  have hid : (queue.enqueue p tick cb).nextId = queue.nextId + 1 := Nat.mod_eq_of_lt hlast.1
  have horder : (queue.enqueue p tick cb).nextOrder = queue.nextOrder + 1 :=
    Nat.mod_eq_of_lt hlast.2
  refine ⟨h.toTokened.enqueue tick cb, pairwise_of_subperm apart_symm enqueue_perm.subperm
    (pairwise_cons.mpr ⟨fun e he => ⟨fun hsame => ?_, (h.below e he).1.2.ne'⟩, h.ids⟩),
    fun e he => ?_⟩
  · exact (h.below e he).1.1.ne' (congrArg PartitionEventId.localId hsame)
  · rw [hid, horder]
    rcases (mem_enqueue queue).mp he with rfl | hold
    · exact ⟨⟨Nat.lt_succ_self _, Nat.lt_succ_self _⟩, hlast⟩
    · obtain ⟨⟨hlt, hlt'⟩, hnot⟩ := h.below e hold
      exact ⟨⟨Nat.lt_succ_of_lt hlt, Nat.lt_succ_of_lt hlt'⟩, hnot⟩

theorem tokened_new : Tokened p (new : PartitionQueue κ) :=
  ⟨.nil, fun _ he => absurd he not_mem_nil⟩

theorem fresh_new : Fresh p (new : PartitionQueue κ) :=
  ⟨tokened_new, .nil, fun _ he => absurd he not_mem_nil⟩

/-- Tokens of a queue with one event at another tick. -/
theorem Tokened.reschedule {rest : List (PartitionEvent κ)} {event : PartitionEvent κ}
    (h : Tokened p queue) (htoken : queue'.nextRuntimeToken = queue.nextRuntimeToken)
    (hbefore : queue.pending.items.Perm (event :: rest))
    (hafter : queue'.pending.items.Perm ({ event with tick } :: rest)) : Tokened p queue' := by
  refine ⟨pairwise_of_subperm Ne.symm hafter.subperm (pairwise_cons.mpr (pairwise_cons.mp
    (pairwise_of_subperm Ne.symm hbefore.symm.subperm h.apart))), fun e he => ?_⟩
  rw [htoken]
  rcases mem_cons.mp (hafter.mem_iff.mp he) with rfl | hrest
  · exact h.issued event (hbefore.mem_iff.mpr mem_cons_self)
  · exact h.issued e (hbefore.mem_iff.mpr (mem_cons_of_mem _ hrest))

/-- Every move keeps tokens apart. -/
theorem QueueMove.tokened (h : QueueMove p queue label queue') (htokened : Tokened p queue) :
    Tokened p queue' := by
  cases h with
  | dispatched hcounters hpending | cancelled hcounters hpending =>
    exact htokened.fewer hcounters.nextRuntimeToken.ge (subperm_of_cons hpending)
  | queued tick cb => exact htokened.enqueue tick cb
  | arrived remote => exact htokened.enqueue remote.tick _
  | passed hid horder htoken hrolledBack =>
    refine ⟨pairwise_of_subperm Ne.symm hrolledBack.kept (pairwise_append.mpr
      ⟨hrolledBack.apart, htokened.apart, fun a ha b hb => ?_⟩), fun e he => ?_⟩
    · exact ((htokened.issued b hb).2.trans_le (hrolledBack.issued a ha).2.1).ne'
    · rcases mem_append.mp (hrolledBack.kept.subset he) with hnew | hold
      · exact ⟨(hrolledBack.issued e hnew).1, (hrolledBack.issued e hnew).2.2⟩
      · exact ⟨(htokened.issued e hold).1, (htokened.issued e hold).2.trans_le htoken⟩
  | rescheduled rest hcounters hbefore hafter =>
    exact htokened.reschedule hcounters.nextRuntimeToken hbefore hafter
  | restored htoken hpending => exact htokened.fewer htoken.ge hpending
  | lost => exact tokened_new

/-- A move in which no counter comes round keeps a queue fresh. -/
theorem QueueMove.fresh (h : QueueMove p queue label queue') (hfresh : Fresh p queue)
    (hroomy : label.Roomy) : Fresh p queue' := by
  have htokened := h.tokened hfresh.toTokened
  cases h with
  | dispatched hcounters hpending | cancelled hcounters hpending =>
    exact hfresh.fewer hcounters (subperm_of_cons hpending)
  | queued tick cb => exact hfresh.enqueue hroomy
  | arrived remote => exact hfresh.enqueue hroomy
  | passed hid horder htoken hrolledBack =>
    have hpending := (hrolledBack.exact hfresh hroomy).symm.subperm
    refine ⟨htokened, pairwise_of_subperm apart_symm hpending hfresh.ids, fun e he => ?_⟩
    rw [hid, horder]
    exact hfresh.below e (hpending.subset he)
  | @rescheduled _ event tick rest hcounters hbefore hafter =>
    refine ⟨htokened, pairwise_of_subperm apart_symm hafter.subperm (pairwise_cons.mpr
      (pairwise_cons.mp (pairwise_of_subperm apart_symm hbefore.symm.subperm hfresh.ids))),
      fun e he => ?_⟩
    rw [hcounters.nextId, hcounters.nextOrder]
    rcases mem_cons.mp (hafter.mem_iff.mp he) with rfl | hrest
    · exact hfresh.below event (hbefore.mem_iff.mpr mem_cons_self)
    · exact hfresh.below e (hbefore.mem_iff.mpr (mem_cons_of_mem _ hrest))
  | restored htoken hpending hcounters =>
    refine ⟨htokened, pairwise_of_subperm apart_symm hpending hfresh.ids, fun e he => ?_⟩
    obtain ⟨hbelow, hlast⟩ := hfresh.below e (hpending.subset he)
    rcases hcounters with ⟨hid, horder⟩ | hpast
    · rw [hid, horder]
      exact ⟨hbelow, hlast⟩
    · exact ⟨hpast e he hlast, hlast⟩
  | lost => exact fresh_new

theorem trace_tokened (h : Trace (QueueMove p) queue labels queue') (htokened : Tokened p queue) :
    Tokened p queue' :=
  h.invariant (fun _ queue => Tokened p queue) (fun _ _ _ _ hinv hmove => hmove.tokened hinv) []
    htokened

/-- A move of a fresh queue in which no counter comes round. -/
structure CleanMove (p : Nat) (queue : PartitionQueue κ) (label : QueueLabel κ)
    (queue' : PartitionQueue κ) : Prop where
  move : QueueMove p queue label queue'
  fresh : Fresh p queue
  roomy : label.Roomy

/-- From a fresh queue on, moves without a counter that comes round are clean, and
    leave a fresh queue. -/
theorem trace_clean (h : Trace (QueueMove p) queue labels queue')
    (hfresh : Fresh p queue) (hroomy : ∀ label ∈ labels, label.Roomy) :
    Trace (CleanMove p) queue labels queue' ∧ Fresh p queue' := by
  induction h with
  | nil queue => exact ⟨.nil queue, hfresh⟩
  | cons head tail ih =>
    obtain ⟨hfirst, hrest⟩ := forall_mem_cons.mp hroomy
    obtain ⟨htail, hlast⟩ := ih (head.fresh hfresh hfirst) hrest
    exact ⟨.cons ⟨head, hfresh, hfirst⟩ htail, hlast⟩

/-- The tokens of every queue of the scheduler are apart. -/
def AllTokened (s : PartitionedScheduler κ) : Prop :=
  ∀ p < s.partitionCount, Tokened p (s.queues p)

end Freshness

variable {s s' : PartitionedScheduler κ}

section Accounts

/-- The events queued by those callbacks that ended so. -/
def queuedEnding (ending : Ending) (dispatches : List (Dispatch κ)) : List (PartitionEvent κ) :=
  (dispatches.filter (·.ending = ending)).flatMap (fun d => queuedBy d.postings)

theorem queuedEnding_append {ending} {front back : List (Dispatch κ)} :
    queuedEnding ending (front ++ back)
      = queuedEnding ending front ++ queuedEnding ending back := by
  unfold queuedEnding
  rw [filter_append, flatMap_append]

/-- The labels of the moves of a partition account for dispatches. -/
structure Shows (p : Nat) (dispatches : List (Dispatch κ)) (labels : List (QueueLabel κ)) :
    Prop where
  dispatched : dispatchedOf labels = (dispatches.filter (·.partition = p)).map (·.event)
  queued : queuedOf labels = (queuedEnding .returned dispatches).filter (·.id.partition = p)
  rolledBack : rolledBackOf labels = (queuedEnding .panicked dispatches).filter (·.id.partition = p)
  restored : ∀ lowered, QueueLabel.restored lowered ∈ labels →
    ∃ d ∈ dispatches, ∃ lowered', restored lowered' ∈ d.postings ∧
      (lowered = true → lowered' = true)
  handles : ∀ d ∈ dispatches, ∀ id event, Posting.queued id event ∈ d.postings → id = event.id

theorem Shows.nil (p : Nat) : Shows p ([] : List (Dispatch κ)) [] :=
  ⟨rfl, rfl, rfl, by simp, by simp⟩

variable {back front dispatches : List (Dispatch κ)}

theorem Shows.append (h : Shows p front labels) (h' : Shows p back labels') :
    Shows p (front ++ back) (labels ++ labels') := by
  refine ⟨?_, ?_, ?_, fun lowered hmem => ?_, forall_mem_append.mpr ⟨h.handles, h'.handles⟩⟩
  · rw [dispatchedOf_append, filter_append, map_append, h.dispatched, h'.dispatched]
  · rw [queuedOf_append, queuedEnding_append, filter_append, h.queued, h'.queued]
  · rw [rolledBackOf_append, queuedEnding_append, filter_append, h.rolledBack, h'.rolledBack]
  · rcases mem_append.mp hmem with hmem | hmem
    · rcases h.restored lowered hmem with ⟨d, hd, hposting⟩
      exact ⟨d, mem_append_left _ hd, hposting⟩
    · rcases h'.restored lowered hmem with ⟨d, hd, hposting⟩
      exact ⟨d, mem_append_right _ hd, hposting⟩

/-- A queue went through the moves of a run that showed these dispatches, and
    in which these remote events arrived. -/
def Moved (checkpoints : Prop) (p : Nat) (dispatches : List (Dispatch κ))
    (arrived : List (RemoteScheduledEvent κ × PartitionEvent κ))
    (queue queue' : PartitionQueue κ) : Prop :=
  ∃ labels, Trace (QueueMove p) queue labels queue' ∧ Shows p dispatches labels ∧
    arrivedOf labels = arrived ∧ ∀ label ∈ labels, label.Running checkpoints

theorem Moved.refl (p : Nat) (queue : PartitionQueue κ) : Moved checkpoints p [] [] queue queue :=
  ⟨[], .nil _, Shows.nil p, rfl, by simp⟩

theorem Moved.append {first a b second c} (h : Moved checkpoints p front first a b)
    (h' : Moved checkpoints p back second b c) :
    Moved checkpoints p (front ++ back) (first ++ second) a c := by
  rcases h with ⟨labels, htr, hshows, harr, hrunning⟩
  rcases h' with ⟨labels', htr', hshows', harr', hrunning'⟩
  refine ⟨labels ++ labels', htr.append htr', hshows.append hshows', ?_,
    forall_mem_append.mpr ⟨hrunning, hrunning'⟩⟩
  rw [arrivedOf_append, harr, harr']

variable {queue queue' : PartitionQueue κ}

theorem Moved.tokened {arrived} (h : Moved checkpoints p dispatches arrived queue queue')
    (htokened : Tokened p queue) : Tokened p queue' := by
  rcases h with ⟨labels, htr, -⟩
  exact trace_tokened htr htokened

theorem Moved.passed (hcounters : SameCounters queue queue')
    (hpend : queue'.pending = queue.pending) :
    Moved checkpoints p [] [] queue queue' := by
  refine ⟨[.passed []], .cons (.passed hcounters.nextId hcounters.nextOrder
    (hcounters.nextRuntimeToken.symm.le) ⟨.nil, by simp, ?_, fun _ _ => ?_⟩) (.nil _), ?_, rfl, ?_⟩
  · rw [hpend]
    exact Subperm.refl _
  · rw [hpend]
  · refine ⟨rfl, rfl, rfl, fun lowered hmem => ?_, by simp⟩
    simp only [mem_singleton, reduceCtorEq] at hmem
  · exact forall_mem_singleton.mpr trivial

theorem Moved.advanceTo {arrived} (h : Moved checkpoints p dispatches arrived queue queue') :
    Moved checkpoints p dispatches arrived queue (queue'.advanceTo tick) := by
  have hpassed : Moved checkpoints p [] [] queue' (queue'.advanceTo tick) := by
    refine Moved.passed ?_ (pending_advanceTo queue')
    unfold PartitionQueue.advanceTo
    split <;> exact ⟨rfl, rfl, rfl⟩
  have hboth := h.append hpassed
  rwa [append_nil, append_nil] at hboth

/-- Dispatches of a partition that queue events there only, and whose calls
    answered with the ids of those events. -/
def AtPartition (p : Nat) (dispatches : List (Dispatch κ)) : Prop :=
  ∀ d ∈ dispatches, d.partition = p ∧ ∀ id e, queued id e ∈ d.postings →
    e.id.partition = p ∧ id = e.id

theorem AtPartition.elsewhere (h : AtPartition p dispatches) (hq : q ≠ p) :
    Moved checkpoints q dispatches [] queue queue := by
  have hnone : ∀ ending, (queuedEnding ending dispatches).filter (·.id.partition = q) = [] := by
    intro ending
    refine filter_eq_nil_iff.mpr (fun e he hsame => hq ?_)
    rcases mem_flatMap.mp he with ⟨d, hd, hmem⟩
    rcases (mem_queuedBy _).mp hmem with ⟨id, hposting⟩
    rw [← of_decide_eq_true hsame]
    exact ((h d (mem_filter.mp hd).1).2 id e hposting).1
  refine ⟨[], .nil _, ⟨?_, (hnone .returned).symm, (hnone .panicked).symm,
    by simp, fun d hd id e hmem => ((h d hd).2 id e hmem).2⟩,
    rfl, by simp⟩
  have hfil : dispatches.filter (·.partition = q) = [] := by
    refine filter_eq_nil_iff.mpr (fun d hd hsame => hq ?_)
    rw [← of_decide_eq_true hsame]
    exact (h d hd).1
  rw [hfil]
  rfl

/-- Between two states of a run: the shape is the same, and the callbacks queued
    events at partitions there are. -/
structure RunShape (s s' : PartitionedScheduler κ) (dispatches : List (Dispatch κ)) : Prop
    extends SameShape s s' where
  known : ∀ d ∈ dispatches, ∀ id e, queued id e ∈ d.postings → e.id.partition < s.partitionCount

theorem RunShape.nil (h : SameShape s s') :
    RunShape s s' [] := ⟨h, by simp⟩

theorem RunShape.append {a b c} (h : RunShape a b front) (h' : RunShape b c back) :
    RunShape a c (front ++ back) := by
  refine ⟨h.toSameShape.trans h'.toSameShape, fun d hd id e hqd => ?_⟩
  rcases mem_append.mp hd with hd | hd
  · exact h.known d hd id e hqd
  · rw [← h.partitionCount]
    exact h'.known d hd id e hqd

theorem RunShape.after {a b c} (h : RunShape a b dispatches) (h' : SameShape b c) :
    RunShape a c dispatches :=
  ⟨h.toSameShape.trans h', h.known⟩

end Accounts

open Moved

section Serial

variable {p : Nat} {d : Dispatch κ} {posts : List (Posting κ)} {posting : Posting κ}

theorem Shows.call
    (h : Shows p [{ d with postings := posts, ending := .returned }] labels)
    (hdispatched : dispatchedOf more = []) (hrolledBack : rolledBackOf more = [])
    (hqd : queuedOf more = (queuedBy [posting]).filter (·.id.partition = p))
    (hrestored : ∀ lowered, QueueLabel.restored lowered ∈ more →
      ∃ lowered', posting = .restored lowered' ∧ (lowered = true → lowered' = true))
    (hhandle : ∀ id e, posting = .queued id e → id = e.id) :
    Shows p [{ d with postings := posts ++ [posting], ending := .returned }] (labels ++ more) := by
  have hsplit : queuedBy (posts ++ [posting]) = queuedBy posts ++ queuedBy [posting] :=
    filterMap_append
  refine ⟨?_, ?_, ?_, fun lowered hmem => ?_, forall_mem_singleton.mpr (fun id e hmem => ?_)⟩
  · rw [dispatchedOf_append, h.dispatched, hdispatched, append_nil]
    by_cases hp : d.partition = p
    · simp [hp]
    · simp [hp]
  · rw [queuedOf_append, h.queued, hqd]
    simp [queuedEnding, hsplit]
  · rw [rolledBackOf_append, h.rolledBack, hrolledBack]
    rfl
  · rcases mem_append.mp hmem with hmem | hmem
    · rcases h.restored lowered hmem with ⟨d', hd', lowered', hposting, himp⟩
      rw [mem_singleton.mp hd'] at hposting
      exact ⟨_, mem_singleton.mpr rfl, lowered', mem_append_left _ hposting, himp⟩
    · rcases hrestored lowered hmem with ⟨lowered', rfl, himp⟩
      exact ⟨_, mem_singleton.mpr rfl, lowered', mem_append_right _ (mem_singleton.mpr rfl), himp⟩
  · rcases mem_append.mp hmem with hmem | hmem
    · exact h.handles _ (mem_singleton.mpr rfl) id e hmem
    · exact hhandle id e (mem_singleton.mp hmem).symm

variable {queue queue' : PartitionQueue κ}

theorem Moved.call {queue''}
    (h : Moved checkpoints p [{ d with postings := posts, ending := .returned }] [] queue queue')
    (hmore : Trace (QueueMove p) queue' more queue'') (hdispatched : dispatchedOf more = [])
    (hrolledBack : rolledBackOf more = []) (harr : arrivedOf more = [])
    (hrunning : ∀ label ∈ more, label.Running checkpoints)
    (hqd : queuedOf more = (queuedBy [posting]).filter (·.id.partition = p))
    (hrestored : ∀ lowered, QueueLabel.restored lowered ∈ more →
      ∃ lowered', posting = .restored lowered' ∧ (lowered = true → lowered' = true))
    (hhandle : ∀ id e, posting = .queued id e → id = e.id) :
    Moved checkpoints p [{ d with postings := posts ++ [posting], ending := .returned }] []
      queue queue'' := by
  rcases h with ⟨labels, htr, hshows, hnone, hold⟩
  refine ⟨labels ++ more, htr.append hmore,
    hshows.call hdispatched hrolledBack hqd hrestored hhandle, ?_,
    forall_mem_append.mpr ⟨hold, hrunning⟩⟩
  rw [arrivedOf_append, hnone, harr, append_nil]

theorem Moved.callElsewhere (posting : Posting κ)
    (h : Moved checkpoints p [{ d with postings := posts, ending := .returned }] [] queue queue')
    (hqd : ∀ id e, posting = .queued id e → e.id.partition ≠ p ∧ id = e.id) :
    Moved checkpoints p [{ d with postings := posts ++ [posting], ending := .returned }] []
      queue queue' := by
  refine h.call (.nil _) rfl rfl rfl (by simp) ?_ (by simp) (fun id e hsame => (hqd id e hsame).2)
  refine (filter_eq_nil_iff.mpr (fun e he => ?_)).symm
  simp only [decide_eq_true_eq]
  rcases (mem_queuedBy _).mp he with ⟨id, hmem⟩
  exact (hqd id e (mem_singleton.mp hmem).symm).1

theorem Moved.callQueued {cb}
    (h : Moved checkpoints p [{ d with postings := posts, ending := .returned }] [] queue queue') :
    Moved checkpoints p [{ d with
        postings := posts ++ [.queued ⟨p, queue'.nextId⟩ (queue'.nextEvent p tick cb)]
        ending := .returned }] [] queue (queue'.enqueue p tick cb) := by
  refine h.call (.cons (.queued queue' tick cb) (.nil _)) rfl rfl rfl
    (forall_mem_singleton.mpr trivial) ?_ ?_ ?_
  · show [queue'.nextEvent p tick cb] = [queue'.nextEvent p tick cb].filter (·.id.partition = p)
    simp [nextEvent]
  · intro lowered hmem
    simp only [mem_singleton, reduceCtorEq] at hmem
  · intro id e hsame
    rw [queued.injEq] at hsame
    rw [← hsame.1, ← hsame.2]
    rfl

theorem Restored.move (h : Restored s s')
    (hp : p < s.partitionCount) :
    ∃ lowered, QueueMove p (s.queues p) (.restored lowered) (s'.queues p) ∧
      (lowered = true → lowersIds s s' = true) := by
  refine ⟨_, .restored (h.tokens p) (h.pending p) (h.counters p hp), fun hlow => ?_⟩
  exact any_eq_true.mpr ⟨p, mem_range.mpr hp, hlow⟩

theorem moved_popped {ev rest}
    (hpop : queue.popNext = some (ev, rest)) (tick : Nat) (d : Dispatch κ)
    (hpartition : d.partition = p) (hev : d.event = ev) :
    Moved checkpoints p [{ d with postings := [], ending := .returned }] []
      queue { rest with now := tick } := by
  rcases popNext_eq_some queue rest ev hpop with ⟨pend, hpend, rfl⟩
  have hmove : QueueMove p queue (.dispatched ev)
      { queue with now := tick, pending := pend } := by
    refine .dispatched ⟨rfl, rfl, rfl⟩ ?_
    rw [(Agenda.pop_eq_some_iff _).mp hpend]
  refine ⟨[.dispatched ev], .cons hmove (.nil _), ⟨?_, rfl, rfl, ?_, ?_⟩, rfl, ?_⟩
  · simp only [filter_cons, hpartition, decide_true, if_true, filter_nil, map_cons, hev, map_nil]
    rfl
  · intro lowered hmem
    simp only [mem_singleton, reduceCtorEq] at hmem
  · exact forall_mem_singleton.mpr (by simp)
  · exact forall_mem_singleton.mpr trivial

theorem RunShape.call {s s' s''}
    (h : RunShape s s' [{ d with postings := posts, ending := .returned }])
    (hshape : SameShape s s'')
    (hqd : ∀ id e, posting = .queued id e → e.id.partition < s.partitionCount) :
    RunShape s s'' [{ d with postings := posts ++ [posting], ending := .returned }] := by
  refine ⟨hshape, forall_mem_singleton.mpr (fun id e hmem => ?_)⟩
  rcases mem_append.mp hmem with hmem | hmem
  · exact h.known _ (mem_singleton.mpr rfl) id e hmem
  · exact hqd id e (mem_singleton.mp hmem).symm

variable {m m' : Machine κ ω σ}

/-- A serial dispatch moves every queue. -/
theorem SerialStep.moved (h : SerialStep callbacks m d m') :
    RunShape m.scheduler m'.scheduler [d] ∧ ∀ p < m.scheduler.partitionCount,
      Moved True p [d] [] (m.scheduler.queues p) (m'.scheduler.queues p) := by
  rcases dispatchNextInPartition_eq_some h.dispatched with
    ⟨-, -, -, -, -, -, hend, -⟩
  have hsame : d = { d with postings := d.postings, ending := .returned } := by
    rw [← hend]
  have hall : RunShape m.scheduler m'.scheduler
      [{ d with postings := d.postings, ending := .returned }] ∧ ∀ p < m.scheduler.partitionCount,
      Moved True p [{ d with postings := d.postings, ending := .returned }] []
        (m.scheduler.queues p)
        (m'.scheduler.queues p) := by
    refine h.invariant (fun s posts => RunShape m.scheduler s
      [{ d with postings := posts, ending := .returned }] ∧
      ∀ p < m.scheduler.partitionCount,
        Moved True p [{ d with postings := posts, ending := .returned }] [] (m.scheduler.queues p)
          (s.queues p)) ?_ ⟨?_, ?_, ?_⟩
    · intro rest hpop
      refine ⟨⟨⟨rfl, rfl, rfl, rfl⟩, forall_mem_singleton.mpr (by simp)⟩, fun p _ => ?_⟩
      simp only [startedScheduler, PartitionedScheduler.queue_setQueue]
      split
      next hp =>
        rw [hp]
        exact moved_popped hpop _ d rfl rfl
      next hp =>
        have hat : AtPartition d.partition [{ d with postings := [], ending := .returned }] :=
          forall_mem_singleton.mpr ⟨rfl, by simp⟩
        exact hat.elsewhere hp
    · intro s posts error hs
      exact ⟨hs.1.call hs.1.toSameShape
        (fun id e hsame => by cases hsame),
        fun p hp => callElsewhere _ (hs.2 p hp)
        (fun id e hsame => by cases hsame)⟩
    · rintro s posts tgt tick cb id after ⟨hshape, hmoved⟩ - - ⟨htgt, -, rfl, rfl⟩
      refine ⟨hshape.call ⟨hshape.1.1, hshape.1.2, hshape.1.3, hshape.1.4⟩ (fun id e hsame => ?_),
        fun p hp => ?_⟩
      · rw [queued.injEq] at hsame
        rwa [← hsame.2, ← hshape.partitionCount]
      rw [PartitionedScheduler.queue_setQueue]
      split
      next hpt =>
        rw [← hpt]
        exact (hmoved p hp).callQueued
      next hpt =>
        refine callElsewhere _ (hmoved p hp) (fun id e hsame => ?_)
        rw [queued.injEq] at hsame
        rw [← hsame.1, ← hsame.2]
        exact ⟨fun heq => hpt heq.symm, rfl⟩
    · rintro s posts after - ⟨hshape, hmoved⟩ hrestored
      refine ⟨hshape.call (hshape.toSameShape.trans hrestored.shape)
        (fun id e hsame => by cases hsame),
        fun p hp => ?_⟩
      have hp' : p < s.partitionCount := by
        rwa [hshape.partitionCount]
      rcases hrestored.move hp' with ⟨lowered, hmove, himp⟩
      refine (hmoved p hp).call (.cons hmove (.nil _)) rfl rfl rfl ?_ rfl ?_
        (fun id e hsame => by cases hsame)
      · exact forall_mem_singleton.mpr trivial
      · intro lowered' hmem
        have hlab := mem_singleton.mp hmem
        rw [QueueLabel.restored.injEq] at hlab
        exact ⟨_, rfl, fun htrue => himp (hlab ▸ htrue)⟩
  rwa [← hsame] at hall

variable (callbacks) in
/-- A step of a serial run: a dispatch, or all clocks are raised. -/
inductive SerialMove (m : Machine κ ω σ) : Option (Dispatch κ) → Machine κ ω σ → Prop where
  | step (d : Dispatch κ) (m' : Machine κ ω σ) (hstep : SerialStep callbacks m d m') :
      SerialMove m (some d) m'
  | advanced (tick : Nat) :
      SerialMove m none { m with scheduler := m.scheduler.advancePartitionsTo tick }

variable {ds : List (Dispatch κ)}

theorem trace_serialMove (h : Trace (SerialStep callbacks) m ds m') :
    Trace (SerialMove callbacks) m (ds.map some) m' := by
  induction h with
  | nil m => exact .nil m
  | cons head tail ih => exact .cons (.step _ _ head) ih

variable (callbacks) in
/-- A serial run as a trace of its steps. -/
def SerialRun (m : Machine κ ω σ) (ds : List (Dispatch κ)) (m' : Machine κ ω σ) : Prop :=
  ∃ labels, Trace (SerialMove callbacks) m labels m' ∧ labels.reduceOption = ds

theorem SerialRun.of_trace {mid} (h : Trace (SerialStep callbacks) m ds mid) :
    SerialRun callbacks m ds { mid with scheduler := mid.scheduler.advancePartitionsTo tick } := by
  refine ⟨ds.map some ++ [none], (trace_serialMove h).snoc (.advanced tick), ?_⟩
  rw [reduceOption_append, reduceOption_singleton, Option.toList_none, append_nil,
    reduceOption, filterMap_map, Function.id_comp, filterMap_some]

theorem SerialLeg.run (h : SerialLeg callbacks m ds m') : SerialRun callbacks m ds m' := by
  rcases h with ⟨rounds, hrun⟩ | ⟨rounds, hor, -, -, -, hrun⟩
  · obtain ⟨last, htr, -, rfl⟩ := runUntilIdle_trace hrun
    exact SerialRun.of_trace htr
  · rcases runSerialEpochTo_trace hrun with
      ⟨mid, front, htr, ⟨rfl, -, rfl⟩ | ⟨d, last, rfl, hstep, -, rfl⟩⟩
    · exact SerialRun.of_trace (htr.mono (fun _ _ _ hstep => hstep.1))
    · exact SerialRun.of_trace ((htr.mono (fun _ _ _ hstep => hstep.1)).snoc hstep)

theorem SerialLegs.run (h : SerialLegs callbacks m ds m') : SerialRun callbacks m ds m' := by
  obtain ⟨legs, htr, rfl⟩ := h
  induction htr with
  | nil m => exact ⟨[], .nil m, rfl⟩
  | cons head tail ih =>
    obtain ⟨labels, hfirst, rfl⟩ := head.run
    obtain ⟨labels', hrest, hds⟩ := ih
    refine ⟨labels ++ labels', hfirst.append hrest, ?_⟩
    rw [reduceOption_append, hds, flatten_cons]

/-- A serial run moves every queue. -/
theorem SerialRun.moved (h : SerialRun callbacks m ds m') :
    RunShape m.scheduler m'.scheduler ds ∧ ∀ p < m.scheduler.partitionCount,
      Moved True p ds [] (m.scheduler.queues p) (m'.scheduler.queues p) := by
  rcases h with ⟨labels, htr, rfl⟩
  refine htr.invariant (fun past m' => RunShape m.scheduler m'.scheduler past.reduceOption ∧
    ∀ p < m.scheduler.partitionCount,
      Moved True p past.reduceOption [] (m.scheduler.queues p) (m'.scheduler.queues p)) ?_ [] ?_
  · rintro past m₁ label m₂ ⟨hshape, hmoved⟩ hmove
    rw [reduceOption_append]
    cases hmove with
    | step d m₂ hstep =>
      rcases hstep.moved with ⟨hshape', hmoved'⟩
      refine ⟨hshape.append hshape', fun p hp => ?_⟩
      exact (hmoved p hp).append (hmoved' p (by rw [hshape.partitionCount]; exact hp))
    | advanced tick =>
      rw [reduceOption_singleton, Option.toList_none, append_nil]
      refine ⟨hshape.after ⟨rfl, rfl, rfl, rfl⟩, fun p hp => ?_⟩
      exact (hmoved p hp).advanceTo
  · exact ⟨.nil (SameShape.refl _), fun p _ => refl p _⟩

end Serial

section Workers

variable {queue queue' : PartitionQueue κ}

/-- Only an event that is put in is added, and it takes the next of everything. -/
theorem QueueMove.added (h : QueueMove p queue label queue') (e : PartitionEvent κ)
    (he : label.added? = some e) :
    ∃ tick callback, e = queue.nextEvent p tick callback ∧
      queue' = queue.enqueue p tick callback := by
  cases h with
  | queued tick callback => exact ⟨tick, callback, (Option.some.inj he).symm, rfl⟩
  | arrived remote => exact ⟨remote.tick, _, (Option.some.inj he).symm, rfl⟩
  | _ => cases he

theorem QueueMove.token_le (h : QueueMove p queue label queue') (hlost : label ≠ .lost) :
    queue.nextRuntimeToken ≤ queue'.nextRuntimeToken := by
  cases h with
  | dispatched hcounters | cancelled hcounters | rescheduled _ hcounters =>
      exact hcounters.nextRuntimeToken.symm.le
  | queued | arrived remote => exact Nat.le_succ _
  | passed _ _ htok => exact htok
  | restored htok => exact htok.symm.le
  | lost => exact absurd rfl hlost

/-- Tokens only go up while nothing is lost, and every event put in has one of
    those passed. -/
theorem trace_tokens (h : Trace (QueueMove p) queue labels queue')
    (hlost : QueueLabel.lost ∉ labels) :
    queue.nextRuntimeToken ≤ queue'.nextRuntimeToken ∧
      ∀ label ∈ labels, ∀ e, label.added? = some e →
        queue.nextRuntimeToken ≤ e.token ∧ e.token < queue'.nextRuntimeToken := by
  induction h with
  | nil queue => exact ⟨le_rfl, by simp⟩
  | cons head tail ih =>
    rcases ih (fun hmem => hlost (mem_cons_of_mem _ hmem)) with ⟨hle, hadd⟩
    have hstep := head.token_le (fun hlab => hlost (hlab ▸ mem_cons_self))
    refine ⟨hstep.trans hle, fun label hmem e he => ?_⟩
    rcases mem_cons.mp hmem with rfl | hmem
    · rcases head.added e he with ⟨tick, callback, rfl, rfl⟩
      exact ⟨le_rfl, (Nat.lt_succ_self _).trans_le hle⟩
    · exact ⟨hstep.trans (hadd label hmem e he).1, (hadd label hmem e he).2⟩

variable (checkpoints)

variable (callbacks) in
theorem endedContext_moved {ev rest} (worker : ParallelWorker)
    (cb : κ) (store : σ)
    (remote : List (RemoteScheduledEvent κ)) (hpop : queue.popNext = some (ev, rest)) :
    let ended := endedContext callbacks worker ev rest cb store remote
    Moved checkpoints worker.partition [⟨worker.partition, ev, ended.postings, .returned⟩] [] queue
      ended.queue := by
  have hall := ParallelProgram.run_invariant
    (fun ctx : ParallelSchedulerContext κ => ctx.worker = worker ∧
      Moved checkpoints worker.partition [⟨worker.partition, ev, ctx.postings, .returned⟩] [] queue
        ctx.queue) ?_ ?_ ?_ ?_ (callbacks.parallel cb worker.partition ev.tick)
    (startedContext worker ev rest remote) store ⟨rfl, ?_⟩
  · exact hall.2
  · rintro ctx error ⟨hworker, hmoved⟩
    refine ⟨hworker, ?_⟩
    exact callElsewhere (d := ⟨worker.partition, ev, [], .returned⟩) _ hmoved
      (fun id e hsame => by cases hsame)
  · rintro ctx tick cb ⟨hworker, hmoved⟩ - -
    refine ⟨hworker, ?_⟩
    unfold ParallelSchedulerContext.queued
    rw [hworker]
    exact callQueued (d := ⟨worker.partition, ev, [], .returned⟩) hmoved
  · rintro ctx tgt tick cb ⟨hworker, hmoved⟩ - - -
    refine ⟨hworker, ?_⟩
    have hsent := callElsewhere (d := ⟨worker.partition, ev, [], .returned⟩)
      (.sent ⟨tgt, ctx.queue.nextRemoteOrder⟩ (ctx.remoteEvent tgt tick cb))
      hmoved (fun id e hsame => by cases hsame)
    have hcounted : Moved checkpoints worker.partition [] [] ctx.queue
        (ctx.sent tgt tick cb).queue := passed ⟨rfl, rfl, rfl⟩ rfl
    exact hsent.append hcounted
  · rintro ctx ⟨hworker, hmoved⟩
    have hcount : Moved checkpoints worker.partition [] [] ctx.queue
        ctx.recordProgressTransition.queue := passed ⟨rfl, rfl, rfl⟩ rfl
    exact ⟨hworker, hmoved.append hcount⟩
  · exact moved_popped hpop ev.tick ⟨worker.partition, ev, [], .returned⟩ rfl rfl

/-- The rollback of a panicked callback takes out what it had put in, and only
    that, unless a counter has come round. -/
theorem rollback_perm {rest} {worker : ParallelWorker} {ev : PartitionEvent κ}
    {remote : List (RemoteScheduledEvent κ)} {ctx : ParallelSchedulerContext κ}
    (h : ContextAfter (startedContext worker ev rest remote) ctx)
    (hfresh : Fresh p { rest with now := ev.tick })
    (hlast : ∀ e ∈ queuedBy ctx.postings, e.NotLast) :
    rest.pending.items.Perm
      (ctx.queue.rollbackScheduledEvents rest.nextId rest.nextOrder).pending.items := by
  have hfil := h.pending.filter (fun ev => ev.id.localId < rest.nextId && ev.order < rest.nextOrder)
  have hdropped : (queuedBy ctx.postings).filter
      (fun ev => ev.id.localId < rest.nextId && ev.order < rest.nextOrder) = [] := by
    refine filter_eq_nil_iff.mpr (fun e he hkept => ?_)
    rw [Bool.and_eq_true, decide_eq_true_eq] at hkept
    exact absurd hkept.1 (not_lt.mpr ((h.counted hlast).2 e he))
  have hkept : rest.pending.items.filter
      (fun ev => ev.id.localId < rest.nextId && ev.order < rest.nextOrder)
      = rest.pending.items := by
    refine filter_eq_self.mpr (fun e he => ?_)
    rw [Bool.and_eq_true, decide_eq_true_eq, decide_eq_true_eq]
    exact (hfresh.below e he).1
  rw [filter_append, hdropped, nil_append] at hfil
  exact (hkept ▸ hfil.symm)

variable (callbacks) in
/-- The dispatch of a parallel event moves the queue of its worker, whether the
    callback returns or panics. -/
theorem dispatchParallel_moved (worker : ParallelWorker) (ev : PartitionEvent κ)
    (queue rest : PartitionQueue κ) (cb : κ) (store : σ)
    (remote : List (RemoteScheduledEvent κ)) (htokened : Tokened worker.partition queue)
    (hpop : queue.popNext = some (ev, rest)) :
    let after := dispatchParallel callbacks worker ev rest cb store remote
    Moved checkpoints worker.partition [after.dispatch] [] queue after.queue ∧
      AtPartition worker.partition [after.dispatch] := by
  intro after
  have hmoved := endedContext_moved checkpoints callbacks worker cb store remote hpop
  have haft := endedContext_after callbacks worker ev rest cb store remote
  rcases dispatchParallel_cases callbacks worker ev rest cb store remote with
    ⟨hdispatch, hq, -⟩ | ⟨hdispatch, hq, -⟩
  · simp only [after]
    rw [hdispatch, hq]
    exact ⟨hmoved, forall_mem_singleton.mpr ⟨rfl, haft.handles⟩⟩
  · simp only [after]
    rw [hdispatch, hq]
    refine ⟨?_, forall_mem_singleton.mpr ⟨rfl, haft.handles⟩⟩
    have hhere : ∀ e ∈ queuedBy (endedContext callbacks worker ev rest cb store
        remote).postings, e.id.partition = worker.partition := by
      intro e he
      rcases (mem_queuedBy _).mp he with ⟨id, hmem⟩
      exact (haft.handles id e hmem).1
    rcases popNext_eq_some queue rest ev hpop with ⟨pend, hpend, hrest⟩
    have hcounters : SameCounters queue rest := by
      rw [hrest]
      exact ⟨rfl, rfl, rfl⟩
    have hitems : queue.pending.items = ev :: rest.pending.items := by
      rw [hrest]
      exact (Agenda.pop_eq_some_iff _).mp hpend
    have happart := pairwise_of_subperm Ne.symm haft.pending.symm.subperm
      (hmoved.tokened htokened).apart
    rcases hmoved with ⟨labels, htr, hshows, -, hrunning⟩
    rcases trace_tokens htr (hrunning _) with ⟨htok, hadd⟩
    have hdispatched : QueueMove worker.partition queue (.dispatched ev)
        { rest with now := ev.tick } := by
      refine .dispatched ⟨hcounters.nextId, hcounters.nextOrder, hcounters.nextRuntimeToken⟩ ?_
      rw [hitems]
    have hpassed : QueueMove worker.partition { rest with now := ev.tick }
        (.passed (queuedBy (endedContext callbacks worker ev rest cb store remote).postings))
        { (endedContext callbacks worker ev rest cb store
            remote).queue.rollbackScheduledEvents rest.nextId rest.nextOrder with
          nextRemoteOrder := rest.nextRemoteOrder
          nextProgressOrder := rest.nextProgressOrder } := by
      refine .passed rfl rfl ?_ ⟨(pairwise_append.mp happart).1, fun e he => ⟨hhere e he, ?_⟩,
        filter_sublist.subperm.trans haft.pending.subperm, rollback_perm haft⟩
      · rwa [← hcounters.nextRuntimeToken] at htok
      have hqd : e ∈ queuedOf labels := by
        rw [hshows.queued]
        refine mem_filter.mpr ⟨?_, decide_eq_true (hhere e he)⟩
        simp only [queuedEnding, filter_cons, decide_true, if_true, filter_nil, flatMap_singleton]
        exact he
      rcases mem_filterMap.mp hqd with ⟨label, hmem, hlab⟩
      have hissued := hadd label hmem e ?_
      · rwa [← hcounters.nextRuntimeToken] at hissued
      · cases label with
        | queued ev => exact hlab
        | _ => cases hlab
    refine ⟨_, .cons hdispatched (.cons hpassed (.nil _)), ⟨?_, rfl, ?_, ?_,
      forall_mem_singleton.mpr (fun id e hmem => (haft.handles id e hmem).2)⟩, rfl, ?_⟩
    · simp only [filter_cons, decide_true, if_true, filter_nil, map_cons, map_nil]
      rfl
    · simp only [queuedEnding, filter_cons, decide_true, if_true, filter_nil, flatMap_cons,
        flatMap_nil, append_nil, rolledBackOf, QueueLabel.rolledBack, nil_append]
      refine (filter_eq_self.mpr (fun e he => ?_)).symm
      exact decide_eq_true (hhere e he)
    · intro lowered hmem
      rcases mem_cons.mp hmem with hlab | hmem
      · cases hlab
      · simp only [mem_singleton, reduceCtorEq] at hmem
    · exact forall_mem_cons.mpr ⟨trivial, forall_mem_singleton.mpr trivial⟩

/-- A worker without serial events in its way moves its queue. -/
theorem runParallelPartition_moved {worker res} {store : σ}
    (hrun : runParallelPartition callbacks worker hor rounds queue store [] = some res)
    (htokened : Tokened worker.partition queue) (hserial : NoSerialBefore hor queue) :
    Moved checkpoints worker.partition res.dispatches [] queue res.queue ∧
      AtPartition worker.partition res.dispatches := by
  rcases runParallelPartition_trace worker ⟨queue, store, []⟩ hrun
    with ⟨mid, front, htr, hend⟩
  have hmid : (Moved checkpoints worker.partition front [] queue mid.queue ∧
      AtPartition worker.partition front) ∧ NoSerialBefore hor mid.queue := by
    refine htr.invariant (fun past w => (Moved checkpoints worker.partition past [] queue w.queue ∧
      AtPartition worker.partition past) ∧ NoSerialBefore hor w.queue) ?_ [] ?_
    · rintro past w d w' ⟨⟨hmoved, hat⟩, hw⟩ ⟨rest, cb, hpop, -, -, -, hdispatch, rfl⟩
      have hnext := dispatchParallel_moved checkpoints callbacks worker d.event w.queue rest cb
        w.store
        w.remoteEvents (hmoved.tokened htokened) hpop
      unfold nextDispatch at hdispatch ⊢
      simp only [hdispatch] at hnext
      exact ⟨⟨hmoved.append hnext.1, forall_mem_append.mpr ⟨hat, hnext.2⟩⟩,
        dispatchParallel_noSerial callbacks hw hpop⟩
    · exact ⟨⟨refl _ _, fun _ hd => absurd hd not_mem_nil⟩, hserial⟩
  rcases hmid with ⟨⟨hmoved, hat⟩, hnone⟩
  cases hend with
  | finished hleft => exact ⟨hmoved, hat⟩
  | blocked ev rest cb hpop htk hblocker =>
    have hpar := hnone ev (tick_le_of_popNext _ hpop).1 htk
    rw [PartitionEvent.isSerial, hblocker] at hpar
    exact absurd hpar (by
      simp only [PartitionEventCallback.kind, decide_true, Bool.true_eq_false, not_false_eq_true])
  | panicked ev rest cb hpop =>
    have hnext := dispatchParallel_moved checkpoints callbacks worker ev mid.queue rest cb mid.store
      mid.remoteEvents (hmoved.tokened htokened) hpop
    exact ⟨hmoved.append hnext.1, forall_mem_append.mpr ⟨hat, hnext.2⟩⟩

end Workers

end Rem6.Kernel
