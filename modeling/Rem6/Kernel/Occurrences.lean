import Mathlib.Data.List.Pairwise
import Rem6.Kernel.History

/-!
# Occurrences

A pending event goes through a history as one and the same occurrence: moves
may change its tick, never its id, order, token or callback. Two numbers tell
occurrences of a partition apart. The token never comes back. The id does, after
a checkpoint call that set the id counter back or when the counter comes round, so
ids tell occurrences apart only while neither happens.

Both are numbers that a counter of the queue hands out, and what is shown about
them is shown for any such number: an event whose number is below where the
counter was then is one that was pending then.

## Main definitions

* `Numbers`: Events are numbered by a counter that the moves never lower.
* `Occurs`: The same occurrence, whatever its tick.
* `TakenBy`: A move that took an event out.

## Theorems

* `Numbers.old`: An event numbered below the old counter is an old event.
* `trace_fate`: A pending event is still pending, or a label took it.
-/

namespace Rem6.Kernel

open Lib PartitionQueue

variable {κ ω σ : Type} {cbs : Callbacks κ ω σ} {p : Nat} {a b c e : PartitionEvent κ}
  {queue queue' : PartitionQueue κ} {label : QueueLabel κ}

theorem Tokened.unique {q : PartitionQueue κ} {a b : PartitionEvent κ} (h : Tokened p q)
    (ha : a ∈ q.pending) (hb : b ∈ q.pending) (htoken : a.token = b.token) : a = b := by
  by_contra hne
  have : Std.Symm (fun a b : PartitionEvent κ => a.token ≠ b.token) := ⟨fun _ _ => Ne.symm⟩
  exact h.apart.forall ha hb hne htoken

theorem Fresh.unique {q : PartitionQueue κ} {a b : PartitionEvent κ} (h : Fresh p q)
    (ha : a ∈ q.pending) (hb : b ∈ q.pending) (hid : a.id = b.id) : a = b := by
  by_contra hne
  have : Std.Symm (fun a b : PartitionEvent κ => a.id ≠ b.id ∧ a.order ≠ b.order) :=
    ⟨fun _ _ => apart_symm⟩
  exact (h.ids.forall ha hb hne).1 hid

section Numbers

/-- The same occurrence, whatever its tick. -/
def Occurs (old : PartitionEvent κ) (e : PartitionEvent κ) : Prop := e = { old with tick := e.tick }

theorem Occurs.refl (e : PartitionEvent κ) : Occurs e e := rfl

theorem Occurs.at (e : PartitionEvent κ) (tick : Nat) : Occurs e { e with tick } := rfl

theorem Occurs.trans (h : Occurs a b) (h' : Occurs b c) : Occurs a c := by
  unfold Occurs at h h' ⊢
  rw [h', h]

theorem Occurs.id {old} (h : Occurs old e) : e.id = old.id := by
  rw [h]

theorem Occurs.token {old} (h : Occurs old e) : e.token = old.token := by
  rw [h]

/-- Events are numbered by a counter that the moves never lower: one that comes in
    has no smaller number than the counter had. -/
structure Numbers (Move : PartitionQueue κ → QueueLabel κ → PartitionQueue κ → Prop)
    (counter : PartitionQueue κ → Nat) (number : PartitionEvent κ → Nat) : Prop where
  moved : ∀ e tick, number { e with tick } = number e
  up : ∀ queue label queue', Move queue label queue' → counter queue ≤ counter queue'
  new : ∀ queue label queue', Move queue label queue' → ∀ e ∈ queue'.pending,
    (∃ old ∈ queue.pending, Occurs old e) ∨ counter queue ≤ number e

theorem QueueMove.pending_of (h : QueueMove p queue label queue') (he : e ∈ queue'.pending) :
    (∃ old ∈ queue.pending, Occurs old e) ∨
      (∃ tick callback, e = queue.nextEvent p tick callback) ∨
      ∃ rolledBack, label = .passed rolledBack ∧ e ∈ rolledBack ∧
        RollsBack p rolledBack queue queue' := by
  cases h with
  | dispatched hcounters hpend | cancelled hcounters hpend =>
    exact .inl ⟨e, hpend.mem_iff.mpr (List.mem_cons_of_mem _ he), .refl e⟩
  | queued tick callback =>
    rcases (mem_enqueue ..).mp he with hnew | hold
    · exact .inr (.inl ⟨tick, callback, hnew⟩)
    · exact .inl ⟨e, hold, .refl e⟩
  | arrived remote =>
    rcases (mem_enqueue ..).mp he with hnew | hold
    · exact .inr (.inl ⟨_, _, hnew⟩)
    · exact .inl ⟨e, hold, .refl e⟩
  | passed hid hord htok hrolledBack =>
    rcases List.mem_append.mp (hrolledBack.kept.subset he) with hnew | hold
    · exact .inr (.inr ⟨_, rfl, hnew, hrolledBack⟩)
    · exact .inl ⟨e, hold, .refl e⟩
  | @rescheduled _ event tick rest hcounters hbef haft =>
    refine .inl ?_
    rcases List.mem_cons.mp (haft.mem_iff.mp he) with rfl | hrest
    · exact ⟨event, hbef.mem_iff.mpr List.mem_cons_self, .at event tick⟩
    · exact ⟨e, hbef.mem_iff.mpr (List.mem_cons_of_mem _ hrest), .refl e⟩
  | restored htok hpend => exact .inl ⟨e, hpend.subset he, .refl e⟩
  | lost => cases he

variable {p : Nat} {Move : PartitionQueue κ → QueueLabel κ → PartitionQueue κ → Prop}
  {counter : PartitionQueue κ → Nat} {number : PartitionEvent κ → Nat}

/-- An event numbered below where the counter was is one that was pending then. -/
theorem Numbers.old {queue labels queue'} (hnumbers : Numbers Move counter number)
    (htrace : Trace Move queue labels queue') :
    counter queue ≤ counter queue' ∧ ∀ e ∈ queue'.pending, number e < counter queue →
      ∃ old ∈ queue.pending, Occurs old e := by
  -- The invariant of the trace: the counter has not come back below where it
  -- was, so what is added is numbered from there on.
  refine htrace.invariant (fun _ now => counter queue ≤ counter now ∧
    ∀ e ∈ now.pending, number e < counter queue → ∃ old ∈ queue.pending, Occurs old e) ?_ []
    ⟨le_rfl, fun e he _ => ⟨e, he, .refl e⟩⟩
  rintro past now label now' ⟨hle, hold⟩ hmove
  refine ⟨hle.trans (hnumbers.up now label now' hmove), fun e he hlt => ?_⟩
  rcases hnumbers.new now label now' hmove e he with ⟨before, hbefore, hsame⟩ | hge
  · have hnumber : number e = number before := by
      rw [hsame]
      exact hnumbers.moved before e.tick
    rcases hold before hbefore (hnumber ▸ hlt) with ⟨old, hmem, holdSame⟩
    exact ⟨old, hmem, holdSame.trans hsame⟩
  · omega

/-- Tokens number events as long as nothing is lost. -/
theorem tokens_number : Numbers (fun (queue : PartitionQueue κ) label queue' =>
    QueueMove p queue label queue' ∧ label ≠ .lost) nextRuntimeToken PartitionEvent.token where
  moved _ _ := rfl
  up _ _ _ hmove := hmove.1.token_le hmove.2
  new _ _ _ hmove e he := by
    rcases hmove.1.pending_of he with hold | ⟨tick, callback, rfl⟩ | ⟨_, -, hrolled, hrolledBack⟩
    · exact .inl hold
    · exact .inr le_rfl
    · exact .inr (hrolledBack.issued e hrolled).2.1

/-- A label that leaves the id counter where it was or raises it. -/
def KeepsIds : QueueLabel κ → Prop
  | .restored lowered => lowered = false
  | .lost => False
  | _ => True

theorem CleanMove.id_le {q q'} (h : CleanMove p q label q') (hkeeps : KeepsIds label) :
    q.nextId ≤ q'.nextId := by
  rcases h with ⟨hmove, -, hroomy⟩
  cases hmove with
  | dispatched hcounters | cancelled hcounters | rescheduled rest hcounters =>
      exact hcounters.nextId.symm.le
  | queued | arrived remote => exact (Nat.le_succ _).trans (Nat.mod_eq_of_lt hroomy.1).ge
  | passed hid => exact hid.symm.le
  | restored => exact not_lt.mp (of_decide_eq_false hkeeps)
  | lost => exact absurd hkeeps not_false

/-- Local ids number events as long as their counter is not set back. -/
theorem ids_number : Numbers (fun (queue : PartitionQueue κ) label queue' =>
    CleanMove p queue label queue' ∧ KeepsIds label) nextId (fun e => e.id.localId) where
  moved _ _ := rfl
  up _ _ _ hmove := hmove.1.id_le hmove.2
  new _ _ _ hmove e he := by
    rcases hmove.1.move.pending_of he with hold | ⟨tick, callback, rfl⟩ | ⟨_, rfl, -, hrolledBack⟩
    · exact .inl hold
    · exact .inr le_rfl
    · have hpending := hrolledBack.exact hmove.1.fresh hmove.1.roomy
      exact .inl ⟨e, hpending.mem_iff.mpr he, .refl e⟩

end Numbers

section Fates

/-- A label that can take an event out of the queue. -/
def Leaves (e : PartitionEvent κ) : QueueLabel κ → Prop
  | .dispatched event | .cancelled event => Occurs e event
  | .restored _ | .lost => True
  | _ => False

theorem CleanMove.fate {q q'} (h : CleanMove p q label q') (he : e ∈ q.pending) :
    (∃ now ∈ q'.pending, Occurs e now) ∨ Leaves e label := by
  rcases h with ⟨hmove, hfresh, hroomy⟩
  cases hmove with
  | dispatched hcounters hpend | cancelled hcounters hpend =>
    rcases List.mem_cons.mp (hpend.mem_iff.mp he) with rfl | hrest
    · exact .inr (.refl e)
    · exact .inl ⟨e, hrest, .refl e⟩
  | queued | arrived remote => exact .inl ⟨e, (mem_enqueue ..).mpr (.inr he), .refl e⟩
  | passed hid hord htok hrolledBack =>
    exact .inl ⟨e, (hrolledBack.exact hfresh hroomy).mem_iff.mp he, .refl e⟩
  | @rescheduled _ ev tick rest hcounters hbef haft =>
    refine .inl ?_
    rcases List.mem_cons.mp (hbef.mem_iff.mp he) with rfl | hrest
    · exact ⟨_, haft.mem_iff.mpr List.mem_cons_self, .at e tick⟩
    · exact ⟨e, haft.mem_iff.mpr (List.mem_cons_of_mem _ hrest), .refl e⟩
  | restored | lost => exact .inr trivial

theorem Leaves.of_occurs {old} (h : Leaves e label) (hsame : Occurs old e) : Leaves old label := by
  cases label with
  | dispatched ev | cancelled ev => exact hsame.trans h
  | restored lowered | lost => exact trivial
  | queued ev | arrived | passed rolledBack | rescheduled => exact h

/-- A move that took an event out of the queue. -/
structure TakenBy (p : Nat) (e : PartitionEvent κ) (label : QueueLabel κ)
    (queue queue' : PartitionQueue κ) : Prop where
  move : QueueMove p queue label queue'
  was : ∃ now ∈ queue.pending, Occurs e now
  gone : ¬ ∃ later ∈ queue'.pending, Occurs e later
  leaves : Leaves e label

/-- A pending event is still pending after any moves, or one of them took it out. -/
theorem trace_fate {labels} (htr : Trace (CleanMove p) queue labels queue')
    (hpend : ∃ now ∈ queue.pending, Occurs e now) :
    (∃ now ∈ queue'.pending, Occurs e now) ∨ ∃ front label back a b,
      labels = front ++ label :: back ∧ Trace (QueueMove p) queue front a ∧
      TakenBy p e label a b ∧ Trace (QueueMove p) b back queue' := by
  induction htr with
  | nil queue => exact .inl hpend
  | @cons queue mid queue' label labels head tail ih =>
    by_cases hstill : ∃ now ∈ mid.pending, Occurs e now
    · rcases ih hstill with hlast | ⟨front, label', back, a, b, rfl, hfront, htaken, hback⟩
      · exact .inl hlast
      · exact .inr ⟨label :: front, label', back, a, b, rfl, .cons head.move hfront, htaken, hback⟩
    · refine .inr ⟨[], label, labels, queue, mid, rfl, .nil _, ⟨head.move, hpend, hstill, ?_⟩,
        tail.mono fun _ _ _ hmove => hmove.move⟩
      rcases hpend with ⟨now, hnow, hsame⟩
      rcases head.fate hnow with ⟨later, hlater, hsame'⟩ | hleaves
      · exact absurd ⟨later, hlater, hsame.trans hsame'⟩ hstill
      · exact hleaves.of_occurs hsame

end Fates

end Rem6.Kernel
