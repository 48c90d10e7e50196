import Mathlib.Data.List.Sort

/-!
# Agendas

A priority queue, as the list of what is in it in the order it will come out.
A heap that pops a least element under a total preorder can be read this way as
long as nobody looks at how it lays its elements out, and the order is a field,
so an agenda that would come out wrong cannot be built.

## Main definitions

* `Agenda`: A list in order.
* `Agenda.push`, `Agenda.pop`, `Agenda.remove`, `Agenda.filter`: The operations.

## Theorems

* `Agenda.mem_push`, `Agenda.mem_of_pop`: What is in an agenda after a push or a
  pop.
* `Agenda.pop_first`: What is popped comes before all that is left.
-/

namespace Rem6.Lib

/-- A list in the order of a relation. -/
structure Agenda (α : Type) (r : α → α → Prop) where
  items : List α
  ordered : items.Pairwise r

namespace Agenda

variable {α : Type} {r : α → α → Prop}

instance : Membership α (Agenda α r) := ⟨fun q a => a ∈ q.items⟩

variable (q : Agenda α r)

theorem mem_def (a : α) : a ∈ q ↔ a ∈ q.items := Iff.rfl

/-- Nothing to do. -/
def empty : Agenda α r := ⟨[], List.Pairwise.nil⟩

@[simp]
theorem items_empty : (empty : Agenda α r).items = [] := rfl

/-- The element that comes out next. -/
def peek : Option α := q.items.head?

/-- The element that comes out next and what is left then. -/
def pop : Option (α × Agenda α r) :=
  match q with
  | ⟨[], _⟩ => none
  | ⟨a :: rest, h⟩ => some (a, ⟨rest, h.of_cons⟩)

/-- Keep only what meets a condition. -/
def filter (p : α → Bool) : Agenda α r := ⟨q.items.filter p, q.ordered.filter p⟩

/-- Take the first element that meets a condition out. -/
def remove (p : α → Bool) : Agenda α r := ⟨q.items.eraseP p, q.ordered.sublist List.eraseP_sublist⟩

variable {a x : α}

theorem pop_eq_some_iff {rest} : q.pop = some (a, rest) ↔ q.items = a :: rest.items := by
  rcases q with ⟨_ | ⟨b, items⟩, hq⟩ <;> rcases rest with ⟨rest, hrest⟩
  · simp [pop]
  · simp [pop, mk.injEq]

theorem pop_eq_none_iff : q.pop = none ↔ q.items = [] := by
  rcases q with ⟨_ | ⟨b, items⟩, hq⟩ <;> simp [pop]

theorem peek_eq_none_iff : q.peek = none ↔ q.items = [] := List.head?_eq_none_iff

theorem peek_mem (h : q.peek = some a) : a ∈ q := List.mem_of_head? h

theorem pop_of_peek (h : q.peek = some a) : ∃ rest, q.pop = some (a, rest) := by
  rcases q with ⟨_ | ⟨b, items⟩, hq⟩
  · cases h
  · simp only [peek, List.head?_cons, Option.some.injEq] at h
    exact ⟨⟨items, hq.of_cons⟩, by simp only [pop, h]⟩

theorem peek_of_pop {rest} (h : q.pop = some (a, rest)) : q.peek = some a := by
  rw [peek, (pop_eq_some_iff q).mp h, List.head?_cons]

theorem mem_of_pop (rest : Agenda α r) (a x : α) (h : q.pop = some (a, rest)) :
    x ∈ q ↔ x = a ∨ x ∈ rest := by
  rw [mem_def, mem_def, (pop_eq_some_iff q).mp h, List.mem_cons]

/-- What is popped comes before all that is left. -/
theorem pop_first (rest : Agenda α r) (a : α) (h : q.pop = some (a, rest)) : ∀ x ∈ rest, r a x := by
  have hord := q.ordered
  rw [(pop_eq_some_iff q).mp h] at hord
  exact (List.pairwise_cons.mp hord).1

section Push

variable [DecidableRel r] [Std.Total r] [IsTrans α r]

/-- Put an element where it belongs. -/
def push (q : Agenda α r) (a : α) : Agenda α r :=
  ⟨q.items.orderedInsert r a, List.Pairwise.orderedInsert a q.items q.ordered⟩

@[simp]
theorem mem_push : x ∈ q.push a ↔ x = a ∨ x ∈ q := List.mem_orderedInsert r

end Push

end Agenda

end Rem6.Lib
