import Mathlib.Data.Fintype.Card
import Mathlib.Data.List.MinMax
import Mathlib.Data.Set.Finite.Basic
import Mathlib.Order.WellFounded

/-!
# Peeling a List

A list is put in order by taking, again and again, an element that nothing left
in the list precedes. Of several such elements the one with the least key goes
first. When every element left is preceded by another one, or by itself, the
peeling is stuck.

The order that comes out respects the relation whatever the relation is. Being
stuck is the only thing that can go wrong, and it takes a cycle among the
elements (`peel_of_acyclic`): a finite relation without cycles has a least
element. Conversely no cycle is ever taken apart (`Peeled.acyclic`).

## Main definitions

* `eligible`: The elements that nothing in the list precedes, with their places.
* `peel`: Take them out one by one, in at most so many rounds.
* `Peeled`: An order in which they can be taken out.
* `Acyclic`: No element of the list precedes itself through others.

## Theorems

* `Peeled.perm`: What comes out is what went in.
* `Peeled.pairwise`: Nothing comes out before something that precedes it.
* `Peeled.acyclic`: What can be taken out has no cycle.
* `exists_eligible`: Without a cycle there is always something to take.
* `acyclic_of_rank`: A rank that grows along the relation rules cycles out.
* `peel_of_acyclic`: Without a cycle peeling comes to its end.
-/

namespace Rem6.Lib

variable {α κ : Type} [LinearOrder κ] (precedes : α → α → Bool) (key : α → κ)

/-- The elements that nothing in the list precedes, with their places. -/
def eligible (pending : List α) : List (α × Nat) :=
  pending.zipIdx.filter fun entry => !pending.any fun other => precedes other entry.1

/-- Take out elements that nothing left precedes, least key first. -/
def peel : Nat → List α → Option (List α)
  | _, [] => some []
  | 0, _ :: _ => none
  | rounds + 1, head :: tail =>
    match (eligible precedes (head :: tail)).argmin (fun entry => key entry.1) with
    | none => none
    | some (next, place) => (peel rounds ((head :: tail).eraseIdx place)).map (next :: ·)

/-- No element precedes itself through others of the list. -/
def Acyclic (items : List α) : Prop :=
  ∀ a ∈ items, ¬ Relation.TransGen (fun x y => x ∈ items ∧ y ∈ items ∧ precedes x y = true) a a

variable {precedes key}

variable {pending items items' : List α} {next : α} {place : Nat}

theorem mem_eligible (h : (next, place) ∈ eligible precedes pending) :
    pending[place]? = some next ∧ ∀ other ∈ pending, precedes other next = false := by
  rcases List.mem_filter.mp h with ⟨hmem, hfree⟩
  refine ⟨List.mk_mem_zipIdx_iff_getElem?.mp hmem, fun other hoth => ?_⟩
  simp only [Bool.not_eq_true', List.any_eq_false] at hfree
  exact Bool.not_eq_true _ ▸ hfree other hoth

theorem perm_cons_eraseIdx {α} {items : List α} {a : α} (h : items[place]? = some a) :
    (a :: items.eraseIdx place).Perm items := by
  rcases List.getElem?_eq_some_iff.mp h with ⟨hlt, rfl⟩
  exact List.getElem_cons_eraseIdx_perm hlt

/-- A rank that grows along the relation rules cycles out. -/
theorem acyclic_of_rank (rank : α → Nat)
    (h : ∀ a ∈ items, ∀ b ∈ items, precedes a b = true → rank a < rank b) :
    Acyclic precedes items := by
  intro a _ hcyc
  have hclimbs : ∀ x y, Relation.TransGen
      (fun x y => x ∈ items ∧ y ∈ items ∧ precedes x y = true) x y → rank x < rank y := by
    intro x y hxy
    induction hxy with
    | single hstep => exact h _ hstep.1 _ hstep.2.1 hstep.2.2
    | tail _ hstep =>
      have hlast := h _ hstep.1 _ hstep.2.1 hstep.2.2
      omega
  exact absurd (hclimbs a a hcyc) (lt_irrefl _)

/-! ## Orders that come out of a peeling -/

variable (precedes) in
/-- Every element was taken out while nothing left preceded it. -/
inductive Peeled : List α → List α → Prop
  | nil : Peeled [] []
  | cons {pending rest : List α} {next : α} {place : Nat} (hplace : pending[place]? = some next)
      (hfree : ∀ other ∈ pending, precedes other next = false)
      (hrest : Peeled (pending.eraseIdx place) rest) : Peeled pending (next :: rest)

namespace Peeled

variable {pending ordered : List α} {a b : α}

theorem perm (h : Peeled precedes pending ordered) : ordered.Perm pending := by
  induction h with
  | nil => exact .nil
  | cons hplace _ _ ih => exact (ih.cons _).trans (perm_cons_eraseIdx hplace)

/-- What was left when an element was taken does not precede it. -/
theorem free (h : Peeled precedes pending (next :: ordered)) (ha : a ∈ next :: ordered) :
    precedes a next = false := by
  have hmem := h.perm.mem_iff.mp ha
  cases h with
  | cons _ hfree => exact hfree a hmem

theorem pairwise (h : Peeled precedes pending ordered) :
    ordered.Pairwise fun a b => precedes b a = false := by
  induction h with
  | nil => exact .nil
  | cons hplace hfree hrest ih =>
    exact .cons (fun b hb => (cons hplace hfree hrest).free (List.mem_cons_of_mem _ hb)) ih

theorem acyclic (h : Peeled precedes pending ordered) : Acyclic precedes pending := by
  induction h with
  | nil => exact fun _ h => absurd h List.not_mem_nil
  | @cons pending _ next place hplace hfree _ ih =>
    have hmem : ∀ {x}, x ∈ pending → x ≠ next → x ∈ pending.eraseIdx place := fun hx hne =>
      (List.mem_cons.mp ((perm_cons_eraseIdx hplace).mem_iff.mpr hx)).resolve_left hne
    -- Nothing leads to the element that is taken first, so no cycle passes through it.
    have hinto : ∀ {x y}, x ∈ pending ∧ y ∈ pending ∧ precedes x y = true → y ≠ next := by
      rintro x y ⟨hx, -, hxy⟩ rfl
      rw [hfree x hx] at hxy
      cases hxy
    have hlater : ∀ {x y}, Relation.TransGen (fun x y => x ∈ pending ∧ y ∈ pending ∧
        precedes x y = true) x y → x ≠ next → Relation.TransGen (fun x y =>
          x ∈ pending.eraseIdx place ∧ y ∈ pending.eraseIdx place ∧ precedes x y = true) x y ∧
        y ≠ next := by
      intro x y hxy hx
      induction hxy with
      | single hstep =>
        exact ⟨.single ⟨hmem hstep.1 hx, hmem hstep.2.1 (hinto hstep), hstep.2.2⟩, hinto hstep⟩
      | tail _ hstep ih =>
        exact ⟨.tail ih.1 ⟨hmem hstep.1 ih.2, hmem hstep.2.1 (hinto hstep), hstep.2.2⟩,
          hinto hstep⟩
    intro a ha hcycle
    have hne : a ≠ next := by
      cases hcycle with
      | single hstep => exact hinto hstep
      | tail _ hstep => exact hinto hstep
    exact ih a (hmem ha hne) (hlater hcycle hne).1

end Peeled

theorem peeled_of_peel (rounds : Nat) (pending ordered : List α)
    (h : peel precedes key rounds pending = some ordered) : Peeled precedes pending ordered := by
  induction rounds generalizing pending ordered with
  | zero =>
    cases pending with
    | nil =>
      cases h
      exact .nil
    | cons => cases h
  | succ rounds ih =>
    cases pending with
    | nil =>
      cases h
      exact .nil
    | cons =>
      simp only [peel] at h
      split at h
      · cases h
      next next place hmin =>
        rcases Option.map_eq_some_iff.mp h with ⟨rest, hrest, rfl⟩
        rcases mem_eligible (List.argmin_mem hmin) with ⟨hplace, hfree⟩
        exact .cons hplace hfree (ih _ rest hrest)

theorem Acyclic.subset (h : Acyclic precedes items) (hsub : items' ⊆ items) :
    Acyclic precedes items' := by
  intro a ha hcyc
  refine h a (hsub ha) (Relation.TransGen.mono ?_ a a hcyc)
  rintro x y ⟨hx, hy, hxy⟩
  exact ⟨hsub hx, hsub hy, hxy⟩

/-- Without a cycle there is always something to take. -/
theorem exists_eligible (h : Acyclic precedes pending) (hne : pending ≠ []) :
    eligible precedes pending ≠ [] := by
  -- Preceding through others is a strict order on finitely many elements.
  let Step : {a // a ∈ pending} → {a // a ∈ pending} → Prop :=
    fun x y => precedes x.1 y.1 = true
  have hlift : ∀ x y, Relation.TransGen Step x y →
      Relation.TransGen (fun x y => x ∈ pending ∧ y ∈ pending ∧ precedes x y = true) x.1 y.1 :=
    fun x y hxy => Relation.TransGen.lift Subtype.val (fun a b hab => ⟨a.2, b.2, hab⟩) x y hxy
  have hirr : ∀ x, ¬ Relation.TransGen Step x x := fun x hx => h x.1 x.2 (hlift x x hx)
  have : Std.Irrefl (Relation.TransGen Step) := ⟨hirr⟩
  have : IsTrans _ (Relation.TransGen Step) := ⟨fun _ _ _ => Relation.TransGen.trans⟩
  have : Finite {a // a ∈ pending} := List.finite_toSet pending
  have hwf := Finite.wellFounded_of_trans_of_irrefl (Relation.TransGen Step)
  rcases List.exists_mem_of_ne_nil pending hne with ⟨first, hfirst⟩
  rcases hwf.has_min Set.univ ⟨⟨first, hfirst⟩, trivial⟩ with ⟨⟨least, hleast⟩, -, hmin⟩
  rcases List.mem_iff_getElem?.mp hleast with ⟨place, hplace⟩
  refine List.ne_nil_of_mem (a := (least, place)) (List.mem_filter.mpr ⟨?_, ?_⟩)
  · exact List.mk_mem_zipIdx_iff_getElem?.mpr hplace
  · simp only [Bool.not_eq_true', List.any_eq_false]
    intro other hoth hpre
    exact hmin ⟨other, hoth⟩ trivial (Relation.TransGen.single hpre)

variable (key) in
theorem peel_of_acyclic (rounds : Nat) (pending : List α) (hlen : pending.length ≤ rounds)
    (hacy : Acyclic precedes pending) :
    ∃ ordered, peel precedes key rounds pending = some ordered := by
  induction rounds generalizing pending with
  | zero =>
    rw [List.length_eq_zero_iff.mp (Nat.le_zero.mp hlen)]
    exact ⟨[], rfl⟩
  | succ rounds ih =>
    cases pending with
    | nil => exact ⟨[], rfl⟩
    | cons head tail =>
      simp only [peel]
      cases hmin : (eligible precedes (head :: tail)).argmin (fun entry => key entry.1) with
      | none =>
        exact absurd (List.argmin_eq_none.mp hmin)
          (exists_eligible hacy (List.cons_ne_nil head tail))
      | some entry =>
        have hmem : entry ∈ eligible precedes (head :: tail) := List.argmin_mem hmin
        have hperm := perm_cons_eraseIdx (mem_eligible hmem).1
        have hshorter : ((head :: tail).eraseIdx entry.2).length ≤ rounds := by
          have hcnt := hperm.length_eq
          rw [List.length_cons] at hcnt
          omega
        have hsub : (head :: tail).eraseIdx entry.2 ⊆ head :: tail := List.eraseIdx_subset
        rcases ih _ hshorter (hacy.subset hsub) with ⟨rest, hrest⟩
        exact ⟨entry.1 :: rest, by simp [hrest]⟩

end Rem6.Lib
