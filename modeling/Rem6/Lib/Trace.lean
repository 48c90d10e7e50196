import Mathlib.Data.List.Basic

/-!
# Traces

Runs of a machine whose steps carry a label: which steps there are is a
relation, and a trace is a list of labels with a step for each. A function that
loops can be read as a trace once, and everything that is to be proved of the
loop is then proved of one step.

`Trace.invariant` is the induction. The invariant may look at the labels so
far, which is what a property about the past of a run needs.

## Main definitions

* `Trace`: Steps one after the other, with their labels.

## Theorems

* `Trace.invariant`: What one step keeps, a trace keeps.
* `Trace.snoc`: One more step at the end.
* `Trace.mono`: A trace of steps that are steps of another kind.
* `Trace.append`: One trace after another.
* `Trace.split`: A trace around one of its labels.
* `Trace.unique`: Of a machine with at most one step from each state there is at
  most one trace that ends where no step is left.
-/

namespace Rem6.Lib

variable {σ ε : Type} {step : σ → ε → σ → Prop}

/-- Steps one after the other, with their labels. -/
inductive Trace (step : σ → ε → σ → Prop) : σ → List ε → σ → Prop where
  | nil (s : σ) : Trace step s [] s
  | cons {s s' t : σ} {label : ε} {labels : List ε} (head : step s label s')
      (tail : Trace step s' labels t) : Trace step s (label :: labels) t

namespace Trace

variable {s t u t' : σ} {labels front back labels' : List ε} {label : ε}

/-- What one step keeps, a trace keeps. The invariant may know the labels so
    far. -/
theorem invariant (Inv : List ε → σ → Prop)
    (hstep : ∀ past s label s', Inv past s → step s label s' → Inv (past ++ [label]) s') :
    ∀ {s t : σ} {labels : List ε}, Trace step s labels t →
      ∀ past, Inv past s → Inv (past ++ labels) t := by
  intro s t labels htr
  induction htr with
  | nil s =>
    intro past hinv
    rwa [List.append_nil]
  | cons head tail ih =>
    intro past hinv
    have hnext := ih _ (hstep past _ _ _ hinv head)
    rwa [List.append_assoc, List.singleton_append] at hnext

/-- One more step at the end. -/
theorem snoc (h : Trace step s labels t) (hstep : step t label u) :
    Trace step s (labels ++ [label]) u := by
  induction h with
  | nil s => exact .cons hstep (.nil _)
  | cons head tail ih => exact .cons head (ih hstep)

/-- A trace of steps that are steps of another kind. -/
theorem mono {step' : σ → ε → σ → Prop} (himp : ∀ s label s', step s label s' → step' s label s')
    (h : Trace step s labels t) : Trace step' s labels t := by
  induction h with
  | nil s => exact .nil s
  | cons head tail ih => exact .cons (himp _ _ _ head) ih

/-- A trace all of whose labels are allowed. -/
theorem allowed {P : ε → Prop} (h : Trace step s labels t) (hP : ∀ label ∈ labels, P label) :
    Trace (fun s label s' => step s label s' ∧ P label) s labels t := by
  induction h with
  | nil s => exact .nil s
  | cons head tail ih =>
    obtain ⟨hfirst, hrest⟩ := List.forall_mem_cons.mp hP
    exact .cons ⟨head, hfirst⟩ (ih hrest)

/-- One trace after another. -/
theorem append (h : Trace step s front t) (h' : Trace step t back u) :
    Trace step s (front ++ back) u := by
  induction h with
  | nil s => exact h'
  | cons head tail ih => exact .cons head (ih h')

/-- A label of a trace splits it at the step that carries it. -/
theorem split (h : Trace step s labels t) (hmem : label ∈ labels) :
    ∃ front back a b, labels = front ++ label :: back ∧ Trace step s front a ∧ step a label b ∧
      Trace step b back t := by
  induction h with
  | nil s => cases hmem
  | @cons s s' t first labels head tail ih =>
    rcases List.mem_cons.mp hmem with rfl | hmem
    · exact ⟨[], labels, s, s', rfl, .nil s, head, tail⟩
    · rcases ih hmem with ⟨front, back, a, b, rfl, hfront, hstep, hback⟩
      exact ⟨first :: front, back, a, b, rfl, .cons head hfront, hstep, hback⟩

/-- Of a machine with at most one step from each state there is at most one trace
    that ends where no step is left. -/
theorem unique
    (hdet : ∀ s label s' label' s'', step s label s' → step s label' s'' →
      label = label' ∧ s' = s'') :
    ∀ {s t : σ} {labels : List ε}, Trace step s labels t → (∀ label u, ¬ step t label u) →
      ∀ {t' : σ} {labels' : List ε}, Trace step s labels' t' → (∀ label u, ¬ step t' label u) →
        labels = labels' ∧ t = t' := by
  intro s t labels h hstu
  induction h with
  | nil s =>
    intro t' labels' h' _
    cases h' with
    | nil => exact ⟨rfl, rfl⟩
    | cons head => exact absurd head (hstu _ _)
  | cons head tail ih =>
    intro t' labels' h' hstu'
    cases h' with
    | nil => exact absurd head (hstu' _ _)
    | cons head' tail' =>
      rcases hdet _ _ _ _ _ head head' with ⟨rfl, rfl⟩
      rcases ih hstu tail' hstu' with ⟨rfl, rfl⟩
      exact ⟨rfl, rfl⟩

end Trace

end Rem6.Lib
