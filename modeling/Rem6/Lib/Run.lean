import Mathlib.Data.List.Basic

/-!
# Runs of a Machine

A machine that is driven from outside: it has a state, and an input moves it to
the next. A run is a list of inputs. Safety properties of such a machine all
have one shape, an invariant that one step keeps, and the induction that lifts
a step to a run is done here once.

Steps may be allowed to break the invariant when a condition on the state
before them fails. `Along` says that a condition holds at every step of a run,
and `along_invariant` is the induction: if every step that meets the condition
keeps the invariant, so does every run whose steps all meet it.

A property that speaks of the past needs the past in the invariant. `observe`
collects what the steps of a run put out, and `along_observed` is the same
induction with the observations so far beside the state.

## Main definitions

* `run`: The state after a list of inputs.
* `Along`: A condition on states and inputs holds at every step of a run.
* `observe`: What the steps of a run put out, in order.

## Theorems

* `along_append`: A condition along a run can be cut anywhere.
* `along_invariant`: Steps that keep an invariant make runs that keep it.
* `along_observed`: The same for an invariant that knows the observations.
* `along_last`: What every step shows, the last step of a run shows.
-/

namespace Rem6.Lib

variable {σ ι : Type} (step : σ → ι → σ)

/-- The state after a list of inputs. -/
def run (s : σ) (inputs : List ι) : σ := inputs.foldl step s

@[simp]
theorem run_nil (s : σ) : run step s [] = s := rfl

@[simp]
theorem run_cons {s i inputs} : run step s (i :: inputs) = run step (step s i) inputs := rfl

theorem run_append {s first rest} : run step s (first ++ rest) = run step (run step s first) rest :=
  List.foldl_append

/-- A condition holds at every step of a run: at each input, of the state the
    machine is in when the input arrives. -/
def Along (P : σ → ι → Prop) : σ → List ι → Prop
  | _, [] => True
  | s, i :: inputs => P s i ∧ Along P (step s i) inputs

theorem along_append (P : σ → ι → Prop) (rest : List ι) :
    ∀ (first : List ι) (s : σ),
      Along step P s (first ++ rest) ↔
        Along step P s first ∧ Along step P (run step s first) rest := by
  intro first
  induction first with
  | nil =>
    intro s
    simp only [List.nil_append, Along, run_nil, true_and]
  | cons i first ih =>
    intro s
    simp only [List.cons_append, Along, run_cons, ih (step s i), and_assoc]

theorem along_of_forall (Q : ι → Prop) (inputs : List ι) (s : σ) (hQ : (∀ i ∈ inputs, Q i)) :
    Along step (fun _ i => Q i) s inputs := by
  induction inputs generalizing s with
  | nil => trivial
  | cons i inputs ih =>
    exact ⟨hQ i List.mem_cons_self, ih (step s i) (fun j hj => hQ j (List.mem_cons_of_mem i hj))⟩

theorem along_and_of_forall (Q : ι → Prop) (P : σ → ι → Prop) (inputs : List ι) (s : σ)
    (hQ : (∀ i ∈ inputs, Q i)) (hP : Along step P s inputs) :
    Along step (fun s i => Q i ∧ P s i) s inputs := by
  induction inputs generalizing s with
  | nil => trivial
  | cons i inputs ih =>
    refine ⟨⟨hQ i List.mem_cons_self, hP.1⟩, ih (step s i) (fun j hj => ?_) hP.2⟩
    exact hQ j (List.mem_cons_of_mem i hj)

/-- If every step that meets the condition keeps the invariant, every run whose
    steps all meet it does. -/
theorem along_invariant (P : σ → ι → Prop) (Inv : σ → Prop)
    (hstep : ∀ s i, Inv s → P s i → Inv (step s i)) (inputs : List ι) (s : σ) (hs : Inv s)
    (hP : Along step P s inputs) : Inv (run step s inputs) := by
  induction inputs generalizing s with
  | nil => exact hs
  | cons i inputs ih => exact ih (step s i) (hstep s i hs hP.1) hP.2

variable {ο : Type} (out : σ → ι → Option ο)

/-- What the steps of a run put out, oldest first. -/
def observe : σ → List ι → List ο
  | _, [] => []
  | s, i :: inputs => (out s i).toList ++ observe (step s i) inputs

/-- An invariant that relates the state to what was observed so far. -/
theorem along_observed (P : σ → ι → Prop) (Inv : σ → List ο → Prop)
    (hstep : ∀ s i seen, Inv s seen → P s i → Inv (step s i) (seen ++ (out s i).toList))
    (inputs : List ι) (s : σ) (seen : List ο) (hs : Inv s seen) (hP : Along step P s inputs) :
    Inv (run step s inputs) (seen ++ observe step out s inputs) := by
  induction inputs generalizing s seen with
  | nil =>
    simp only [run_nil, observe, List.append_nil]
    exact hs
  | cons i inputs ih =>
    have hnext := ih (step s i) _ (hstep s i seen hs hP.1) hP.2
    rwa [List.append_assoc] at hnext

/-- What every step shows of its state, its input and the past, the last step of
    a run shows. -/
theorem along_last (P : σ → ι → Prop) (Inv : σ → List ο → Prop) (Shows : σ → ι → List ο → Prop)
    (hstep : ∀ s i seen, Inv s seen → P s i →
      Inv (step s i) (seen ++ (out s i).toList) ∧ Shows s i seen) (inputs : List ι) (last : ι)
    (s : σ) (hs : Inv s []) (hP : Along step P s (inputs ++ [last])) :
    Shows (run step s inputs) last (observe step out s inputs) := by
  rcases (along_append step P [last] inputs s).mp hP with ⟨hinp, hlast, -⟩
  have hinv := along_observed step out P Inv (fun s i seen hs hP => (hstep s i seen hs hP).1)
    inputs s [] hs hinp
  exact (hstep _ last _ hinv hlast).2

end Rem6.Lib
