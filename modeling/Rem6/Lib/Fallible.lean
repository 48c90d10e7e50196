import Mathlib.Logic.Basic

/-!
# Computations that Fail Midway

A method that changes its object step by step and may return an error between
two steps. The object keeps what was done to it before the error, so a
computation is a function from a state to a result and a state, whatever the
result.

Two kinds of facts are proved about such computations. What one of them does on
a given state is computed with `bind_of_ok` and `bind_of_error`. What none of
them can undo is a relation between the state before and the state after;
`Keeps` is closed under sequencing for every relation that is reflexive and
transitive, so a method keeps what its steps keep, also when it fails.

## Main definitions

* `Fallible`: Computations on a state, with sequencing.
* `get`, `modify`, `fail`, `check`, `within`, `handle`: The basic ones.
* `Keeps`: Every run is within a relation.

## Theorems

* `bind_of_ok`, `bind_of_error`, `bind_assoc`: Running a sequence.
* `bind_eq_ok` and the rules beside it: A sequence that ended well, step by step.
* `keeps_bind` and the rules beside it, one for each basic computation.
* `bind_within`, `check_bind_within`, `handle_within`: The same for the run on one
  state, where a step may use what the steps before it answered.
-/

namespace Rem6.Lib

/-- A computation on a state that may fail. What it did before stays done. -/
def Fallible (σ ε α : Type) : Type := σ → Except ε α × σ

namespace Fallible

variable {σ τ ε ε' α β : Type}

instance : Monad (Fallible σ ε) where
  pure a := fun s => (.ok a, s)
  bind m f := fun s =>
    match m s with
    | (.ok a, s') => f a s'
    | (.error e, s') => (.error e, s')

def get : Fallible σ ε σ := fun s => (.ok s, s)

def modify (change : σ → σ) : Fallible σ ε Unit := fun s => (.ok (), change s)

def fail (e : ε) : Fallible σ ε α := fun s => (.error e, s)

/-- Go on with a result, or fail with its error. -/
def check (result : Except ε α) : Fallible σ ε α := fun s => (result, s)

/-- A computation on a part of the state. -/
def within (part : σ → τ) (put : τ → σ → σ) (wrap : ε' → ε) (m : Fallible τ ε' α) :
    Fallible σ ε α :=
  fun s => ((m (part s)).1.mapError wrap, put (m (part s)).2 s)

/-- Something to do when a computation fails. -/
def handle (m : Fallible σ ε α) (handler : ε → Fallible σ ε α) : Fallible σ ε α :=
  fun s =>
    match m s with
    | (.ok a, s') => (.ok a, s')
    | (.error e, s') => handler e s'

variable {m : Fallible σ ε α} {f : α → Fallible σ ε β} {s s' : σ}

variable {a : α} {e : ε} {res : Except ε α} {t : σ} {b : β}

@[simp]
theorem pure_apply : (pure a : Fallible σ ε α) s = (.ok a, s) := rfl

@[simp]
theorem get_apply : (get : Fallible σ ε σ) s = (.ok s, s) := rfl

@[simp]
theorem modify_apply {change : σ → σ} :
    (modify change : Fallible σ ε Unit) s = (.ok (), change s) := rfl

@[simp]
theorem fail_apply : (fail e : Fallible σ ε α) s = (.error e, s) := rfl

@[simp]
theorem check_apply : (check res : Fallible σ ε α) s = (res, s) := rfl

theorem bind_of_ok (h : m s = (.ok a, s')) : (m >>= f) s = f a s' := by
  simp [bind, h]

theorem bind_of_error (h : m s = (.error e, s')) : (m >>= f) s = (.error e, s') := by
  simp [bind, h]

theorem check_bind_of_ok (h : res = .ok a) : (check res >>= f) s = f a s := by
  rw [h]
  rfl

/-- A sequence that ended well went well from the start. -/
theorem bind_eq_ok (h : (m >>= f) s = (.ok b, t)) :
    ∃ a s', m s = (.ok a, s') ∧ f a s' = (.ok b, t) := by
  rcases hm : m s with ⟨res, s'⟩
  cases res with
  | error e => simp [bind_of_error hm] at h
  | ok a => exact ⟨a, s', rfl, (bind_of_ok hm).symm.trans h⟩

theorem check_bind_eq_ok (h : (check res >>= f) s = (.ok b, t)) :
    ∃ a, res = .ok a ∧ f a s = (.ok b, t) := by
  cases res with
  | error e => cases h
  | ok a => exact ⟨a, rfl, h⟩

theorem within_eq_ok {part : σ → τ} {put : τ → σ → σ} {wrap : ε' → ε} {m : Fallible τ ε' α}
    (h : within part put wrap m s = (.ok a, t)) : ∃ x, m (part s) = (.ok a, x) ∧ t = put x s := by
  rcases hx : m (part s) with ⟨res, x⟩
  rw [within, hx] at h
  cases res <;> cases h
  exact ⟨x, rfl, rfl⟩

theorem within_bind_eq_ok {part : σ → τ} {put : τ → σ → σ} {wrap : ε' → ε} {m : Fallible τ ε' α}
    (h : (within part put wrap m >>= f) s = (.ok b, t)) :
    ∃ a x, m (part s) = (.ok a, x) ∧ f a (put x s) = (.ok b, t) := by
  obtain ⟨a, s', hm, h⟩ := bind_eq_ok h
  obtain ⟨x, hx, rfl⟩ := within_eq_ok hm
  exact ⟨a, x, hx, h⟩

theorem bind_assoc {γ : Type} (m : Fallible σ ε α) (f : α → Fallible σ ε β)
    (g : β → Fallible σ ε γ) : (m >>= f) >>= g = m >>= fun a => f a >>= g := by
  funext s
  rcases h : m s with ⟨res, t⟩
  cases res with
  | error e => rw [bind_of_error h, bind_of_error (bind_of_error h)]
  | ok a =>
    rw [bind_of_ok h]
    simp [bind, h]

theorem bind_pure_snd (m : Fallible σ ε α) (g : α → β) (s : σ) :
    ((m >>= fun a => pure (g a)) s).2 = (m s).2 := by
  rcases h : m s with ⟨res, t⟩
  cases res with
  | error e => rw [bind_of_error h]
  | ok a =>
    rw [bind_of_ok h]
    rfl

/-! ## What no computation undoes -/

/-- Every run of the computation, failed or not, is within the relation. -/
def Keeps (R : σ → σ → Prop) (m : Fallible σ ε α) : Prop := ∀ s, R s (m s).2

variable {R : σ → σ → Prop}

/-- A sequence is within the relation where its parts are. -/
theorem bind_within (htrans : ∀ {a b c}, R a b → R b c → R a c) (hm : R s (m s).2)
    (hf : ∀ a t, m s = (.ok a, t) → R t (f a t).2) : R s ((m >>= f) s).2 := by
  rcases h : m s with ⟨res, t⟩
  rw [h] at hm
  cases res with
  | error e => rwa [bind_of_error h]
  | ok a =>
    rw [bind_of_ok h]
    exact htrans hm (hf a t h)

/-- What is checked does not count. -/
theorem check_bind_within (hrefl : R s s) (hf : ∀ a, res = .ok a → R s (f a s).2) :
    R s ((check res >>= f) s).2 := by
  cases res with
  | error e => exact hrefl
  | ok a => exact hf a rfl

theorem keeps_bind (htrans : ∀ {a b c}, R a b → R b c → R a c) (hm : Keeps R m)
    (hf : ∀ a, Keeps R (f a)) : Keeps R (m >>= f) :=
  fun s => bind_within htrans (hm s) fun a t _ => hf a t

theorem keeps_get_bind {f : σ → Fallible σ ε β} (hf : ∀ s, R s (f s s).2) : Keeps R (get >>= f) :=
  hf

theorem handle_within (htrans : ∀ {a b c}, R a b → R b c → R a c) {handler : ε → Fallible σ ε α}
    (hm : R s (m s).2) (hh : ∀ e t, m s = (.error e, t) → R t (handler e t).2) :
    R s (handle m handler s).2 := by
  unfold handle
  rcases h : m s with ⟨res, t⟩
  rw [h] at hm
  cases res with
  | error e => exact htrans hm (hh e t h)
  | ok a => exact hm

theorem keeps_pure (hrefl : ∀ s, R s s) : Keeps R (pure a : Fallible σ ε α) :=
  hrefl

theorem keeps_fail (hrefl : ∀ s, R s s) : Keeps R (fail e : Fallible σ ε α) :=
  hrefl

theorem keeps_check (hrefl : ∀ s, R s s) : Keeps R (check res : Fallible σ ε α) :=
  hrefl

end Fallible

end Rem6.Lib
