import Mathlib.Logic.Function.Iterate
import Mathlib.Data.Nat.Basic

/-!
# A Shift Register with Feedback

A register of `n` bits that shifts towards its low end. The bit that comes in at
the high end is the exclusive or of the high and the low bit that were there.

A step can be taken back, since the bit that fell out is the exclusive or of the
two highest bits it left (`back_step`). Steps are linear, so what holds of their
powers can be read off the bits that fall out one after another, the output of
the register: bit `i` of the register after `k` steps is output `k + i`, and the
output obeys one recurrence. From it follows the relation that turns a sum of two
powers of the step back into nothing: `n` steps and `n - 1` steps, together, are
the register as it was (`iterate_xor_iterate`).

## Main definitions

* `step`, `back`: The register a step later, and a step earlier.
* `output`: The bits that fall out.

## Theorems

* `back_step`, `step_back`: The two undo each other.
* `step_xor`, `iterate_xor`: Steps are linear.
* `output_add`: The recurrence of the output.
* `iterate_xor_iterate`: The relation between the powers of a step.
-/

namespace Rem6.Lib

open BitVec Function

namespace ShiftRegister

variable {n : Nat}

variable (register : BitVec n)

/-- The register a step later. -/
def step : BitVec n :=
  (register >>> 1) ^^^
    (if register.getLsbD (n - 1) ^^ register.getLsbD 0 then twoPow n (n - 1) else 0#n)

/-- The register a step earlier. -/
def back : BitVec n :=
  (register <<< 1) ^^^
    (if register.getLsbD (n - 2) ^^ register.getLsbD (n - 1) then twoPow n 0 else 0#n)

variable {i k : Nat}

theorem getLsbD_step (hi : i < n) :
    (step register).getLsbD i
      = if i + 1 = n then register.getLsbD (n - 1) ^^ register.getLsbD 0
        else register.getLsbD (i + 1) := by
  rw [step, getLsbD_xor, getLsbD_ushiftRight, Nat.add_comm 1 i]
  by_cases hlast : i + 1 = n
  · -- Nothing is shifted into the highest place, which takes the feedback.
    have hout : register.getLsbD (i + 1) = false := getLsbD_of_ge _ _ (by omega)
    have hi' : n - 1 = i := by omega
    rw [if_pos hlast, hout, hi', Bool.false_xor]
    cases hbit : register.getLsbD i ^^ register.getLsbD 0 with
    | true => simp [hi]
    | false => simp
  · have hne : n - 1 ≠ i := by omega
    rw [if_neg hlast]
    split
    · simp [hne]
    · simp

theorem getLsbD_back (hi : i < n) :
    (back register).getLsbD i
      = if i = 0 then register.getLsbD (n - 2) ^^ register.getLsbD (n - 1)
        else register.getLsbD (i - 1) := by
  rw [back, getLsbD_xor, getLsbD_shiftLeft]
  by_cases hfirst : i = 0
  · rw [if_pos hfirst, hfirst]
    rw [hfirst] at hi
    simp only [Nat.lt_one_iff, decide_true, Bool.not_true, Bool.and_false, Bool.false_and,
      Bool.false_xor]
    cases hbit : register.getLsbD (n - 2) ^^ register.getLsbD (n - 1) with
    | true => simp [hi]
    | false => simp
  · have hge : ¬i < 1 := by omega
    have hne : ¬(0 = i) := by omega
    rw [if_neg hfirst]
    simp only [hi, hge, decide_true, decide_false, Bool.not_false, Bool.true_and]
    split
    · simp [hne]
    · simp

/-- A step is taken back. -/
theorem back_step (hn : 2 ≤ n) {register : BitVec n} : back (step register) = register := by
  apply eq_of_getLsbD_eq
  intro i hi
  rw [getLsbD_back _ hi]
  by_cases hfirst : i = 0
  · -- The two highest bits are the old highest one and the feedback.
    have hhi : ¬(n - 2 + 1 = n) := by omega
    have hlast : n - 1 + 1 = n := by omega
    have hsucc : n - 2 + 1 = n - 1 := by omega
    rw [if_pos hfirst, getLsbD_step _ (by omega), getLsbD_step _ (by omega), if_neg hhi,
      if_pos hlast, hsucc, ← Bool.xor_assoc, Bool.xor_self, Bool.false_xor, hfirst]
  · have hnot : ¬(i - 1 + 1 = n) := by omega
    rw [if_neg hfirst, getLsbD_step _ (by omega), if_neg hnot, Nat.sub_add_cancel (by omega)]

/-- A step undoes a step back. -/
theorem step_back (hn : 2 ≤ n) {register : BitVec n} : step (back register) = register := by
  apply eq_of_getLsbD_eq
  intro i hi
  rw [getLsbD_step _ hi]
  by_cases hlast : i + 1 = n
  · have hne : ¬(n - 1 = 0) := by omega
    have hpred : n - 1 - 1 = n - 2 := by omega
    have hi' : n - 1 = i := by omega
    rw [if_pos hlast, getLsbD_back _ (by omega), getLsbD_back _ (by omega), if_neg hne, if_pos rfl,
      hpred, ← Bool.xor_assoc, Bool.xor_self, Bool.false_xor, hi']
  · rw [if_neg hlast, getLsbD_back _ (by omega), if_neg (Nat.succ_ne_zero i), Nat.add_sub_cancel]

/-- Steps are linear. -/
theorem step_xor {a b : BitVec n} : step (a ^^^ b) = step a ^^^ step b := by
  apply eq_of_getLsbD_eq
  intro i hi
  rw [getLsbD_xor, getLsbD_step _ hi, getLsbD_step _ hi, getLsbD_step _ hi]
  by_cases hlast : i + 1 = n
  · simp only [hlast, if_true, getLsbD_xor, Bool.xor_assoc, Bool.xor_left_comm]
  · simp only [hlast, if_false, getLsbD_xor]

theorem iterate_xor {w} {a b : BitVec w} : step^[k] (a ^^^ b) = step^[k] a ^^^ step^[k] b := by
  induction k generalizing a b with
  | zero => rfl
  | succ k ih => rw [iterate_succ_apply, iterate_succ_apply, iterate_succ_apply, step_xor, ih]

/-! ## Powers of a step -/

/-- The bit that falls out at step `k`. -/
def output (k : Nat) : Bool := (step^[k] register).getLsbD 0

theorem getLsbD_iterate (hi : i < n) :
    ∀ k, (step^[k] register).getLsbD i = output register (k + i) := by
  induction i with
  | zero =>
    intro k
    rfl
  | succ i ih =>
    intro k
    have hnext := ih (Nat.lt_of_succ_lt hi) (k + 1)
    rw [iterate_succ_apply', getLsbD_step _ (Nat.lt_of_succ_lt hi), if_neg (ne_of_lt hi)] at hnext
    rw [hnext, Nat.add_assoc, Nat.add_comm 1 i]

/-- The recurrence of the output. -/
theorem output_add (hn : 0 < n) {register : BitVec n} :
    output register (k + n) = (output register (k + (n - 1)) ^^ output register k) := by
  have hlast : n - 1 + 1 = n := Nat.sub_add_cancel hn
  have hbit := getLsbD_iterate register (Nat.sub_one_lt (ne_of_gt hn)) (k + 1)
  rw [iterate_succ_apply', getLsbD_step _ (Nat.sub_one_lt (ne_of_gt hn)),
    if_pos hlast, getLsbD_iterate register (Nat.sub_one_lt (ne_of_gt hn)),
    getLsbD_iterate register hn, Nat.add_assoc, Nat.add_comm 1, hlast] at hbit
  exact hbit.symm

/-- `n` steps and one step less, together, are the register as it was. -/
theorem iterate_xor_iterate (hn : 0 < n) {register : BitVec n} :
    step^[n] register ^^^ step^[n - 1] register = register := by
  apply eq_of_getLsbD_eq
  intro i hi
  have hnow : register.getLsbD i = output register i := by
    have hzero := getLsbD_iterate register hi 0
    rwa [iterate_zero_apply, Nat.zero_add] at hzero
  rw [getLsbD_xor, getLsbD_iterate register hi, getLsbD_iterate register hi, hnow,
    Nat.add_comm n i, output_add hn, Nat.add_comm (n - 1) i]
  cases output register (i + (n - 1)) <;> cases output register i <;> rfl

end ShiftRegister

end Rem6.Lib
