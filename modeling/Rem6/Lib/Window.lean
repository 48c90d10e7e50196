import Mathlib.Data.List.Basic

/-!
# Windows onto a Flat Memory

A cache line is a window onto a memory that nobody holds in one piece. This
module relates the two: lists of cells, on which programs run loops, and
functions from addresses to cells, on which "the latest store to this address"
is easy to say.

`overlay` is the loop that writes a masked payload into a list, cell by cell.
`store` is the same write on a memory, said in one line. `overlay_window` is
the only bridge a proof needs: writing into a window of a memory gives the
window of the written memory. Reading is `slice_window`.

## Main definitions

* `window`: The cells of a memory from an address on.
* `overlay`: A masked payload written into a list, by a loop.
* `store`: A masked payload written into a memory.

## Theorems

* `overlay_window`: Writing into a window is windowing the written memory.
* `slice_window`: A slice of a window is a window.
-/

namespace Rem6.Lib

open List

variable {β : Type}

/-- The `length` cells of a memory from `start` on. -/
def window (memory : Nat → β) (start length : Nat) : List β :=
  (range length).map fun k => memory (start + k)

@[simp]
theorem window_length {memory : Nat → β} {start length : Nat} :
    (window memory start length).length = length := by
  simp [window]

theorem window_getElem? (mem : Nat → β) (start len k : Nat) :
    (window mem start len)[k]? = if k < len then some (mem (start + k)) else none := by
  split
  next hk => rw [window, getElem?_map, getElem?_range hk, Option.map_some]
  · exact getElem?_eq_none_iff.mpr (by rw [window_length]; omega)

/-- The loop that writes a payload into a list: cell `index` of the payload goes
    to position `offset + index`, unless the mask holds it back. -/
def overlayFrom (mask : Nat → Bool) (offset : Nat) : Nat → List β → List β → List β
  | _, [], cells => cells
  | index, cell :: rest, cells =>
    overlayFrom mask offset (index + 1) rest
      (if mask index then cells.set (offset + index) cell else cells)

/-- A masked payload written into a list at an offset. -/
def overlay (mask : Nat → Bool) (offset : Nat) (payload cells : List β) : List β :=
  overlayFrom mask offset 0 payload cells

variable {offset : Nat}

theorem overlayFrom_length {payload} {mask : Nat → Bool} :
    ∀ (idx : Nat) (cells : List β),
      (overlayFrom mask offset idx payload cells).length = cells.length := by
  induction payload with
  | nil =>
    intro idx cells
    rfl
  | cons cell rest ih =>
    intro idx cells
    rw [overlayFrom, ih]
    by_cases hm : mask idx = true
    · rw [if_pos hm, length_set]
    · rw [if_neg hm]

@[simp]
theorem overlay_length {α} {payload cells : List α} {mask : Nat → Bool} :
    (overlay mask offset payload cells).length = cells.length :=
  overlayFrom_length 0 cells

/-- What the loop leaves at a position: the payload's cell for that position,
    if the loop has one and the mask lets it through. -/
theorem overlayFrom_getElem? (mask : Nat → Bool) (offset : Nat) (payload : List β) :
    ∀ (idx : Nat) (cells : List β) (k : Nat), k < cells.length →
      (overlayFrom mask offset idx payload cells)[k]?
        = if offset + idx ≤ k ∧ k < offset + idx + payload.length ∧ mask (k - offset) = true
          then payload[k - offset - idx]? else cells[k]? := by
  induction payload with
  | nil =>
    intro idx cells k _
    rw [overlayFrom, if_neg (by simp only [length_nil]; omega)]
  | cons cell rest ih =>
    intro idx cells k hk
    rw [overlayFrom, ih (idx + 1) _ k
      (by by_cases hm : mask idx = true <;> simp only [hm, if_true, length_set] <;> exact hk)]
    by_cases hhere : k = offset + idx
    · -- The rest of the loop writes past this position.
      subst hhere
      rw [if_neg (by omega)]
      by_cases hm : mask idx = true
      · rw [if_pos hm, if_pos ⟨Nat.le_refl _, by simp only [length_cons]; omega, by
          rw [Nat.add_sub_cancel_left]; exact hm⟩]
        rw [getElem?_set_self hk, Nat.sub_sub, Nat.sub_self, getElem?_cons_zero]
      · rw [if_neg hm, if_neg]
        rintro ⟨-, -, hmask⟩
        rw [Nat.add_sub_cancel_left] at hmask
        exact hm hmask
    · have hkeep : (if mask idx = true then cells.set (offset + idx) cell else cells)[k]?
          = cells[k]? := by
        by_cases hm : mask idx = true
        · rw [if_pos hm, getElem?_set_ne (fun h => hhere h.symm)]
        · rw [if_neg hm]
      rw [hkeep]
      by_cases hin : offset + (idx + 1) ≤ k ∧ k < offset + (idx + 1) + rest.length ∧
          mask (k - offset) = true
      · rw [if_pos hin, if_pos ⟨by omega, by simp only [length_cons]; omega, hin.2.2⟩]
        have hshift : k - offset - idx = (k - offset - (idx + 1)) + 1 := by omega
        rw [hshift, getElem?_cons_succ]
      · rw [if_neg hin, if_neg]
        rintro ⟨hlo, hhi, hmask⟩
        simp only [length_cons] at hhi
        exact hin ⟨by omega, by omega, hmask⟩

/-- A masked payload written into a memory from `start` on. -/
def store (memory : Nat → β) (start : Nat) (mask : Nat → Bool) (payload : List β) : Nat → β :=
  fun address =>
    if start ≤ address ∧ mask (address - start) = true then
      payload.getD (address - start) (memory address)
    else memory address

/-- Writing into a window of a memory gives the window of the written memory. -/
theorem overlay_window (mask : Nat → Bool) (memory : Nat → β) (start length offset : Nat)
    (payload : List β) :
    overlay mask offset payload (window memory start length)
      = window (store memory (start + offset) mask payload) start length := by
  refine ext_getElem? (fun k => ?_)
  by_cases hk : k < length
  · rw [overlay, overlayFrom_getElem? mask offset payload 0 _ k
      (by rw [window_length]; exact hk), window_getElem?, window_getElem?, if_pos hk, if_pos hk]
    have hback : start + k - (start + offset) = k - offset := by omega
    by_cases hin : offset + 0 ≤ k ∧ k < offset + 0 + payload.length ∧ mask (k - offset) = true
    · have hlt : k - offset < payload.length := by omega
      rw [if_pos hin, store, if_pos ⟨by omega, by rw [hback]; exact hin.2.2⟩, hback, Nat.sub_zero,
        getD_eq_getElem?_getD, getElem?_eq_getElem hlt, Option.getD_some]
    · rw [if_neg hin, store]
      by_cases hc : start + offset ≤ start + k ∧ mask (start + k - (start + offset)) = true
      · -- Masked in but out of the loop: the position is past the payload.
        rw [hback] at hc
        have hout : payload.length ≤ k - offset := by
          by_contra hlt
          exact hin ⟨by omega, by omega, hc.2⟩
        rw [if_pos (by rw [hback]; exact hc), hback, getD_eq_getElem?_getD,
          getElem?_eq_none_iff.mpr hout, Option.getD_none]
      · rw [if_neg hc]
  · rw [getElem?_eq_none_iff.mpr (by rw [overlay_length, window_length]; omega),
      getElem?_eq_none_iff.mpr (by rw [window_length]; omega)]

/-- A slice of a window is a window. -/
theorem slice_window {mem : Nat → β} {start len size : Nat} (h : offset + size ≤ len) :
    ((window mem start len).drop offset).take size = window mem (start + offset) size := by
  refine ext_getElem? (fun k => ?_)
  rw [window_getElem?]
  by_cases hk : k < size
  · rw [getElem?_take_of_lt hk, getElem?_drop, window_getElem?, if_pos (by omega),
      if_pos hk, Nat.add_assoc]
  · rw [if_neg hk]
    refine getElem?_eq_none_iff.mpr ?_
    rw [length_take, length_drop, window_length]
    omega

end Rem6.Lib
