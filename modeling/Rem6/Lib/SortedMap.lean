import Mathlib.Data.List.Pairwise
import Mathlib.Order.Lattice

/-!
# Sorted Maps

A map whose values know their keys, as the list of its values in the order of
the keys. Inserting puts a value at its place and takes out what had its key
before, so iterating over the map is iterating over the list.

A list in order has no two values of one key, and it is rebuilt by inserting its
values one after another, in any order (`ofList_perm`): a map is determined by
what iterating over it shows.

## Main definitions

* `Sorted`: A list in strictly increasing order of keys.
* `insert`, `erase`, `get`: The map's operations.
* `ofList`: The map of values in any order.
* `Dict`: Keys with values.

## Theorems

* `mem_insert`: What is in a map after an insertion.
* `sorted_insert`, `sorted_filter`: The order is kept.
* `length_insert_le`: An insertion adds at most one value.
* `ofList_perm`: A sorted list is the map of its values, in any order.
* `Dict.find_put`: What is found after a put.
-/

namespace Rem6.Lib

open List

namespace SortedMap

variable {α κ : Type} [LinearOrder κ] (key : α → κ)

/-- The keys increase strictly. -/
def Sorted (values : List α) : Prop := values.Pairwise fun a b => key a < key b

def insert (value : α) : List α → List α
  | [] => [value]
  | head :: rest =>
    if key value < key head then value :: head :: rest
    else if key value = key head then value :: rest
    else head :: insert value rest

/-- The value under a key. -/
def get (k : κ) (values : List α) : Option α := values.find? fun value => key value = k

def erase (k : κ) (values : List α) : List α := values.filter fun value => key value ≠ k

/-- The map of values; of two values with one key the later one stays. -/
def ofList (values : List α) : List α := values.foldl (fun map value => insert key value map) []

variable {key}

variable {values : List α} {a value : α}

theorem Sorted.eq_of_key_eq {b} (h : Sorted key values) (ha : a ∈ values) (hb : b ∈ values)
    (hkey : key a = key b) : a = b := by
  induction values with
  | nil => cases ha
  | cons head rest ih =>
    rw [Sorted, pairwise_cons] at h
    rcases mem_cons.mp ha with rfl | harest
    · rcases mem_cons.mp hb with rfl | hbrest
      · rfl
      · exact absurd hkey (ne_of_lt (h.1 b hbrest))
    · rcases mem_cons.mp hb with rfl | hbrest
      · exact absurd hkey.symm (ne_of_lt (h.1 a harest))
      · exact ih h.2 harest hbrest

/-- After an insertion a map has the new value and what had other keys. -/
theorem mem_insert (h : Sorted key values) :
    a ∈ insert key value values ↔ a = value ∨ a ∈ values ∧ key a ≠ key value := by
  induction values with
  | nil => simp [insert]
  | cons head rest ih =>
    rw [Sorted, pairwise_cons] at h
    unfold insert
    by_cases hlt : key value < key head
    · -- Everything in the map has a larger key.
      rw [if_pos hlt, mem_cons]
      refine or_congr_right ⟨fun hmem => ⟨hmem, ?_⟩, fun hmem => hmem.1⟩
      rcases mem_cons.mp hmem with rfl | hmem
      · exact ne_of_gt hlt
      · exact ne_of_gt (lt_trans hlt (h.1 a hmem))
    · rw [if_neg hlt]
      split
      next heq =>
        rw [mem_cons, mem_cons]
        refine or_congr_right ⟨fun hmem => ⟨.inr hmem, ?_⟩, ?_⟩
        · rw [heq]
          exact ne_of_gt (h.1 a hmem)
        · rintro ⟨rfl | hmem, hne⟩
          · exact absurd heq.symm hne
          · exact hmem
      next heq =>
        rw [mem_cons, mem_cons, ih h.2]
        constructor
        · rintro (rfl | rfl | hmem)
          · exact .inr ⟨.inl rfl, Ne.symm heq⟩
          · exact .inl rfl
          · exact .inr ⟨.inr hmem.1, hmem.2⟩
        · rintro (rfl | ⟨rfl | hmem, hne⟩)
          · exact .inr (.inl rfl)
          · exact .inl rfl
          · exact .inr (.inr ⟨hmem, hne⟩)

theorem sorted_insert (h : Sorted key values) (value : α) :
    Sorted key (insert key value values) := by
  induction values with
  | nil => exact pairwise_singleton _ _
  | cons head rest ih =>
    have hrest : Sorted key rest := (pairwise_cons.mp h).2
    have hhead := (pairwise_cons.mp h).1
    unfold insert
    split
    next hlt =>
      refine pairwise_cons.mpr ⟨fun b hb => ?_, h⟩
      rcases mem_cons.mp hb with rfl | hb
      · exact hlt
      · exact lt_trans hlt (hhead b hb)
    next hlt =>
      by_cases heq : key value = key head
      · rw [if_pos heq]
        exact pairwise_cons.mpr ⟨fun b hb => heq ▸ hhead b hb, hrest⟩
      · rw [if_neg heq]
        refine pairwise_cons.mpr ⟨fun b hb => ?_, ih hrest⟩
        rcases (mem_insert hrest).mp hb with rfl | ⟨hb, -⟩
        · exact lt_of_le_of_ne (not_lt.mp hlt) (Ne.symm heq)
        · exact hhead b hb

theorem sorted_filter (h : Sorted key values) (keep : α → Bool) : Sorted key (values.filter keep) :=
  Pairwise.filter keep h

theorem sorted_map (h : Sorted key values) {change : α → α} (hkey : ∀ a, key (change a) = key a) :
    Sorted key (values.map change) := by
  rw [Sorted, pairwise_map]
  exact h.imp fun hlt => by rwa [hkey, hkey]

theorem length_insert_le : (insert key value values).length ≤ values.length + 1 := by
  induction values with
  | nil => exact le_rfl
  | cons head rest ih =>
    unfold insert
    split
    · exact le_rfl
    · split
      · exact Nat.le_succ _
      · exact Nat.succ_le_succ ih

theorem length_insert_of_mem (h : Sorted key values) (ha : a ∈ values) (hkey : key a = key value) :
    (insert key value values).length = values.length := by
  induction values with
  | nil => cases ha
  | cons head rest ih =>
    have hrest : Sorted key rest := (pairwise_cons.mp h).2
    have hhead := (pairwise_cons.mp h).1
    unfold insert
    rcases mem_cons.mp ha with rfl | ha
    · rw [if_neg (by rw [hkey]; exact lt_irrefl _), if_pos hkey.symm]
      rfl
    · have hlt : key head < key value := hkey ▸ hhead a ha
      rw [if_neg (not_lt_of_gt hlt), if_neg (ne_of_gt hlt), length_cons, ih hrest ha, length_cons]

theorem insert_of_forall_lt (h : (∀ a ∈ values, key a < key value)) :
    insert key value values = values ++ [value] := by
  induction values with
  | nil => rfl
  | cons head rest ih =>
    have hhead := h head mem_cons_self
    rw [insert, if_neg (not_lt_of_gt hhead), if_neg (ne_of_gt hhead),
      ih (fun a ha => h a (mem_cons_of_mem _ ha)), cons_append]

/-! ## Looking up -/

variable {k k' : κ} {first second map sorted : List α}

theorem get_eq_some (h : get key k values = some value) : value ∈ values ∧ key value = k := by
  have hkey := find?_some h
  rw [decide_eq_true_eq] at hkey
  exact ⟨mem_of_find?_eq_some h, hkey⟩

theorem get_of_mem (h : Sorted key values) (hmem : value ∈ values) :
    get key (key value) values = some value := by
  cases hfind : get key (key value) values with
  | none => exact absurd (decide_eq_true rfl) (find?_eq_none.1 hfind value hmem)
  | some found =>
    obtain ⟨hfound, hkey⟩ := get_eq_some hfind
    exact congrArg some (h.eq_of_key_eq hfound hmem hkey)

theorem get_eq_none_iff : get key k values = none ↔ ∀ value ∈ values, key value ≠ k := by
  unfold get
  rw [find?_eq_none]
  simp

theorem mem_erase : a ∈ erase key k values ↔ a ∈ values ∧ key a ≠ k := by
  unfold erase
  rw [mem_filter, decide_eq_true_eq]

/-! ## Maps of lists -/

theorem Sorted.eq_of_mem_iff (hfirst : Sorted key first) (hsecond : Sorted key second)
    (h : ∀ a, a ∈ first ↔ a ∈ second) : first = second := by
  have hnd : ∀ {values : List α}, Sorted key values → values.Nodup := fun hsorted =>
    Pairwise.imp (fun hlt => ne_of_apply_ne key (ne_of_lt hlt)) hsorted
  have hperm := (perm_ext_iff_of_nodup (hnd hfirst) (hnd hsecond)).2 h
  refine hperm.eq_of_pairwise (fun a b _ _ hab hba => ?_) hfirst hsecond
  exact absurd hab (lt_asymm hba)

theorem sorted_foldl_insert (values : List α) :
    ∀ {map : List α}, Sorted key map →
      Sorted key (values.foldl (fun map value => insert key value map) map) := by
  induction values with
  | nil =>
    intro map h
    exact h
  | cons head rest ih =>
    intro map h
    exact ih (sorted_insert h head)

theorem mem_foldl_insert (hdis : values.Pairwise fun a b => key a ≠ key b) :
    ∀ {map : List α}, Sorted key map → (∀ a ∈ map, ∀ b ∈ values, key a ≠ key b) →
      ∀ a, a ∈ values.foldl (fun map value => insert key value map) map ↔ a ∈ map ∨ a ∈ values := by
  induction values with
  | nil =>
    intro map _ _ a
    simp
  | cons head rest ih =>
    intro map hmap hapart a
    obtain ⟨hhead, hrest⟩ := pairwise_cons.1 hdis
    have hkept : ∀ a, a ∈ insert key head map ↔ a = head ∨ a ∈ map := fun a => by
      rw [mem_insert hmap]
      exact or_congr_right (and_iff_left_of_imp fun ha => hapart a ha head mem_cons_self)
    rw [foldl_cons, ih hrest (sorted_insert hmap head), hkept, mem_cons, or_assoc, or_left_comm]
    · intro a ha b hb
      rcases (hkept a).1 ha with rfl | ha
      · exact hhead b hb
      · exact hapart a ha b (mem_cons_of_mem _ hb)

/-- A rearrangement of a sorted list gives the same map. -/
theorem ofList_perm (hperm : values.Perm sorted) (hsorted : Sorted key sorted) :
    ofList key values = sorted := by
  have hdis : values.Pairwise fun a b => key a ≠ key b :=
    (hperm.pairwise_iff Ne.symm).2 (hsorted.imp ne_of_lt)
  refine (sorted_foldl_insert values Pairwise.nil).eq_of_mem_iff hsorted fun a => ?_
  rw [mem_foldl_insert hdis Pairwise.nil fun a ha => absurd ha not_mem_nil]
  simp [hperm.mem_iff]

/-! ## Keys with values -/

/-- Keys with values, in the order of the keys. -/
structure Dict (κ β : Type) [LinearOrder κ] where
  entries : List (κ × β)
  sorted : Sorted Prod.fst entries

namespace Dict

variable {β ε : Type} {d : Dict κ β} {k : κ} {v : β}

def empty : Dict κ β := ⟨[], Pairwise.nil⟩

def find (d : Dict κ β) (k : κ) : Option β := (get Prod.fst k d.entries).map Prod.snd

def put (d : Dict κ β) (k : κ) (v : β) : Dict κ β :=
  ⟨SortedMap.insert Prod.fst (k, v) d.entries, sorted_insert d.sorted _⟩

theorem find_eq_some : d.find k = some v ↔ (k, v) ∈ d.entries := by
  rw [find, Option.map_eq_some_iff]
  constructor
  · rintro ⟨entry, hget, rfl⟩
    obtain ⟨hmem, rfl⟩ := get_eq_some hget
    exact hmem
  · intro hmem
    exact ⟨(k, v), get_of_mem d.sorted hmem, rfl⟩

theorem find_put : (d.put k v).find k' = if k' = k then some v else d.find k' := by
  refine Option.ext fun w => ?_
  rw [find_eq_some, put, mem_insert d.sorted, Prod.mk.injEq]
  by_cases h : k' = k
  · simp [h, eq_comm]
  · simp [h, find_eq_some]

end Dict

end SortedMap

end Rem6.Lib
