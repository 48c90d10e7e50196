import Mathlib.Data.List.Basic

/-!
# Association Lists

A finite map as a list of keys with values. Inserting drops what the key had
before, so a key is found at most once however the list was built. The order of
the entries says nothing.

## Main definitions

* `find`, `insert`, `remove`: The map's operations.

## Theorems

* `find_insert`, `find_remove`: What is found after them.
-/

namespace Rem6.Lib

namespace Assoc

variable {κ β : Type} [DecidableEq κ]

variable (entries : List (κ × β))

def find (key : κ) : Option β := (entries.find? fun entry => entry.1 = key).map Prod.snd

def remove (key : κ) : List (κ × β) := entries.filter fun entry => entry.1 ≠ key

def insert (key : κ) (value : β) : List (κ × β) := (key, value) :: remove entries key

variable {key other : κ}

@[simp]
theorem find_nil : find ([] : List (κ × β)) key = none := rfl

variable {entries} {key : κ}

theorem find_remove :
    find (remove entries key) other = if other = key then none else find entries other := by
  unfold find remove
  rw [List.find?_filter]
  split
  next heq => simp [heq]
  next hne =>
    congr 2
    funext entry
    by_cases hkey : entry.1 = other
    · simp [hkey, hne]
    · simp [hkey]

theorem find_insert {value} :
    find (insert entries key value) other
      = if other = key then some value else find entries other := by
  split
  next heq => simp [heq, find, insert]
  next hne =>
    have hrest : find (remove entries key) other = find entries other := by
      rw [find_remove, if_neg hne]
    rw [← hrest]
    simp [find, insert, Ne.symm hne]

end Assoc

end Rem6.Lib
