/-!
This module contains dictionaries with text keys: lists of entries in the order in which the keys
first came. `lookup_insert` and `lookup_erase` say what a change does to the entry of each key.
-/

namespace SqlFilter

abbrev Dictionary (α : Type) := List (String × α)

namespace Dictionary

variable {α : Type}

def insert (key : String) (value : α) : Dictionary α → Dictionary α
  | [] => [(key, value)]
  | (k, v) :: rest => if k = key then (key, value) :: rest else (k, v) :: insert key value rest

def erase (key : String) (d : Dictionary α) : Dictionary α :=
  d.filter fun entry => entry.1 ≠ key

def ofEntries (entries : List (String × α)) : Dictionary α :=
  entries.foldl (fun d entry => insert entry.1 entry.2 d) []

theorem lookup_cons (key k : String) (v : α) (rest : Dictionary α) :
    List.lookup key ((k, v) :: rest) = if key = k then some v else List.lookup key rest := by
  by_cases h : key = k
  . simp [h]
  . have : (key == k) = false := beq_false_of_ne h
    rw [List.lookup_cons, this, if_neg h]

theorem lookup_insert (d : Dictionary α) (key other : String) (value : α) :
    List.lookup other (insert key value d) =
      if other = key then some value else List.lookup other d := by
  induction d with
  | nil => simp only [insert, lookup_cons]
  | cons entry rest ih => grind [insert, lookup_cons]

theorem lookup_erase (d : Dictionary α) (key other : String) :
    List.lookup other (erase key d) = if other = key then none else List.lookup other d := by
  induction d with
  | nil => simp [erase]
  | cons entry rest ih =>
    obtain ⟨k, v⟩ := entry
    by_cases hk : k = key
    . have : erase key ((k, v) :: rest) = erase key rest := by simp [erase, hk]
      rw [this, ih, lookup_cons]
      grind
    . have : erase key ((k, v) :: rest) = (k, v) :: erase key rest := by simp [erase, hk]
      rw [this, lookup_cons, lookup_cons, ih]
      grind

end Dictionary

end SqlFilter
