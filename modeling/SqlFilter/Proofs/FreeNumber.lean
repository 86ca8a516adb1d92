import Mathlib.Data.List.Nodup
import Mathlib.Data.List.Perm.Subperm
import SqlFilter.Proofs.Draft

/-!
This module contains the search for the number of the next generated name. `freeNumber` bounds the
search by the number of binds; the bound is never what ends it, because different numbers give
different names and no table has more names than binds.
-/

namespace SqlFilter

namespace BindTable

variable (table : BindTable)

structure IsLeastFree (start number : Nat) : Prop where
  le : start ≤ number
  free : table.isRegistered (table.generated number) = false
  least : ∀ m, start ≤ m → m < number → table.isRegistered (table.generated m) = true

variable {table}

theorem IsLeastFree.unique {start m n : Nat} (hm : table.IsLeastFree start m)
    (hn : table.IsLeastFree start n) : m = n := by
  rcases Nat.lt_trichotomy m n with h | h | h
  . exact absurd (hn.least m hm.le h) (by simp [hm.free])
  . exact h
  . exact absurd (hm.least n hn.le h) (by simp [hn.free])

theorem exists_free (start : Nat) :
    ∃ m, start ≤ m ∧ m ≤ start + table.binds.length ∧
      table.isRegistered (table.generated m) = false := by
  by_contra hall
  let names := (List.range' start (table.binds.length + 1)).map table.generated
  have hnodup : names.Nodup := List.Nodup.map (fun m n h => generated_inj.1 h) List.nodup_range'
  have hsub : names ⊆ table.binds.map Bind.name := by
    intro name hm
    obtain ⟨m, hr, rfl⟩ := List.mem_map.1 hm
    obtain ⟨hl, hu⟩ := List.mem_range'_1.1 hr
    rw [← isRegistered_iff, ← Bool.not_eq_false]
    exact fun hfree => hall ⟨m, hl, by omega, hfree⟩
  have hlength := (List.subperm_of_subset hnodup hsub).length_le
  rw [List.length_map, List.length_map, List.length_range'] at hlength
  omega

theorem go_spec (fuel start : Nat) :
    start ≤ freeNumber.go table fuel start ∧ freeNumber.go table fuel start ≤ start + fuel ∧
      (∀ m, start ≤ m → m < freeNumber.go table fuel start →
        table.isRegistered (table.generated m) = true) ∧
        (freeNumber.go table fuel start < start + fuel →
          table.isRegistered (table.generated (freeNumber.go table fuel start)) = false) := by
  induction fuel generalizing start with
  | zero =>
    rw [freeNumber.go]
    exact ⟨Nat.le_refl _, Nat.le_refl _, by omega, by omega⟩
  | succ fuel ih =>
    rw [freeNumber.go]
    split
    . next htaken =>
      obtain ⟨hle, hbound, hleast, hfree⟩ := ih (start + 1)
      refine ⟨by omega, by omega, ?_, fun hlt => hfree (by omega)⟩
      intro m hl hu
      rcases Nat.eq_or_lt_of_le hl with rfl | hl
      . exact htaken
      . exact hleast m hl hu
    . next hfree => exact ⟨Nat.le_refl _, by omega, by omega, fun _ => by simpa using hfree⟩

theorem isLeastFree_go {fuel : Nat} (hf : table.binds.length ≤ fuel) (start : Nat) :
    table.IsLeastFree start (freeNumber.go table fuel start) := by
  obtain ⟨hle, hbound, hleast, hfree⟩ := table.go_spec fuel start
  refine ⟨hle, ?_, hleast⟩
  rcases Nat.eq_or_lt_of_le hbound with he | hlt
  . -- all numbers before the last one are taken, so that the free one is the last one
    obtain ⟨m, hl, hu, hm⟩ := table.exists_free start
    rcases Nat.lt_or_ge m (freeNumber.go table fuel start) with hlt | hge
    . rw [hleast m hl hlt] at hm
      cases hm
    . rwa [show m = freeNumber.go table fuel start by omega] at hm
  . exact hfree hlt

theorem isLeastFree_freeNumber (start : Nat) :
    table.IsLeastFree start (table.freeNumber start) :=
  isLeastFree_go (Nat.le_refl _) start

theorem freeNumber_le (start : Nat) : table.freeNumber start ≤ start + table.binds.length :=
  (table.go_spec table.binds.length start).2.1

end BindTable

end SqlFilter
