import SqlFilter.Proofs.StrictMode

/-!
This module contains the two readings of names with dots. Strict mode takes what stands before the
first dot for the short name of a table, and the look-up of declared types what stands before the
last one. On a name with one dot both are the same; a name with more dots may pass under the one
reading and be refused, or have the type of another table, under the other.
-/

namespace SqlFilter

namespace Schema

variable {schema : Schema} {name qualifier column : String}

theorem splitLastDot_append (h : '.' ∉ column.toList) :
    splitLastDot (qualifier ++ "." ++ column) = some (qualifier, column) := by
  have hback : (qualifier ++ "." ++ column).toList.reverse =
      column.toList.reverse ++ '.' :: qualifier.toList.reverse := by
    simp
  have hdot : '.' ∉ column.toList.reverse := by simpa using h
  simp only [splitLastDot, hback, Text.dropWhile_front hdot, Text.takeWhile_front hdot]
  simp

theorem splitLastDot_eq_some_iff :
    splitLastDot name = some (qualifier, column) ↔
      name = qualifier ++ "." ++ column ∧ '.' ∉ column.toList := by
  constructor
  . intro h
    by_cases hdot : '.' ∈ name.toList.reverse
    . obtain ⟨back, front, hname, hback⟩ := List.eq_append_cons_of_mem hdot
      have hcut : name = String.ofList front.reverse ++ "." ++ String.ofList back.reverse := by
        rw [← String.toList_inj, ← List.reverse_inj, hname]
        simp
      have hcolumn : '.' ∉ (String.ofList back.reverse).toList := by simpa using hback
      rw [hcut, splitLastDot_append hcolumn] at h
      cases h
      exact ⟨hcut, hcolumn⟩
    . unfold splitLastDot at h
      simp only [Text.dropWhile_of_not_mem hdot] at h
      cases h
  . rintro ⟨rfl, h⟩
    exact splitLastDot_append h

theorem declaredType?_append (h : '.' ∉ column.toList) :
    schema.declaredType? (qualifier ++ "." ++ column) =
      (List.lookup ((List.lookup qualifier schema.aliases).getD qualifier ++ "." ++ column)
        schema.columns).or (List.lookup column schema.columns) := by
  unfold declaredType? qualify
  simp only [splitLastDot_append h, Option.bind_some]
  cases List.lookup ((List.lookup qualifier schema.aliases).getD qualifier ++ "." ++ column)
    schema.columns <;> rfl

/-- Whether a name is that of a declared column, or what stands before its last dot is the short
name of a table. -/
def AdmitsQualified (schema : Schema) (name : String) : Prop :=
  (List.lookup name schema.columns).isSome = true ∨
    ∃ qualifier column, splitLastDot name = some (qualifier, column) ∧
      (List.lookup qualifier schema.aliases).isSome = true

theorem not_mem_of_count_le_one (h : (qualifier ++ "." ++ column).toList.count '.' ≤ 1) :
    '.' ∉ qualifier.toList ∧ '.' ∉ column.toList := by
  have hdot : (".".toList).count '.' = 1 := rfl
  simp only [String.toList_append, List.count_append, hdot] at h
  rw [← List.count_eq_zero, ← List.count_eq_zero]
  omega

theorem admits_iff_of_count_le_one (h : name.toList.count '.' ≤ 1) :
    schema.Admits name ↔ schema.AdmitsQualified name := by
  apply or_congr_right
  constructor
  . rintro ⟨qualifier, column, rfl, _, ha⟩
    exact ⟨qualifier, column, splitLastDot_append (not_mem_of_count_le_one h).2, ha⟩
  . rintro ⟨qualifier, column, hsplit, ha⟩
    obtain ⟨rfl, _⟩ := splitLastDot_eq_some_iff.1 hsplit
    exact ⟨qualifier, column, rfl, (not_mem_of_count_le_one h).1, ha⟩

end Schema

namespace Compiler

variable {c : Compiler} {name : String}

theorem column_eq_of_check (hs : c.config.strictFields = true)
    (hv : Identifier.check name = .ok ()) :
    c.column name = if c.schema.isAllowed name then .ok (c.schema.identifierText name)
      else .error (.strictField name) := by
  have hcheck : checkField name = .ok () := by
    rw [checkField, hv]
    rfl
  rw [column, hcheck, ok_bind, hs, Bool.true_and]
  cases c.schema.isAllowed name <;> rfl

structure ReadsQualifier (c : Compiler) (name : String) : Prop where
  accepts : (∃ sql, c.column name = .ok sql) ↔ c.schema.Admits name
  refuses : ¬c.schema.Admits name → c.column name = .error (.strictField name)
  typed : ∀ qualifier column, Schema.splitLastDot name = some (qualifier, column) →
    c.schema.declaredType? name =
      (List.lookup ((List.lookup qualifier c.schema.aliases).getD qualifier ++ "." ++ column)
        c.schema.columns).or (List.lookup column c.schema.columns)
  cut : ∀ qualifier column, Schema.splitLastDot name = some (qualifier, column) ↔
    name = qualifier ++ "." ++ column ∧ '.' ∉ column.toList
  agrees : name.toList.count '.' ≤ 1 → (c.schema.Admits name ↔ c.schema.AdmitsQualified name)

theorem readsQualifier_column (hs : c.config.strictFields = true)
    (hv : Identifier.check name = .ok ()) : c.ReadsQualifier name where
  accepts := by
    rw [column_eq_of_check hs hv, ← Schema.isAllowed_iff]
    cases c.schema.isAllowed name <;> simp
  refuses h := by
    rw [← Schema.isAllowed_iff, Bool.not_eq_true] at h
    rw [column_eq_of_check hs hv, h]
    rfl
  typed qualifier column h := by
    obtain ⟨rfl, hc⟩ := Schema.splitLastDot_eq_some_iff.1 h
    exact Schema.declaredType?_append hc
  cut _ _ := Schema.splitLastDot_eq_some_iff
  agrees := Schema.admits_iff_of_count_le_one

def dottedAliases : Schema where
  columns := [("users.id", "int(11)")]
  aliases := [("u", "users"), ("s.u", "users")]

theorem readsQualifier_shortName :
    ((standard dottedAliases).withStrictFields true).config.strictFields = true ∧
      Identifier.check "u.id" = .ok () ∧ dottedAliases.AdmitsQualified "u.id" ∧
      ∃ sql, ((standard dottedAliases).withStrictFields true).column "u.id" = .ok sql := by
  have hv : Identifier.check "u.id" = .ok () := rfl
  have h := readsQualifier_column (c := (standard dottedAliases).withStrictFields true) rfl hv
  have hcut := (h.cut "u" "id").2 (by decide +kernel)
  have hqualified : dottedAliases.AdmitsQualified "u.id" :=
    .inr ⟨"u", "id", hcut, by decide +kernel⟩
  exact ⟨rfl, hv, hqualified, h.accepts.2 ((h.agrees (by decide +kernel)).2 hqualified)⟩

/-- With two dots, a name passes whose table is none for the look-up of its type, and one is refused
whose type is found through a short name. -/
theorem not_agrees_threeSegments :
    let c := (standard dottedAliases).withStrictFields true
    Identifier.check "u.s.id" = .ok () ∧ c.column "u.s.id" = .ok "u.s.id" ∧
      ¬c.schema.AdmitsQualified "u.s.id" ∧
      Identifier.check "s.u.id" = .ok () ∧ c.column "s.u.id" = .error (.strictField "s.u.id") ∧
      c.schema.AdmitsQualified "s.u.id" ∧ c.schema.declaredType? "s.u.id" = some "int(11)" := by
  intro c
  have hcut : Schema.splitLastDot "u.s.id" = some ("u.s", "id") := by decide +kernel
  refine ⟨rfl, ?_, ?_, rfl, ?_, .inr ⟨"s.u", "id", ?_, ?_⟩, ?_⟩
  . rw [column_eq_of_check rfl rfl, if_pos (by decide +kernel)]
    rfl
  . rintro (h | ⟨qualifier, column, h, ha⟩)
    . exact absurd h (by decide +kernel)
    . rw [hcut] at h
      cases h
      exact absurd ha (by decide +kernel)
  . rw [column_eq_of_check rfl rfl, if_neg (by decide +kernel)]
  . decide +kernel
  . decide +kernel
  . decide +kernel

end Compiler

end SqlFilter
