import SqlFilter.Proofs.ColumnCheck
import SqlFilter.Proofs.LeafRule
import SqlFilter.Proofs.Separator

/-!
This module contains the proof that strict mode checks every name of a column, wherever in a filter it
stands, and changes nothing else.
-/

namespace SqlFilter

namespace Schema

variable {schema : Schema} {name : String}

/-- Whether a name is that of a declared column, or what stands before its first dot is the short name
of a table. -/
def Admits (schema : Schema) (name : String) : Prop :=
  (List.lookup name schema.columns).isSome = true ∨
    ∃ qualifier rest, name = qualifier ++ "." ++ rest ∧ '.' ∉ qualifier.toList ∧
      (List.lookup qualifier schema.aliases).isSome = true

theorem beforeFirstDot_eq_some_iff {qualifier : String} :
    beforeFirstDot name = some qualifier ↔
      ∃ rest, name = qualifier ++ "." ++ rest ∧ '.' ∉ qualifier.toList := by
  unfold beforeFirstDot
  constructor
  . intro h
    split at h
    . next hdot =>
      obtain ⟨front, rest, hname, hfront⟩ := List.eq_append_cons_of_mem (List.contains_iff_mem.1 hdot)
      rw [hname, Text.takeWhile_front hfront] at h
      cases h
      refine ⟨String.ofList rest, ?_, by simpa using hfront⟩
      rw [← String.toList_inj, hname]
      simp
    . cases h
  . rintro ⟨rest, rfl, hdot⟩
    have hlist : (qualifier ++ "." ++ rest).toList = qualifier.toList ++ '.' :: rest.toList := by
      simp
    rw [hlist, Text.takeWhile_front hdot, if_pos (by simp), String.ofList_toList]

theorem isAllowed_iff : schema.isAllowed name = true ↔ schema.Admits name := by
  unfold isAllowed Admits isKnown
  rw [Bool.or_eq_true]
  apply or_congr_right
  constructor
  . intro h
    split at h
    . next qualifier hq =>
      obtain ⟨rest, hname, hdot⟩ := beforeFirstDot_eq_some_iff.1 hq
      exact ⟨qualifier, rest, hname, hdot, h⟩
    . cases h
  . rintro ⟨qualifier, rest, hname, hdot, h⟩
    rw [beforeFirstDot_eq_some_iff.2 ⟨rest, hname, hdot⟩]
    exact h

end Schema

namespace Compiler

def withStrictFields (c : Compiler) (strict : Bool) : Compiler :=
  { c with config := { c.config with strictFields := strict } }

variable (c : Compiler)

theorem column_guarded (name : String) :
    Guarded (c.schema.Admits name) ((c.withStrictFields true).column name)
      ((c.withStrictFields false).column name) := by
  have hvalid : Guarded True (checkField name) (checkField name) := .refl trivial _
  unfold column
  apply (hvalid.bind (q := c.schema.Admits name) ?_).congr (by rw [true_and])
  intro _
  simp only [withStrictFields, Bool.true_and, Bool.false_and, Bool.false_eq_true, if_false]
  cases h : c.schema.isAllowed name with
  | true => exact .refl (Schema.isAllowed_iff.1 h) _
  | false =>
    have hnot : ¬c.schema.Admits name := fun ha => by
      rw [Schema.isAllowed_iff.2 ha] at h
      cases h
    exact ⟨fun ha => absurd ha hnot, by rintro a ⟨⟩⟩

theorem guards_withStrictFields :
    (c.withStrictFields true).Guards c.schema.Admits (c.withStrictFields false) where
  column := c.column_guarded
  resolve? _ := rfl
  schema := rfl
  templates := rfl

theorem framesAs_withStrictFields (strict strict' : Bool) :
    (c.withStrictFields strict).FramesAs (c.withStrictFields strict') := ⟨rfl, rfl, rfl⟩

theorem decodesAs_withStrictFields (strict strict' : Bool) :
    (c.withStrictFields strict).DecodesAs (c.withStrictFields strict') := ⟨fun _ => rfl, rfl, rfl⟩

theorem columnsOfInput_withStrictFields (strict : Bool) (input : WhereInput) :
    (c.withStrictFields strict).columnsOfInput input = c.columnsOfInput input := by
  have hgroup := (c.decodesAs_withStrictFields strict c.config.strictFields).groupOf_eq input
  unfold columnsOfInput
  rw [hgroup]
  rfl

theorem compile_strict_iff (input : WhereInput) (compiled : Compiled) :
    (c.withStrictFields true).compile input = .ok compiled ↔
      (c.withStrictFields false).compile input = .ok compiled ∧
        ∀ name ∈ c.columnsOfInput input, c.schema.Admits name := by
  have h := c.guards_withStrictFields.compile (c.framesAs_withStrictFields true false)
    (c.decodesAs_withStrictFields true false) input
  rw [columnsOfInput_withStrictFields] at h
  exact h.eq_ok_iff

-- the names of a sub-query's filter count, and so does the other side of a comparison with a column
example : (standard {}).columnsOfInput (.group
    [(.and, .condition (.ofOperator "a|b" .equal (.value .null))),
     (.and, .condition (.existing ⟨"t", [(.and, .condition (.columns "t.x" "=" "y"))], {}⟩))]) =
    ["a", "b", "t.x", "y"] := by
  decide +kernel

end Compiler

end SqlFilter
