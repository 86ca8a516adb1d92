import SqlFilter.Proofs.ColumnCheck
import SqlFilter.Proofs.KeyCompile
import SqlFilter.Proofs.PlainKey
import SqlFilter.Proofs.Writes

/-!
This module contains the proof that maps from plain names to scalars always compile, to comparisons
with one placeholder each. A value is bound under the next generated name, whatever it is; only a text
that spells the placeholder of a value before it stands for that value.
-/

namespace SqlFilter

open Binder

def Json.isScalar : Json → Bool
  | .bool _ => true
  | .int _ => true
  | .float _ => true
  | .string _ => true
  | _ => false

def numberedPlaceholder (stem : String) (number : Nat) : String :=
  ":" ++ stem ++ Decimal.natText number

namespace Value

def spelled? (stem : String) (count : Nat) : Value → Option String
  | .text s => if ∃ i, i < count ∧ s = numberedPlaceholder stem (i + 1) then some s else none
  | _ => none

theorem isNull_ofJson {value : Json} (h : value.isScalar = true) :
    (Value.ofJson value).isNull = false := by
  cases value with
  | int n =>
    simp only [Value.ofJson]
    split <;> rfl
  | bool b => rfl
  | float x => rfl
  | string s => rfl
  | _ => cases h

def placeholders (stem : String) : Nat → List Value → List String
  | _, [] => []
  | count, v :: vs =>
    match v.spelled? stem count with
    | some s => s :: placeholders stem count vs
    | none => numberedPlaceholder stem (count + 1) :: placeholders stem (count + 1) vs

/-- The values that are bound: all but those that spell placeholders of values before them. -/
def bound (stem : String) : Nat → List Value → List Value
  | _, [] => []
  | count, v :: vs =>
    match v.spelled? stem count with
    | some _ => bound stem count vs
    | none => v :: bound stem (count + 1) vs

def Independent (stem : String) (count : Nat) (vs : List Value) : Prop :=
  ∀ i (h : i < vs.length), vs[i].spelled? stem (count + i) = none

variable {stem : String} {count : Nat} {vs : List Value}

theorem Independent.cons_iff {v : Value} :
    Independent stem count (v :: vs) ↔
      v.spelled? stem count = none ∧ Independent stem (count + 1) vs := by
  constructor
  . intro h
    refine ⟨h 0 (Nat.succ_pos _), fun i hi => ?_⟩
    rw [Nat.add_right_comm]
    exact h (i + 1) (Nat.succ_lt_succ hi)
  . rintro ⟨hv, h⟩ i hi
    cases i with
    | zero => exact hv
    | succ i =>
      have := h i (Nat.lt_of_succ_lt_succ hi)
      rwa [Nat.add_right_comm] at this

theorem Independent.placeholders_eq (h : Independent stem count vs) :
    placeholders stem count vs =
      (List.range' (count + 1) vs.length).map (numberedPlaceholder stem) := by
  induction vs generalizing count with
  | nil => rfl
  | cons v vs ih =>
    obtain ⟨hv, h⟩ := cons_iff.1 h
    rw [placeholders, hv]
    dsimp only
    rw [ih h]
    rfl

theorem Independent.bound_eq (h : Independent stem count vs) : bound stem count vs = vs := by
  induction vs generalizing count with
  | nil => rfl
  | cons v vs ih =>
    obtain ⟨hv, h⟩ := cons_iff.1 h
    rw [bound, hv]
    dsimp only
    rw [ih h]

end Value

namespace BindTable

variable {table : BindTable}

theorem placeholder_eq (number : Nat) :
    table.placeholder number = numberedPlaceholder table.stem number := by
  rw [placeholder, generated, numberedPlaceholder, String.append_assoc]

theorem Numbered.reference?_placeholder (h : table.Numbered) {i : Nat} (hi : i < table.counter) :
    table.reference? (.text (table.placeholder (i + 1))) = some (table.placeholder (i + 1)) := by
  have hlist : (table.placeholder (i + 1)).toList = ':' :: (table.generated (i + 1)).toList := by
    simp [placeholder]
  have hregistered : table.isRegistered (table.generated (i + 1)) = true :=
    h.mem_names_iff.2 ⟨i, hi, rfl⟩
  simp only [reference?, hlist, String.ofList_toList, hregistered, if_true]

theorem Numbered.reference?_eq (h : table.Numbered) (v : Value) :
    table.reference? v = v.spelled? table.stem table.counter := by
  cases v with
  | text s =>
    rw [Value.spelled?]
    split
    . next hex =>
      obtain ⟨i, hi, rfl⟩ := hex
      rw [← placeholder_eq]
      exact h.reference?_placeholder hi
    . next hex =>
      cases hr : table.reference? (.text s) with
      | none => rfl
      | some t =>
        obtain ⟨ht, i, hi, he⟩ := h.eq_placeholder_of_reference? hr
        cases ht
        exact absurd ⟨i, hi, he.trans (placeholder_eq _)⟩ hex
  | _ => rfl

theorem Numbered.scalar_of_some (h : table.Numbered) {v : Value} {s : String}
    (hs : v.spelled? table.stem table.counter = some s) (type : BindType) :
    (Piece.scalar type v).written table = s ∧ (Piece.scalar type v).after table = table := by
  simp only [Piece.written, Piece.after, h.reference?_eq, hs, and_self]

theorem Numbered.scalar_of_none (h : table.Numbered) {v : Value}
    (hs : v.spelled? table.stem table.counter = none) (type : BindType) :
    (Piece.scalar type v).written table = numberedPlaceholder table.stem (table.counter + 1) ∧
      (Piece.scalar type v).after table = table.push v type := by
  have hnext := h.value_next (p := .scalar type v) rfl fun type w he => by
    cases he
    rw [h.reference?_eq, hs]
  rwa [placeholder_eq] at hnext

end BindTable

theorem joinParts_map (connective : Connective) {texts : List String}
    (h : ∀ text ∈ texts, text ≠ "") :
    joinParts (texts.map (connective, ·)) = (" " ++ connective.sql ++ " ").intercalate texts := by
  induction texts with
  | nil => rfl
  | cons first texts ih =>
    simp only [List.mem_cons, forall_eq_or_imp] at h
    cases texts with
    | nil =>
      rw [String.intercalate_singleton]
      exact joinParts_singleton connective first
    | cons second texts =>
      rw [String.intercalate_cons_cons, ← ih h.2]
      exact joinParts_cons h.1 (h.2 second List.mem_cons_self)

namespace Compiler

variable {c : Compiler} {name : String} {v : Value}

theorem testText_scalar (hstrict : c.config.strictFields = false)
    (he : c.operators.resolve? Operator.equal.token = some .equal)
    (hn : Identifier.check name = .ok ()) (hv : v.isNull = false) (table : BindTable) :
    ∃ type, c.testText (.column name) ⟨Operator.equal.token, none, .and⟩ (.value v) table =
      .ok (c.schema.identifierText name ++ " = " ++ (Piece.scalar type v).written table,
        (Piece.scalar type v).after table) := by
  have hcolumn := column_of_check hstrict hn
  have hsql : (c.schema.identifierText name).isEmpty = false := by
    simpa using (Schema.isIdentifier_column hcolumn).endsSolid.ne_empty
  have hoperand (type : BindType) :
      Operator.equal.compareText (c.schema.identifierText name) type (.value v) table =
        .ok (c.schema.identifierText name ++ " = " ++ (Piece.scalar type v).written table,
          (Piece.scalar type v).after table) := by
    rw [Operator.compareText_value hv, run_bind, scalar_eq]
    simp only [Operator.applied, Operator.sql, Operator.token, String.append_assoc]
    rfl
  refine ⟨c.bindType ⟨Operator.equal.token, none, .and⟩ .equal (some name), ?_⟩
  have hleft : c.leftSide (.column name) table =
      .ok (⟨c.schema.identifierText name, some name⟩, table) := by
    rw [leftSide, run_lift_bind, hcolumn]
    rfl
  have hresolve : c.operators.resolve Operator.equal.token = .ok .equal := by
    rw [OperatorTable.resolve, he]
  rw [testText_eq, run_bind, hleft, ok_bind, run_lift_bind, hresolve, ok_bind]
  unfold operandText
  rw [hsql, Bool.false_and, if_neg Bool.false_ne_true]
  exact hoperand _

def equation (field : String × Json) : Condition :=
  .of (.ofName field.1) Operator.equal.token (.value (.ofJson field.2))

def equations (fields : List (String × Json)) : Group :=
  Group.all (fields.map fun field => .group [(.and, .condition (equation field))])

def valuesOf (fields : List (String × Json)) : List Value :=
  fields.map fun field => .ofJson field.2

theorem valuesOf_cons (field : String × Json) (fields : List (String × Json)) :
    valuesOf (field :: fields) = .ofJson field.2 :: valuesOf fields := rfl

theorem length_valuesOf (fields : List (String × Json)) :
    (valuesOf fields).length = fields.length :=
  List.length_map _

variable (c) in
def comparisons (names placeholders : List String) : List String :=
  (names.zip placeholders).map fun (name, placeholder) =>
    "( " ++ c.schema.identifierText name ++ " = " ++ placeholder ++ " )"

theorem comparisons_ne_empty (names placeholders : List String) :
    ∀ text ∈ c.comparisons names placeholders, text ≠ "" := by
  intro text hm
  obtain ⟨pair, _, rfl⟩ := List.mem_map.1 hm
  simp

theorem parts_cons_eq_ok {connective : Connective} {clause : Clause}
    {clauses : List (Connective × Clause)} {text : String} {others : List (Connective × String)}
    {table next last : BindTable} (h : c.clauseText clause table = .ok (text, next))
    (hrest : c.parts clauses next = .ok (others, last)) :
    c.parts ((connective, clause) :: clauses) table = .ok ((connective, text) :: others, last) := by
  have hparts : c.parts ((connective, clause) :: clauses) table = (do
      let first ← c.clauseText clause table
      let rest ← c.parts clauses first.2
      .ok ((connective, first.1) :: rest.1, rest.2)) := by
    rw [parts]
    rfl
  rw [hparts, h, ok_bind, hrest, ok_bind]

theorem comparisons_numbered (names : List String) (stem : String) :
    c.comparisons names ((List.range' 1 names.length).map (numberedPlaceholder stem)) =
      (names.zipIdx 1).map fun (name, number) =>
        "( " ++ c.schema.identifierText name ++ " = " ++ numberedPlaceholder stem number ++ " )" := by
  rw [comparisons, List.zip_map_right, List.zipIdx_eq_zip_range', List.map_map]
  rfl

section Fields

variable {field : String × Json} {fields : List (String × Json)} {table : BindTable}

theorem conditionOfJson_scalar (name : String) {value : Json} (h : value.isScalar = true) :
    c.conditionOfJson name value = .ok (equation (name, value)) := by
  cases value <;> first | rfl | cases h

theorem entryOfMember_scalar (hn : Identifier.check field.1 = .ok ())
    (hv : field.2.isScalar = true) :
    c.entryOfMember field.1 field.2 = .ok (.group [(.and, .condition (equation field))]) := by
  apply entryOfMember_plain hn (conditionOfJson_scalar field.1 hv)
  apply Condition.isSimple_of_check hn
  rintro items connective ⟨⟩

theorem connective_plain (hk : ∀ field ∈ fields, WhereMap.IsPlain field.1) :
    WhereMap.connective fields = .ok .and := by
  have hlookup : List.lookup WhereMap.connectiveKey fields = none := by
    rw [List.lookup_eq_none_iff]
    intro field hm
    rw [bne_iff_ne]
    intro he
    have := (hk field hm).isReserved
    rw [← he] at this
    cases this
  rw [WhereMap.connective, hlookup]

theorem groupOfMap_scalars (hk : ∀ field ∈ fields, WhereMap.IsPlain field.1)
    (hv : ∀ field ∈ fields, field.2.isScalar = true) :
    c.groupOfMap fields = .ok (equations fields) := by
  have hfilter : (fields.filter fun field => !WhereMap.isReserved field.1) = fields := by
    rw [List.filter_eq_self]
    intro field hm
    rw [(hk field hm).isReserved]
    rfl
  have hmapM : (fields.mapM fun member => c.entryOfMember member.1 member.2) =
      .ok (fields.map fun field => .group [(.and, .condition (equation field))]) :=
    mapM_eq_map fun field hm => entryOfMember_scalar (hk field hm).check (hv field hm)
  unfold groupOfMap
  rw [connective_plain hk, ok_bind, hfilter]
  change ((fields.mapM fun member => c.entryOfMember member.1 member.2) >>= _) = _
  rw [hmapM, ok_bind]
  rfl

variable (hstrict : c.config.strictFields = false)
  (he : c.operators.resolve? Operator.equal.token = some .equal)

include hstrict he

theorem clauseText_equation (hn : Identifier.check field.1 = .ok ())
    (hv : field.2.isScalar = true) (table : BindTable) :
    ∃ type, c.clauseText (Entry.group [(.and, .condition (equation field))]).clause table =
      .ok ("( " ++ c.schema.identifierText field.1 ++ " = " ++
        (Piece.scalar type (.ofJson field.2)).written table ++ " )",
        (Piece.scalar type (.ofJson field.2)).after table) := by
  obtain ⟨type, htext⟩ := testText_scalar hstrict he hn (Value.isNull_ofJson hv) table
  refine ⟨type, ?_⟩
  simp only [Entry.clause, Group.clauses, equation, Condition.of, Condition.clause,
    FieldTree.ofField_of_check hn, Operand.clause, FieldTree.spread, clauseText, parts, nested]
  rw [run_bind, run_bind, htext]
  change Except.ok (parenthesized (joinParts [(.and, _)]), _) = _
  rw [joinParts_singleton, parenthesized_eq]
  . simp only [String.append_assoc]
  . simp

theorem parts_scalars (hk : ∀ field ∈ fields, WhereMap.IsPlain field.1)
    (hv : ∀ field ∈ fields, field.2.isScalar = true) (ht : table.Numbered) :
    ∃ table', c.parts (Group.clauses (equations fields)) table =
      .ok ((c.comparisons (fields.map Prod.fst) (Value.placeholders table.stem table.counter
        (valuesOf fields))).map (.and, ·), table') ∧
      table'.Numbered ∧ table'.stem = table.stem ∧ table'.binds.map Bind.value =
        table.binds.map Bind.value ++ Value.bound table.stem table.counter (valuesOf fields) := by
  induction fields generalizing table with
  | nil => exact ⟨table, rfl, ht, rfl, (List.append_nil _).symm⟩
  | cons field fields ih =>
    simp only [List.mem_cons, forall_eq_or_imp] at hk hv
    obtain ⟨type, hfirst⟩ := clauseText_equation hstrict he hk.1.check hv.1 table
    rw [valuesOf_cons, Value.placeholders, Value.bound]
    cases hs : (Value.ofJson field.2).spelled? table.stem table.counter with
    | none =>
      obtain ⟨hw, ha⟩ := ht.scalar_of_none hs type
      rw [hw, ha] at hfirst
      obtain ⟨table', hrest, hnumbered, hstem, hbinds⟩ := ih hk.2 hv.2 (ht.push _ type)
      refine ⟨table', parts_cons_eq_ok hfirst hrest, hnumbered, hstem, ?_⟩
      rw [hbinds]
      simp [BindTable.push]
    | some s =>
      obtain ⟨hw, ha⟩ := ht.scalar_of_some hs type
      rw [hw, ha] at hfirst
      obtain ⟨table', hrest, hafter⟩ := ih hk.2 hv.2 ht
      exact ⟨table', parts_cons_eq_ok hfirst hrest, hafter⟩

structure ComparesScalars (c : Compiler) (fields : List (String × Json)) (compiled : Compiled) :
    Prop where
  text : compiled.sql = " AND ".intercalate (c.comparisons (fields.map Prod.fst)
    (Value.placeholders c.config.bindStem 0 (valuesOf fields)))
  values : compiled.binds.map Bind.value = Value.bound c.config.bindStem 0 (valuesOf fields)
  names : compiled.binds.map Bind.name = (List.range' 1 compiled.binds.length).map fun number =>
    c.config.bindStem ++ Decimal.natText number
  independent : Value.Independent c.config.bindStem 0 (valuesOf fields) →
      compiled.sql = " AND ".intercalate (((fields.map Prod.fst).zipIdx 1).map
        fun (name, number) => "( " ++ c.schema.identifierText name ++ " = " ++
          numberedPlaceholder c.config.bindStem number ++ " )") ∧
      compiled.binds.map Bind.value = valuesOf fields

theorem compile_scalars (hs : c.softDelete = none)
    (hk : ∀ field ∈ fields, WhereMap.IsPlain field.1)
    (hv : ∀ field ∈ fields, field.2.isScalar = true) :
    ∃ compiled, c.compile (.map fields) = .ok compiled ∧ c.ComparesScalars fields compiled := by
  obtain ⟨table, hparts, hnumbered, hstem, hbinds⟩ :=
    parts_scalars hstrict he hk hv (BindTable.numbered_empty c.config.bindStem)
  have hcompile : c.compile (.map fields) = .ok ⟨joinParts ((c.comparisons (fields.map Prod.fst)
      (Value.placeholders c.config.bindStem 0 (valuesOf fields))).map (.and, ·)), table.binds,
        c.placeholder⟩ := by
    rw [compile, groupOf, groupOfMap_scalars hk hv, ok_bind, compileGroup_parts hs, hparts, ok_bind]
    rfl
  have htext := joinParts_map .and (comparisons_ne_empty (c := c) (fields.map Prod.fst)
    (Value.placeholders c.config.bindStem 0 (valuesOf fields)))
  refine ⟨_, hcompile, htext, hbinds, ?_, ?_⟩
  . change table.binds.map Bind.name = (List.range' 1 table.binds.length).map _
    rw [hnumbered, hnumbered.length_binds, List.range'_eq_map_range, List.map_map]
    apply List.map_congr_left
    intro i _
    rw [Function.comp, BindTable.generated, hstem, Nat.add_comm]
    rfl
  . intro hi
    refine ⟨?_, hbinds.trans hi.bound_eq⟩
    rw [htext, hi.placeholders_eq, ← comparisons_numbered, length_valuesOf, List.length_map]
    rfl

end Fields

theorem compile_scalars_hostile :
    ∃ compiled, (standard {}).compile
        (.map [("a", .int 7), ("b", .string "x'; --"), ("c", .string ":p1")]) = .ok compiled ∧
      compiled.sql = "( a = :p1 ) AND ( b = :p2 ) AND ( c = :p1 )" ∧
      compiled.binds.map Bind.value = [.integer 7, .text "x'; --"] := by
  have hk : ∀ field ∈ [("a", Json.int 7), ("b", .string "x'; --"), ("c", .string ":p1")],
      WhereMap.IsPlain field.1 := by
    simp only [List.forall_mem_cons]
    exact ⟨⟨rfl, rfl⟩, ⟨rfl, rfl⟩, ⟨rfl, rfl⟩, List.forall_mem_nil _⟩
  obtain ⟨compiled, hc, h⟩ :=
    compile_scalars (c := standard {}) rfl (by decide +kernel) rfl hk (by decide)
  refine ⟨compiled, hc, ?_, ?_⟩
  . rw [h.text]
    decide +kernel
  . rw [h.values]
    rfl

theorem compile_scalars_repeated :
    (standard {}).softDelete = none ∧ (standard {}).config.strictFields = false ∧
    (standard {}).operators.resolve? Operator.equal.token = some .equal ∧
    WhereMap.IsPlain "a" ∧ WhereMap.IsPlain "b" ∧
    ∃ compiled, (standard {}).compile (.map [("a", .int 7), ("b", .string ":p1")]) =
        .ok compiled ∧
      compiled.sql = "( a = :p1 ) AND ( b = :p1 )" ∧
      compiled.binds.map Bind.value = [.integer 7] := by
  exact ⟨rfl, rfl, by decide +kernel, ⟨rfl, rfl⟩, ⟨rfl, rfl⟩, _, rfl, by decide +kernel, rfl⟩

end Compiler

end SqlFilter
