import SqlFilter.Proofs.Draft
import SqlFilter.Proofs.KeyMirror

/-!
This module contains the proof that bracket keys compile to texts that mirror them, together with
what holds of their values: their number is checked first, each of them belongs to one name, and
plain numbers are bound one after the other.
-/

namespace SqlFilter

open SqlFilter.Bracket BracketNode Binder

def Json.isNumberOrTruth : Json → Bool
  | .bool _ => true
  | .int _ => true
  | .float _ => true
  | _ => false

namespace Bracket

theorem WellFormed.check_fieldNames {nodes : List BracketNode} (h : WellFormed nodes) :
    ∀ name ∈ fieldNames nodes, Identifier.check name = .ok () := by
  induction h with
  | @intro nodes hne hlinked hfields hgroups hlinks ih =>
    clear hne hlinked hgroups hlinks
    induction nodes with
    | nil => simp [fieldNames, allTokens]
    | cons node nodes ihs =>
      have ihs := ihs (fun name trailing hm => hfields name trailing (.tail _ hm))
        fun body trailing hm => ih body trailing (.tail _ hm)
      intro name hname
      cases node with
      | field first trailing =>
        rw [fieldNames_field] at hname
        cases List.mem_cons.1 hname with
        | inl he => exact he ▸ hfields first trailing List.mem_cons_self
        | inr hm => exact ihs name hm
      | group body trailing =>
        rw [fieldNames_group] at hname
        cases List.mem_append.1 hname with
        | inl hm => exact ih body trailing List.mem_cons_self name hm
        | inr hm => exact ihs name hm

end Bracket

namespace Compiler

variable {c : Compiler}

theorem fragments_ensures {fields : List (String × Json)}
    (h : ∀ field ∈ fields, Identifier.check field.1 = .ok ()) :
    Ensures NoBracket (fun texts => texts.length = fields.length) (c.fragments fields) := by
  have hfaults : Faults NoBracket (c.decoded fields) :=
    Faults.mapM fun field _ => conditionOfJson_noBracket field.1 field.2
  apply (Ensures.lift hfaults fun _ h => h).bind
  intro conditions hc
  have hfilled (condition : Condition) (hm : condition ∈ conditions) : condition.clause.Filled := by
    obtain ⟨field, hf, hd⟩ := exists_of_mem_mapM hc condition hm
    exact filled_clause (h field hf) (conditionOfJson_form hd)
  have := Ensures.mapM fun condition hm => (hfilled condition hm).ensures (c := c)
  constructor
  . exact this.fault
  . intro table texts table' ht
    rw [(this.result ht).1]
    exact length_mapM hc
  . exact this.binds

section Plain

variable {name : String} {value : Json} {table : BindTable}

theorem decoded_plain {fields : List (String × Json)}
    (h : ∀ field ∈ fields, field.2.isNumberOrTruth = true) :
    c.decoded fields = .ok (fields.map fun field =>
      .of (.ofName field.1) Operator.equal.token (.value (.ofJson field.2))) := by
  have one (name : String) {value : Json} (hv : value.isNumberOrTruth = true) :
      c.conditionOfJson name value =
        .ok (.of (.ofName name) Operator.equal.token (.value (.ofJson value))) := by
    cases value <;> first | rfl | cases hv
  exact mapM_eq_map fun field hm => one field.1 (h field hm)

theorem ofJson_plain (h : value.isNumberOrTruth = true) :
    (Value.ofJson value).isNull = false ∧ (Value.ofJson value).beginsWithColon = false := by
  cases value with
  | int n =>
    simp only [Value.ofJson]
    split <;> exact ⟨rfl, rfl⟩
  | bool b => exact ⟨rfl, rfl⟩
  | float x => exact ⟨rfl, rfl⟩
  | _ => cases h

theorem leftSide_column {left : LeftSide} {table' : BindTable}
    (h : c.leftSide (.column name) table = .ok (left, table')) :
    left = ⟨c.schema.identifierText name, some name⟩ ∧ table' = table := by
  rw [leftSide, run_lift_bind] at h
  obtain ⟨sql, hs, h⟩ := bind_eq_ok.1 h
  cases h
  rw [(Schema.eq_of_column hs).2]
  exact ⟨rfl, rfl⟩

theorem testText_plain (he : c.operators.resolve? Operator.equal.token = some .equal) {v : Value}
    (hv : v.isNull = false) (hc : v.beginsWithColon = false) (ht : table.Numbered)
    {comparison : Comparison} (ho : comparison.operator = Operator.equal.token) {sql : String}
    {table' : BindTable}
    (h : c.testText (.column name) comparison (.value v) table = .ok (sql, table')) :
    sql = c.schema.identifierText name ++ " = " ++ table.placeholder (table.counter + 1) ∧
      ∃ type, table' = table.push v type := by
  have hresolve : c.operators.resolve comparison.operator = .ok .equal := by
    rw [ho, OperatorTable.resolve, he]
  have hbind (type : BindType) : Binder.scalar type v table =
      .ok (table.placeholder (table.counter + 1), table.push v type) := by
    simp only [Binder.scalar, BindTable.reference?_eq_none hc, Binder.register, ht.register_eq]
    rfl
  unfold testText at h
  rw [run_bind] at h
  obtain ⟨⟨left, left'⟩, hl, hop⟩ := bind_eq_ok.1 h
  obtain ⟨rfl, rfl⟩ := leftSide_column hl
  dsimp only at hop
  rw [run_lift_bind, hresolve] at hop
  change ite _ (throw _ : Binder String) (Operator.equal.compareText _ _ (.value v)) _ = _ at hop
  split at hop
  . cases hop
  . rw [Operator.compareText_value hv, run_bind, hbind] at hop
    cases hop
    refine ⟨?_, _, rfl⟩
    simp [Operator.applied, Operator.sql, Operator.token, String.append_assoc]

theorem fragments_plain (he : c.operators.resolve? Operator.equal.token = some .equal)
    {fields : List (String × Json)} (hn : ∀ field ∈ fields, Identifier.check field.1 = .ok ())
    (hv : ∀ field ∈ fields, field.2.isNumberOrTruth = true) (ht : table.Numbered)
    {texts : List String} {table' : BindTable}
    (h : c.fragments fields table = .ok (texts, table')) :
    texts = ((fields.map Prod.fst).zipIdx (table.counter + 1)).map fun (name, number) =>
      c.schema.identifierText name ++ " = " ++ table.placeholder number := by
  rw [fragments, run_lift_bind, decoded_plain hv] at h
  change (fields.map _).mapM (fun condition : Condition => c.clauseText condition.clause) table = _
    at h
  induction fields generalizing table texts with
  | nil =>
    cases h
    rfl
  | cons field fields ih =>
    simp only [List.mem_cons, forall_eq_or_imp] at hn hv
    rw [List.map_cons, List.mapM_cons, run_bind] at h
    obtain ⟨⟨sql, next⟩, hs, h⟩ := bind_eq_ok.1 h
    rw [run_bind] at h
    obtain ⟨⟨others, last⟩, ho, h⟩ := bind_eq_ok.1 h
    cases h
    simp only [Condition.of, Condition.clause, FieldTree.ofField_of_check hn.1, Operand.clause,
      FieldTree.spread, clauseText, nested] at hs
    obtain ⟨hnull, hcolon⟩ := ofJson_plain hv.1
    obtain ⟨rfl, type, rfl⟩ := testText_plain he hnull hcolon ht rfl hs
    rw [ih hn.2 hv.2 (ht.push _ _) ho]
    rfl

end Plain

structure MirrorsKey (c : Compiler) (key : String) (values : List Json) : Prop where
  count : (names key.toList).length ≠ values.length → c.compile (.bracket key values) =
    .error (.bracket (.valueCount (names key.toList).length values.length))
  text : (names key.toList).length = values.length → c.compile (.bracket key values) = (do
    let (texts, table) ← c.fragments ((names key.toList).zip values) (.empty c.config.bindStem)
    .ok ⟨mirrored (KeyToken.scan key.toList) texts, table.binds, c.placeholder⟩)
  everyName : (names key.toList).length = values.length → ∀ texts table,
    c.fragments ((names key.toList).zip values) (.empty c.config.bindStem) = .ok (texts, table) →
      texts.length = (names key.toList).length
  consumed : ∀ nodes, Bracket.parse c.config.maxBracketDepth key = .ok nodes →
    terminalCounts nodes = values.length → ∀ group left,
      c.groupOfNodes .and nodes values = .ok (group, left) → left = []
  outOfValues : c.compile (.bracket key values) ≠ .error (.bracket .outOfValues)
  plain : (names key.toList).length = values.length →
    c.operators.resolve? Operator.equal.token = some .equal →
      (∀ value ∈ values, value.isNumberOrTruth = true) → ∀ texts table,
        c.fragments ((names key.toList).zip values) (.empty c.config.bindStem) =
          .ok (texts, table) →
          texts = ((names key.toList).zipIdx 1).map fun (name, number) =>
            c.schema.identifierText name ++ " = :" ++ c.config.bindStem ++ Decimal.natText number

theorem mirrorsKey_compile (hs : c.softDelete = none) {key : String} {nodes : List BracketNode}
    (hp : Bracket.parse c.config.maxBracketDepth key = .ok nodes) (values : List Json) :
    c.MirrorsKey key values := by
  obtain ⟨_, hn, ht, _⟩ := parse_eq_ok_iff.1 hp
  have hscan : KeyToken.scan key.toList = allTokens nodes := by rw [← ht, scan_key hn]
  have hnames : names key.toList = fieldNames nodes := by rw [names, hscan, fieldNames]
  have hvalid : ∀ field ∈ (fieldNames nodes).zip values, Identifier.check field.1 = .ok () :=
    fun field hm => hn.check_fieldNames field.1 (List.of_mem_zip hm).1
  have hfragments := fragments_ensures (c := c) hvalid
  have hcompile := compile_bracket hp values
  constructor
  . intro hne
    rw [hcompile, if_neg (by rw [← length_fieldNames, ← hnames]; exact hne), hnames,
      length_fieldNames]
  . intro hlength
    rw [hnames, hscan]
    apply compile_key hs hp
    rw [← length_fieldNames, ← hnames, hlength]
  . intro hlength texts table h
    rw [hnames] at h hlength
    rw [hfragments.result h, hnames, List.length_zip, hlength, Nat.min_self]
  . intro nodes' hp' hlength group left h
    have hr := groupOfNodes_fills (c := c) .and nodes' (parse_eq_ok_iff.1 hp').2.1.parts values []
      hlength.symm
    rw [List.append_nil, h] at hr
    generalize c.decoded _ = decoded at hr
    cases hr with
    | ok hr => exact hr.1
  . by_cases hlength : terminalCounts nodes = values.length
    . rw [compile_key hs hp hlength]
      cases hr : c.fragments ((fieldNames nodes).zip values) (.empty c.config.bindStem) with
      | error e =>
        rintro ⟨⟩
        cases hfragments.fault hr
      | ok r => rintro ⟨⟩
    . rw [hcompile, if_neg hlength]
      rintro ⟨⟩
  . intro hlength hequal hplain texts table h
    rw [hnames] at h hlength ⊢
    have htexts := fragments_plain hequal hvalid
      (fun field hm => hplain field.2 (List.of_mem_zip hm).2) (BindTable.numbered_empty _) h
    rw [htexts, List.map_fst_zip (Nat.le_of_eq hlength)]
    rw [show " = :" = " = " ++ ":" from rfl]
    simp only [BindTable.empty, BindTable.placeholder, BindTable.generated, String.append_assoc,
      Nat.zero_add]

theorem mirrorsKey_groupAndField : (standard {}).softDelete = none ∧
    Bracket.parse (standard {}).config.maxBracketDepth "(a|b)&c" = .ok groupAndField ∧
      (standard {}).compile (.bracket "(a|b)&c" [.null]) = .error (.bracket (.valueCount 3 1)) ∧
        ∃ compiled, (standard {}).compile (.bracket "(a|b)&c" [.int 1, .bool true, .int 7]) =
          .ok compiled ∧ compiled.sql = "( a = :p1 OR b = :p2 ) AND c = :p3" := by
  have hp : Bracket.parse (standard {}).config.maxBracketDepth "(a|b)&c" = .ok groupAndField :=
    parse_eq_ok_iff.2 ⟨by decide, wellFormed_groupAndField, rfl, by decide⟩
  have hscan : KeyToken.scan "(a|b)&c".toList = allTokens groupAndField :=
    scan_key wellFormed_groupAndField
  have hnames : names "(a|b)&c".toList = ["a", "b", "c"] := by
    rw [names, hscan]
    rfl
  refine ⟨rfl, hp, ?_, ?_⟩
  . have := (mirrorsKey_compile rfl hp [.null]).count
    rw [hnames] at this
    exact this (by decide)
  . have := (mirrorsKey_compile rfl hp [.int 1, .bool true, .int 7]).text
    rw [hnames, hscan] at this
    rw [this rfl]
    exact ⟨_, rfl, by decide +kernel⟩

end Compiler

end SqlFilter
