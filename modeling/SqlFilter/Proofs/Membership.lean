import SqlFilter.Proofs.BindRun
import SqlFilter.Proofs.InjectionSafety
import SqlFilter.Proofs.SingleCondition
import SqlFilter.Proofs.ValueEquality

/-!
This module contains tests of membership in a list of values. The text of such a test is that of a
constant, of one comparison or of a list of placeholders, and has the same truth as the comparisons
with all listed values together, in the logic of three truth values.
-/

namespace SqlFilter

open Binder

inductive Truth where
  | yes
  | no
  | unknown
deriving DecidableEq

namespace Truth

def not : Truth → Truth
  | .yes => .no
  | .no => .yes
  | .unknown => .unknown

def or : Truth → Truth → Truth
  | .yes, _ => .yes
  | _, .yes => .yes
  | .no, .no => .no
  | _, _ => .unknown

def any (ts : List Truth) : Truth :=
  ts.foldr or .no

theorem any_eq_yes_iff {ts : List Truth} : any ts = .yes ↔ .yes ∈ ts := by
  induction ts with
  | nil => simp [any]
  | cons t ts ih =>
    rw [List.mem_cons, ← ih]
    change or t (any ts) = .yes ↔ _
    cases t <;> cases any ts <;> simp [or]

theorem any_eq_no_iff {ts : List Truth} : any ts = .no ↔ ∀ t ∈ ts, t = .no := by
  induction ts with
  | nil => simp [any]
  | cons t ts ih =>
    rw [List.forall_mem_cons, ← ih]
    change or t (any ts) = .no ↔ _
    cases t <;> cases any ts <;> simp [or]

theorem any_congr {ts ts' : List Truth} (h : ∀ t, t ∈ ts ↔ t ∈ ts') : any ts = any ts' := by
  have hyes : any ts = .yes ↔ any ts' = .yes := by
    rw [any_eq_yes_iff, any_eq_yes_iff, h]
  have hno : any ts = .no ↔ any ts' = .no := by
    rw [any_eq_no_iff, any_eq_no_iff]
    simp only [h]
  cases ht : any ts <;> cases ht' : any ts' <;> simp_all

def inverted (negated : Bool) (t : Truth) : Truth :=
  if negated then t.not else t

end Truth

/-- An equality in three truth values. It need not tell whether values are equal, but does not tell
those apart that are equal values. -/
structure Comparator where
  truth : Value → Value → Truth
  congr : ∀ {v w : Value}, v.equals w = true → ∀ x, truth x v = truth x w

theorem Comparator.any_firsts (same : Comparator) (x : Value) (vs : List Value) :
    Truth.any ((Value.firsts vs).map (same.truth x)) = Truth.any (vs.map (same.truth x)) := by
  apply Truth.any_congr
  intro t
  simp only [List.mem_map]
  constructor
  . rintro ⟨v, hv, rfl⟩
    exact ⟨v, Value.mem_of_mem_firsts hv, rfl⟩
  . rintro ⟨v, hv, rfl⟩
    rcases Value.mem_firsts_or hv with hv | ⟨u, hu, he⟩
    . exact ⟨v, hv, rfl⟩
    . exact ⟨u, hu, (same.congr he x).symm⟩

inductive MemberTest where
  /-- the equality of one with one or, if false, of nought with one -/
  | constant (truth : Bool)
  | equal (negated : Bool) (name : String)
  | oneOf (negated : Bool) (names : List String)

namespace MemberTest

def text (field : String) : MemberTest → String
  | .constant truth => if truth then "1 = 1" else "0 = 1"
  | .equal negated name => field ++ (if negated then " <> " else " = ") ++ (":" ++ name)
  | .oneOf negated names =>
    field ++ " " ++ (if negated then "NOT IN" else "IN") ++ " " ++
      ("(" ++ ",".intercalate (names.map (":" ++ ·)) ++ ")")

def truth? (same : Comparator) (value? : String → Option Value) (x : Value) :
    MemberTest → Option Truth
  | .constant truth => some (if truth then .yes else .no)
  | .equal negated name => (value? name).map fun v => Truth.inverted negated (same.truth x v)
  | .oneOf negated names =>
    (names.mapM value?).map fun vs => Truth.inverted negated (.any (vs.map (same.truth x)))

def ofNames (negated : Bool) : List String → MemberTest
  | [] => .constant negated
  | [name] => .equal negated name
  | first :: second :: names => .oneOf negated (first :: second :: names)

theorem truth?_ofNames (same : Comparator) {value? : String → Option Value} (negated : Bool)
    {names : List String} {vs : List Value} (h : names.map value? = vs.map some) (x : Value) :
    (ofNames negated names).truth? same value? x =
      some (Truth.inverted negated (.any (vs.map (same.truth x)))) := by
  match names, vs with
  | [], [] => cases negated <;> rfl
  | [name], [v] =>
    have hname : value? name = some v := by simpa using h
    have hor : Truth.any [same.truth x v] = same.truth x v := by
      cases ht : same.truth x v <;> simp [Truth.any, Truth.or]
    simp only [ofNames, truth?, hname, Option.map_some, List.map_cons, List.map_nil, hor]
  | first :: second :: names, vs =>
    rw [ofNames, truth?, mapM_eq_some_iff.2 h]
    rfl
  | [], _ :: _ => simp at h
  | [_], [] => simp at h
  | [_], _ :: _ :: _ => simp at h

def IsName (name : String) : Prop :=
  ∀ c ∈ name.toList, Text.isWordChar c = true

def IsSpelled : MemberTest → Prop
  | .constant _ => True
  | .equal _ name => IsName name
  | .oneOf _ names => names ≠ [] ∧ ∀ name ∈ names, IsName name

theorem isSpelled_ofNames {names : List String} (h : ∀ name ∈ names, IsName name)
    (negated : Bool) : (ofNames negated names).IsSpelled := by
  match names with
  | [] => trivial
  | [name] => exact h name List.mem_cons_self
  | first :: second :: names => exact ⟨by simp, h⟩

section Reading

variable {field : String}

theorem constant_ne {truth : Bool} {cs : List Char} (h : ':' ∈ cs) :
    (text field (.constant truth)).toList ≠ cs := by
  rintro rfl
  revert h
  cases truth <;> simp [text]

theorem colon_mem_equal (negated : Bool) (name : String) :
    ':' ∈ (text field (.equal negated name)).toList := by
  simp [text]

theorem colon_mem_oneOf (negated : Bool) {names : List String} (h : names ≠ []) :
    ':' ∈ (text field (.oneOf negated names)).toList := by
  obtain ⟨name, names, rfl⟩ := List.exists_cons_of_ne_nil h
  cases names <;> simp [text, String.toList_intercalate]

theorem placeholders_injective {names names' : List String} (hne : names ≠ []) (hne' : names' ≠ [])
    (hn : ∀ name ∈ names, IsName name) (hn' : ∀ name ∈ names', IsName name)
    (he : ",".intercalate (names.map (":" ++ ·)) = ",".intercalate (names'.map (":" ++ ·))) :
    names = names' := by
  -- what stands between the commas are the placeholders
  have split {names : List String} (hne : names ≠ []) (hn : ∀ name ∈ names, IsName name) :
      Text.splitAt ',' (",".intercalate (names.map (":" ++ ·))) = names.map (":" ++ ·) := by
    apply Text.splitAt_intercalate rfl
    . simpa using hne
    . intro piece hp hm
      obtain ⟨name, hname, rfl⟩ := List.mem_map.1 hp
      have hcomma : ',' ∈ name.toList := by simpa using hm
      cases hn name hname ',' hcomma
  have hmap := split hne hn
  rw [he, split hne' hn'] at hmap
  refine List.map_injective_iff.2 ?_ hmap.symm
  intro name name' h
  simpa using h

theorem text_injective {test test' : MemberTest} (h : test.IsSpelled) (h' : test'.IsSpelled)
    (he : test.text field = test'.text field) : test = test' := by
  have hlist := congrArg String.toList he
  match test, test' with
  | .constant truth, .constant truth' =>
    cases truth <;> cases truth' <;> first | rfl | simp [text] at he
  | .equal negated name, .equal negated' name' =>
    simp only [text, String.toList_append, List.append_assoc, List.append_cancel_left_eq] at hlist
    obtain ⟨rfl, hname⟩ : negated = negated' ∧ name.toList = name'.toList := by
      cases negated <;> cases negated' <;> simp_all
    rw [String.toList_inj.1 hname]
  | .oneOf negated names, .oneOf negated' names' =>
    simp only [text, String.toList_append, List.append_assoc, List.append_cancel_left_eq] at hlist
    obtain ⟨rfl, hnames⟩ : negated = negated' ∧
        (",".intercalate (names.map (":" ++ ·))).toList =
          (",".intercalate (names'.map (":" ++ ·))).toList := by
      cases negated <;> cases negated' <;> simp_all
    rw [placeholders_injective h.1 h'.1 h.2 h'.2 (String.toList_inj.1 hnames)]
  | .equal negated name, .oneOf negated' names =>
    simp only [text, String.toList_append, List.append_assoc, List.append_cancel_left_eq] at hlist
    cases negated <;> cases negated' <;> simp at hlist
  | .oneOf negated names, .equal negated' name =>
    simp only [text, String.toList_append, List.append_assoc, List.append_cancel_left_eq] at hlist
    cases negated <;> cases negated' <;> simp at hlist
  | .constant _, .equal negated name =>
    exact absurd hlist (constant_ne (colon_mem_equal negated name))
  | .constant _, .oneOf negated names =>
    exact absurd hlist (constant_ne (colon_mem_oneOf negated h'.1))
  | .equal negated name, .constant _ =>
    exact absurd hlist.symm (constant_ne (colon_mem_equal negated name))
  | .oneOf negated names, .constant _ =>
    exact absurd hlist.symm (constant_ne (colon_mem_oneOf negated h.1))

end Reading

end MemberTest

namespace BindTable

def value? (table : BindTable) (name : String) : Option Value :=
  (table.find? name).map Bind.value

structure Registers (before : BindTable) (vs : List Value) (new : List Bind)
    (after : BindTable) : Prop where
  binds : after.binds = before.binds ++ new
  values : new.map Bind.value = vs
  free : ∀ bind ∈ new, bind.name ∉ before.binds.map Bind.name
  nodup : (new.map Bind.name).Nodup
  generated : ∀ bind ∈ new, ∃ number, bind.name = before.generated number

section Registers

variable {before after : BindTable} {vs : List Value} {new : List Bind}

theorem Registers.value?_eq (h : before.Registers vs new after) :
    (new.map Bind.name).map after.value? = vs.map some := by
  rw [← h.values, List.map_map, List.map_map]
  apply List.map_congr_left
  intro bind hb
  have hold : before.binds.find? (fun b => b.name == bind.name) = none := by
    rw [List.find?_eq_none]
    intro b hm he
    exact h.free bind hb (List.mem_map.2 ⟨b, hm, eq_of_beq he⟩)
  have hfind : find? ⟨after.stem, after.counter, new⟩ bind.name = some bind :=
    (find?_eq_some_iff_of_nodup h.nodup).2 ⟨hb, rfl⟩
  unfold find? at hfind
  simp only [Function.comp_apply, value?, find?, h.binds, List.find?_append, hold, Option.none_or,
    hfind, Option.map_some]

theorem mapM_register (type : BindType) (vs : List Value) (before : BindTable) :
    ∃ new after, vs.mapM (Binder.register type) before =
      .ok ((new.map Bind.name).map (":" ++ ·), after) ∧ before.Registers vs new after := by
  induction vs generalizing before with
  | nil => exact ⟨[], before, rfl, by simp, rfl, by simp, .nil, by simp⟩
  | cons v vs ih =>
    have hfree := (before.generates_freeNumber v type).free
    generalize hnumber : before.freeNumber (before.counter + 1) = number at hfree
    have hregister : Binder.register type v before = .ok (":" ++ before.generated number,
        ⟨before.stem, number, before.binds ++ [⟨before.generated number, v, type⟩]⟩) := by
      rw [← hnumber]
      rfl
    obtain ⟨new, after, hmap, h⟩ :=
      ih ⟨before.stem, number, before.binds ++ [⟨before.generated number, v, type⟩]⟩
    have hnew (bind : Bind) (hb : bind ∈ new) : bind.name ∉ before.binds.map Bind.name ∧
        bind.name ≠ before.generated number := by
      have := h.free bind hb
      simpa [List.map_append] using this
    refine ⟨⟨before.generated number, v, type⟩ :: new, after, ?_, ?_, ?_, ?_, ?_, ?_⟩
    . rw [List.mapM_cons, run_bind, hregister, ok_bind, run_bind, hmap]
      rfl
    . rw [h.binds, List.append_assoc]
      rfl
    . rw [List.map_cons, h.values]
    . exact List.forall_mem_cons.2 ⟨hfree, fun bind hb => (hnew bind hb).1⟩
    . refine h.nodup.cons ?_
      intro hm
      obtain ⟨bind, hb, he⟩ := List.mem_map.1 hm
      exact (hnew bind hb).2 he
    . exact List.forall_mem_cons.2 ⟨⟨number, rfl⟩, h.generated⟩

end Registers

end BindTable

theorem Operator.listText_eq {op : Operator} (hop : op = .oneOf ∨ op = .notOneOf) (field : String)
    (type : BindType) (vs : List Value) (before : BindTable) :
    ∃ new after, op.listText field type vs before =
      .ok ((MemberTest.ofNames (op == .notOneOf) (new.map Bind.name)).text field, after) ∧
        before.Registers vs new after := by
  obtain ⟨new, after, hmap, h⟩ := BindTable.mapM_register type vs before
  refine ⟨new, after, ?_, h⟩
  obtain rfl := h.values
  match new with
  | [] =>
    cases hmap
    rcases hop with rfl | rfl <;> rfl
  | [bind] =>
    rw [List.map_singleton, List.mapM_cons, run_bind] at hmap
    obtain ⟨⟨placeholder, last⟩, hregister, he⟩ := bind_eq_ok.1 hmap
    cases he
    rw [List.map_singleton, listText, run_bind, hregister]
    rcases hop with rfl | rfl <;> rfl
  | first :: second :: new =>
    change (((first :: second :: new).map Bind.value).mapM (Binder.register type) >>= _) _ = _
    rw [run_bind, hmap]
    rcases hop with rfl | rfl <;> rfl

def Operand.listed? : Operand → Option (List Value)
  | .list vs => some vs
  | .value (.text s) => some (Value.ofCommaList s)
  | _ => Option.none

theorem Operand.pieces_of_listed? {operand : Operand} {vs : List Value} {s : String}
    (h : operand.listed? = some vs) (ho : operand = .value (.text s)) :
    ∃ pieces : List String, vs = pieces.map .text ∧ ",".intercalate pieces = s ∧
      ∀ piece ∈ pieces, ',' ∉ piece.toList := by
  subst ho
  cases h
  refine ⟨Text.splitAt ',' s, ?_, Text.intercalate_splitAt rfl s, ?_⟩
  . simp [Value.ofCommaList, Text.splitAt]
  . exact fun piece => Text.not_mem_of_mem_splitAt

structure TestsMembership (negated : Bool) (field : String) (vs : List Value)
    (before after : BindTable) (sql : String) : Prop where
  reads : ∃ test : MemberTest, sql = test.text field ∧
    (∀ (same : Comparator) (x : Value), test.truth? same after.value? x =
      some (Truth.inverted negated (.any (vs.map (same.truth x))))) ∧
      (CompilerConfig.isStem before.stem = true → test.IsSpelled ∧
        ∀ other : MemberTest, other.IsSpelled → sql = other.text field → other = test)
  binds : ∃ new, after.binds = before.binds ++ new ∧ new.map Bind.value = Value.firsts vs
  different : (Value.firsts vs).Pairwise fun earlier later => later.equals earlier = false
  different_symm : (∀ v ∈ vs, v.DistinctNames) →
    (Value.firsts vs).Pairwise fun earlier later => earlier.equals later = false
  none_lost : ∀ v ∈ vs, v ∈ Value.firsts vs ∨ ∃ u ∈ Value.firsts vs, v.equals u = true

theorem Value.pairwise_firsts_symm {vs : List Value} (h : ∀ v ∈ vs, v.DistinctNames) :
    (firsts vs).Pairwise fun earlier later => earlier.equals later = false := by
  refine (pairwise_firsts vs).imp_of_mem ?_
  intro earlier later hearlier _ hne
  rw [← Bool.not_eq_true] at hne ⊢
  exact fun he => hne (equals_symm (h earlier (mem_of_mem_firsts hearlier)) he)

theorem testsMembership_of_registers {negated : Bool} {field : String} {vs : List Value}
    {before after : BindTable} {new : List Bind}
    (h : before.Registers (Value.firsts vs) new after) :
    TestsMembership negated field vs before after
      ((MemberTest.ofNames negated (new.map Bind.name)).text field) where
  reads := by
    refine ⟨_, rfl, ?_, ?_⟩
    . intro same x
      rw [MemberTest.truth?_ofNames same negated h.value?_eq, same.any_firsts]
    . intro hstem
      have hspelled : (MemberTest.ofNames negated (new.map Bind.name)).IsSpelled := by
        apply MemberTest.isSpelled_ofNames
        intro name hn
        obtain ⟨bind, hb, rfl⟩ := List.mem_map.1 hn
        obtain ⟨number, he⟩ := h.generated bind hb
        rw [he]
        exact BindTable.isWordChar_generated hstem number
      exact ⟨hspelled, fun other ho he => MemberTest.text_injective ho hspelled he.symm⟩
  binds := ⟨new, h.binds, h.values⟩
  different := Value.pairwise_firsts vs
  different_symm := Value.pairwise_firsts_symm
  none_lost := fun _ => Value.mem_firsts_or

namespace Compiler

variable {c : Compiler} {field : FieldRef} {left : LeftSide} {before table : BindTable}

theorem ofField_of_leftSide (h : c.leftSide field before = .ok (left, table)) :
    FieldTree.ofField field = .single field := by
  cases field with
  | column name =>
    rw [leftSide, run_lift_bind] at h
    obtain ⟨sql, hcolumn, _⟩ := bind_eq_ok.1 h
    rw [FieldTree.ofField, FieldRef.multiple?_of_check (check_of_column hcolumn)]
  | raw fragment => rfl
  | none => rfl

theorem clauseText_oneOf {token : String} {op : Operator}
    (hop : c.operators.resolve? token = some op) (hfamily : op = .oneOf ∨ op = .notOneOf)
    (hleft : c.leftSide field before = .ok (left, table)) (hne : left.sql ≠ "")
    {operand : Operand} {vs : List Value} (hvs : operand.listed? = some vs)
    (bindType : Option BindType) (connective : Connective) :
    ∃ sql after,
      c.clauseText (Condition.clause ⟨field, token, operand, bindType, connective⟩) before =
        .ok (sql, after) ∧
      TestsMembership (op == .notOneOf) left.sql vs table after sql ∧
      (∀ s, operand = .value (.text s) → ∃ pieces : List String, vs = pieces.map .text ∧
        ",".intercalate pieces = s ∧ ∀ piece ∈ pieces, ',' ∉ piece.toList) ∧
      (before = .empty c.config.bindStem →
        c.compileCondition ⟨field, token, operand, bindType, connective⟩ =
          c.completed sql after) := by
  obtain ⟨argument, hclause, hargument⟩ : ∃ argument,
      Condition.clause ⟨field, token, operand, bindType, connective⟩ =
        .test field ⟨token, bindType, connective⟩ argument ∧
      ∀ type, op.memberText left.sql type (c.nested argument) =
        op.listText left.sql type (vs.eraseDupsBy Value.equals) := by
    rw [Condition.clause, ofField_of_leftSide hleft]
    unfold Operand.listed? at hvs
    split at hvs
    . cases hvs
      exact ⟨.list vs, rfl, fun _ => rfl⟩
    . next s =>
      cases hvs
      exact ⟨.value (.text s), rfl, fun _ => rfl⟩
    . cases hvs
  have htext : c.clauseText (.test field ⟨token, bindType, connective⟩ argument) before =
      op.listText left.sql (c.bindType ⟨token, bindType, connective⟩ op left.column)
        (Value.firsts vs) table := by
    rw [clauseText_test_of_leftSide ⟨token, bindType, connective⟩ hleft hop,
      ← Value.eraseDupsBy_eq_firsts, ← hargument]
    have hsql : left.sql.isEmpty = false := by simpa using hne
    unfold operandText
    rw [hsql, Bool.false_and, if_neg Bool.false_ne_true]
    rcases hfamily with rfl | rfl <;> rfl
  obtain ⟨new, after, hlist, hnew⟩ := Operator.listText_eq hfamily left.sql
    (c.bindType ⟨token, bindType, connective⟩ op left.column) (Value.firsts vs) table
  rw [← htext, ← hclause] at hlist
  refine ⟨_, after, hlist, testsMembership_of_registers hnew,
    fun s => Operand.pieces_of_listed? hvs, ?_⟩
  rintro rfl
  exact compileCondition_of_clauseText hlist

def integerEquality : Comparator where
  truth
    | .integer m, .integer n => if m = n then .yes else .no
    | _, _ => .unknown
  congr := by
    intro v w h x
    unfold Value.equals at h
    split at h <;> simp_all

def repeatedValues : List Value :=
  [.integer 7, .null, .integer 7, .float .nan, .float .nan,
    .json (.object [("x", .int 1), ("y", .int 2)]), .json (.object [("y", .int 2), ("x", .int 1)])]

theorem clauseText_oneOf_repeatedValues :
    (standard {}).operators.resolve? "not in" = some .notOneOf ∧
      (standard {}).leftSide (.column "a") (.empty "p") = .ok (⟨"a", some "a"⟩, .empty "p") ∧
      ∃ sql after, (standard {}).compileCondition
          ⟨.column "a", "not in", .list repeatedValues, none, .and⟩ =
            .ok ⟨sql, after.binds, .named⟩ ∧
        sql = "a NOT IN (:p1,:p2,:p3,:p4,:p5)" ∧
        TestsMembership true "a" repeatedValues (.empty "p") after sql ∧
        ∃ test : MemberTest, sql = test.text "a" ∧
          test.truth? integerEquality after.value? (.integer 7) = some .no ∧
          test.truth? integerEquality after.value? (.integer 8) = some .unknown := by
  have hop : (standard {}).operators.resolve? "not in" = some .notOneOf := by decide +kernel
  have hleft : (standard {}).leftSide (.column "a") (.empty "p") =
      .ok (⟨"a", some "a"⟩, .empty "p") := rfl
  obtain ⟨sql, after, _, htests, _, hcompile⟩ := clauseText_oneOf hop (.inr rfl) hleft
    (by decide) (rfl : Operand.listed? (.list repeatedValues) = some repeatedValues) none .and
  have hcompile := (hcompile rfl).trans (completed_of_none rfl sql after)
  refine ⟨hop, hleft, sql, after, hcompile, ?_, htests, ?_⟩
  . have hsql : ((standard {}).compileCondition
        ⟨.column "a", "not in", .list repeatedValues, none, .and⟩).toOption.map Compiled.sql =
          some "a NOT IN (:p1,:p2,:p3,:p4,:p5)" := by
      decide +kernel
    rw [hcompile] at hsql
    exact Option.some.inj hsql
  . obtain ⟨test, htext, htruth, _⟩ := htests.reads
    exact ⟨test, htext, htruth integerEquality (.integer 7), htruth integerEquality (.integer 8)⟩

end Compiler

end SqlFilter
