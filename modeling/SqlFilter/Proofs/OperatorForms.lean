import SqlFilter.Proofs.AliasOrder
import SqlFilter.Proofs.PlainKey

/-!
This module contains the proof that an operator in a JSON array means what it means in a condition.
The array's token is replaced by the operator's own one, which is looked up again, so that this holds
for operators whose own tokens are not the names of others.
-/

namespace SqlFilter

/-- Whether an operator in a JSON array takes its operand as it is: every range but a negated one
may become a comparison, and the other families have operands of their own. -/
def Operator.takesOperand (op : Operator) : Bool :=
  match op.family with
  | .compare | .like | .oneOf | .time => true
  | _ => op == .notBetween || op == .notBetweenTime

namespace OperatorTable

theorem normalize_token (op : Operator) : normalize op.token = op.token := by
  cases op <;> decide +kernel

theorem standard_resolve?_token (op : Operator) : standard.resolve? op.token = some op := by
  have hlookup : List.lookup op.token standard.aliases = none := by
    cases op <;> decide
  rw [resolve?, normalize_token, hlookup]
  exact Operator.ofToken?_token op

theorem resolve?_token_of_addAliases {op : Operator} {aliases : List (String × String)}
    {table table' : OperatorTable} (h : addAliases aliases table = .ok table')
    (hn : ∀ entry ∈ aliases, normalize entry.1 ≠ op.token)
    (ht : table.resolve? op.token = some op) : table'.resolve? op.token = some op := by
  induction aliases generalizing table with
  | nil =>
    cases h
    exact ht
  | cons entry aliases ih =>
    obtain ⟨name, target⟩ := entry
    simp only [List.mem_cons, forall_eq_or_imp] at hn
    obtain ⟨⟨added, next⟩, ha, h⟩ := bind_eq_ok.1 h
    apply ih h hn.2
    rw [(resolve?_of_addAlias ha).2, normalize_token, if_neg (Ne.symm hn.1), ht]

end OperatorTable

namespace Compiler

variable {c : Compiler} {op : Operator} {token : String}

theorem operandOfJson_eq (ho : op.takesOperand = true) (operand : Json) :
    c.operandOfJson op operand = .ok (op.token, .ofJson operand) := by
  cases op <;> first | rfl | cases ho

theorem conditionOfJson_pair (ht : c.operators.resolve? token = some op)
    (ho : op.takesOperand = true) (name : String) (operand : Json) :
    c.conditionOfJson name (.array [.string token, operand]) =
      .ok (.of (.ofName name) op.token (.ofJson operand)) := by
  have hpair : c.pairOfJson token [operand] = .ok (op.token, .ofJson operand) := by
    rw [pairOfJson, OperatorTable.resolve, ht]
    exact operandOfJson_eq ho operand
  unfold conditionOfJson
  dsimp only
  rw [hpair]
  rfl

theorem testText_congr {token' : String} (h : c.operators.resolve token = c.operators.resolve token')
    (field : FieldRef) (type : Option BindType) (connective : Connective)
    (argument : Argument NestedSelect) :
    c.testText field ⟨token, type, connective⟩ argument =
      c.testText field ⟨token', type, connective⟩ argument := by
  unfold testText
  dsimp only
  rw [h]
  rfl

theorem compileCondition_of_clauseText_eq {condition condition' : Condition}
    (h : c.clauseText condition.clause = c.clauseText condition'.clause) :
    c.compileCondition condition = c.compileCondition condition' := by
  simp only [compileCondition, compileGroup, groupText, Group.clauses, Entry.clause, parts, h]

theorem compileCondition_congr {token' : String}
    (h : c.operators.resolve token = c.operators.resolve token') {name : String}
    (hn : Identifier.check name = .ok ()) (operand : Json) :
    c.compileCondition (.of (.ofName name) token (.ofJson operand)) =
      c.compileCondition (.of (.ofName name) token' (.ofJson operand)) := by
  apply compileCondition_of_clauseText_eq
  simp only [Condition.of, Condition.clause, FieldTree.ofField_of_check hn]
  unfold Operand.ofJson
  split <;>
    simp only [Operand.clause, FieldTree.spread, clauseText, testText_congr h]

theorem resolve?_token_of_new {config : Config} {schema : Schema}
    (h : Compiler.new config schema = .ok c)
    (hn : ∀ entry ∈ config.compiler.operatorAliases,
      OperatorTable.normalize entry.1 ≠ op.token) :
    c.operators.resolve? op.token = some op := by
  obtain ⟨operators, ha, h⟩ := bind_eq_ok.1 h
  cases h
  exact OperatorTable.resolve?_token_of_addAliases ha hn (OperatorTable.standard_resolve?_token op)

theorem compile_pair (hs : c.softDelete = none) {key : String} (hk : WhereMap.IsPlain key)
    (ht : c.operators.resolve? token = some op) (ho : op.takesOperand = true) (operand : Json) :
    c.compile (.map [(key, .array [.string token, operand])]) =
        (c.compileCondition (.of (.ofName key) op.token (.ofJson operand))).map
          Compiled.inParentheses ∧
    (c.operators.resolve? op.token = some op →
      c.compile (.map [(key, .array [.string token, operand])]) =
        (c.compileCondition (.of (.ofName key) token (.ofJson operand))).map
          Compiled.inParentheses) := by
  have hpair := compile_plain hs hk (conditionOfJson_pair ht ho key operand)
    (Condition.isSimple_of_check hk.check op.token (Operand.ofJson_ne_conditions operand))
  refine ⟨hpair, fun hown => ?_⟩
  have hsame : c.operators.resolve op.token = c.operators.resolve token := by
    rw [OperatorTable.resolve, OperatorTable.resolve, hown, ht]
  rw [hpair, compileCondition_congr hsame hk.check]

theorem compile_pair_atLeast : ∃ c,
    Compiler.new (Config.withAliases {} [("at least", ">=")]) {} = .ok c ∧
      c.compile (.map [("age", .array [.string "at least", .int 5])]) =
        (c.compileCondition (.of (.ofName "age") "at least" (.ofJson (.int 5)))).map
          Compiled.inParentheses := by
  have ⟨c, hc⟩ : ∃ c, Compiler.new (Config.withAliases {} [("at least", ">=")]) {} = .ok c := by
    rw [new_withAliases]
    exact ⟨_, rfl⟩
  refine ⟨c, hc, ?_⟩
  have hown : c.operators.resolve? Operator.greaterEqual.token = some .greaterEqual :=
    resolve?_token_of_new hc (by decide +kernel)
  rw [new_withAliases] at hc
  cases hc
  exact (compile_pair rfl ⟨rfl, rfl⟩ (by decide +kernel) rfl (.int 5)).2 hown

/-- An operator's own token may be another one's name, and then a pair with that operator is no
longer the condition with it. -/
theorem compile_pair_renamed :
    (Config.withAliases {} [(">", "<")]).check = .ok () ∧
    ∃ c, Compiler.new (Config.withAliases {} [(">", "<")]) {} = .ok c ∧ c.softDelete = none ∧
      c.operators.resolve? "gt" = some .greater ∧
      (c.compile (.map [("age", .array [.string "gt", .int 5])])).toOption.map Compiled.sql =
        some "( age < :p1 )" ∧
      (c.compileCondition (.of (.ofName "age") "gt" (.ofJson (.int 5)))).toOption.map
        Compiled.sql = some "age > :p1" := by
  refine ⟨rfl, ?_⟩
  rw [new_withAliases]
  exact ⟨_, rfl, rfl, by decide +kernel, by decide +kernel, by decide +kernel⟩

end Compiler

end SqlFilter
