import SqlFilter.Proofs.ColumnCheck

/-!
This module contains what the order of an operator table's other names does to the operators that
tokens have. Each target is read with the names that have been added before, so names that are targets
of each other make the order count; for names that do not, it has no effect.
-/

namespace SqlFilter

namespace OperatorTable

variable {table table' : OperatorTable} {aliases aliases' : List (String × String)}

theorem resolve_eq_ok_iff {token : String} {op : Operator} :
    table.resolve token = .ok op ↔ table.resolve? token = some op := by
  unfold resolve
  cases table.resolve? token <;> simp

theorem resolve?_of_addAlias {name target : String} {op : Operator}
    (h : table.addAlias name target = .ok (op, table')) : table.resolve? target = some op ∧
      ∀ token, table'.resolve? token =
        if normalize token = normalize name then some op else table.resolve? token := by
  obtain ⟨op', ho, h⟩ := bind_eq_ok.1 h
  simp only [Except.ok.injEq, Prod.mk.injEq] at h
  obtain ⟨rfl, rfl⟩ := h
  refine ⟨resolve_eq_ok_iff.1 ho, ?_⟩
  intro token
  unfold resolve?
  rw [Dictionary.lookup_insert]
  by_cases hn : normalize token = normalize name
  . rw [if_pos hn, if_pos hn]
  . rw [if_neg hn, if_neg hn]

def meaning (aliases : List (String × String)) (token : String) : Option Operator :=
  match aliases.find? fun entry => normalize entry.1 == normalize token with
  | some entry => standard.resolve? entry.2
  | none => standard.resolve? token

/-- Whether spellings of one name have one operator, and names that are targets have the operator
that the target has without them. -/
def Unambiguous (aliases : List (String × String)) : Prop :=
  ∀ entry ∈ aliases, ∀ other ∈ aliases,
    normalize other.1 = normalize entry.1 ∨ normalize other.1 = normalize entry.2 →
      standard.resolve? other.2 = standard.resolve? entry.2

instance : Decidable (Unambiguous aliases) :=
  inferInstanceAs (Decidable (∀ entry ∈ aliases, ∀ other ∈ aliases, _ → _))

namespace Unambiguous

theorem meaning_eq (h : Unambiguous aliases) {entry : String × String} (hm : entry ∈ aliases)
    {token : String} (hn : normalize entry.1 = normalize token) :
    meaning aliases token = standard.resolve? entry.2 := by
  unfold meaning
  split
  . next other hf =>
    have hother := List.find?_some hf
    rw [beq_iff_eq] at hother
    exact h entry hm other (List.mem_of_find?_eq_some hf) (.inl (hother.trans hn.symm))
  . next hf =>
    have := List.find?_eq_none.1 hf entry hm
    simp [hn] at this

theorem perm (h : Unambiguous aliases) (hp : aliases.Perm aliases') : Unambiguous aliases' :=
  fun entry hm other ho => h entry (hp.mem_iff.2 hm) other (hp.mem_iff.2 ho)

theorem meaning_perm (h : Unambiguous aliases) (hp : aliases.Perm aliases') (token : String) :
    meaning aliases token = meaning aliases' token := by
  by_cases hex : ∃ entry ∈ aliases, normalize entry.1 = normalize token
  . obtain ⟨entry, hm, hn⟩ := hex
    rw [h.meaning_eq hm hn, (h.perm hp).meaning_eq (hp.mem_iff.1 hm) hn]
  . have hnone (list : List (String × String)) (hl : ∀ entry ∈ list, entry ∈ aliases) :
        meaning list token = standard.resolve? token := by
      have hf : list.find? (fun entry => normalize entry.1 == normalize token) = none := by
        rw [List.find?_eq_none]
        intro entry hm hn
        exact hex ⟨entry, hl entry hm, beq_iff_eq.1 hn⟩
      rw [meaning, hf]
    rw [hnone aliases fun _ hm => hm, hnone aliases' fun _ hm => hp.mem_iff.2 hm]

-- the names that have been added so far leave every target as it was
theorem meaning_target {before after : List (String × String)} {entry : String × String}
    (h : Unambiguous (before ++ entry :: after)) :
    meaning before entry.2 = standard.resolve? entry.2 := by
  unfold meaning
  split
  . next other hf =>
    have hother := List.find?_some hf
    rw [beq_iff_eq] at hother
    exact h entry (by simp) other (by simp [List.mem_of_find?_eq_some hf]) (.inr hother)
  . rfl

theorem meaning_append_singleton {before : List (String × String)} {entry : String × String}
    (h : Unambiguous (before ++ [entry])) (token : String) :
    meaning (before ++ [entry]) token =
      if normalize token = normalize entry.1 then standard.resolve? entry.2
      else meaning before token := by
  split
  . next hn => exact h.meaning_eq (by simp) hn.symm
  . next hn =>
    have hlast : [entry].find? (fun entry => normalize entry.1 == normalize token) = none := by
      simpa using Ne.symm hn
    unfold meaning
    rw [List.find?_append, hlast, Option.or_none]

end Unambiguous

theorem addAliases_spec {before after : List (String × String)} (h : Unambiguous (before ++ after))
    (ht : ∀ token, table.resolve? token = meaning before token) :
    match addAliases after table with
    | .ok table' => (∀ entry ∈ after, (standard.resolve? entry.2).isSome = true) ∧
      ∀ token, table'.resolve? token = meaning (before ++ after) token
    | .error _ => ∃ entry ∈ after, standard.resolve? entry.2 = none := by
  induction after generalizing before table with
  | nil => simpa [addAliases] using ht
  | cons entry after ih =>
    obtain ⟨name, target⟩ := entry
    have htarget : table.resolve? target = standard.resolve? target := by
      rw [ht, h.meaning_target]
    cases hop : standard.resolve? target with
    | none =>
      have : addAliases ((name, target) :: after) table = .error (.unknownOperator target) := by
        simp only [addAliases, addAlias, resolve, htarget, hop]
        rfl
      rw [this]
      exact ⟨(name, target), by simp, hop⟩
    | some op =>
      obtain ⟨table', hadd⟩ : ∃ table', table.addAlias name target = .ok (op, table') := by
        simp only [addAlias, resolve, htarget, hop]
        exact ⟨_, rfl⟩
      have hstep : addAliases ((name, target) :: after) table = addAliases after table' := by
        rw [addAliases, hadd]
        rfl
      have hsplit : before ++ (name, target) :: after = (before ++ [(name, target)]) ++ after := by
        simp
      rw [hsplit] at h ⊢
      rw [hstep]
      have hbefore : Unambiguous (before ++ [(name, target)]) := fun entry hm other ho =>
        h entry (List.mem_append_left after hm) other (List.mem_append_left after ho)
      have hmeaning : ∀ token, table'.resolve? token = meaning (before ++ [(name, target)]) token := by
        intro token
        rw [hbefore.meaning_append_singleton, (resolve?_of_addAlias hadd).2, ht, hop]
      have ih := ih h hmeaning
      cases hrest : addAliases after table' with
      | ok last =>
        rw [hrest] at ih
        simp only [List.mem_cons, forall_eq_or_imp, hop, Option.isSome_some, true_and]
        exact ih
      | error e =>
        rw [hrest] at ih
        obtain ⟨entry, hm, hn⟩ := ih
        exact ⟨entry, .tail _ hm, hn⟩

theorem addAliases_standard (h : Unambiguous aliases) :
    match addAliases aliases standard with
    | .ok table => (∀ entry ∈ aliases, (standard.resolve? entry.2).isSome = true) ∧
      ∀ token, table.resolve? token = meaning aliases token
    | .error _ => ∃ entry ∈ aliases, standard.resolve? entry.2 = none :=
  @addAliases_spec standard [] aliases h fun _ => rfl

end OperatorTable

def Config.withAliases (config : Config) (aliases : Dictionary String) : Config :=
  { config with compiler := { config.compiler with operatorAliases := aliases } }

namespace Compiler

open OperatorTable

variable {aliases aliases' : Dictionary String}

def ofOperators (config : Config) (schema : Schema) (operators : OperatorTable) : Compiler where
  config := config.compiler
  operators := operators
  schema := schema
  placeholder := config.dialect.placeholder

theorem new_eq (config : Config) (schema : Schema) :
    Compiler.new config schema =
      (addAliases config.compiler.operatorAliases .standard).map (ofOperators config schema) := by
  unfold Compiler.new
  cases addAliases config.compiler.operatorAliases .standard <;> rfl

theorem new_withAliases (config : Config) (schema : Schema) (aliases : Dictionary String) :
    Compiler.new (config.withAliases aliases) schema =
      (addAliases aliases .standard).map (ofOperators (config.withAliases aliases) schema) :=
  new_eq (config.withAliases aliases) schema

theorem compile_ofOperators (config : Config) (schema : Schema) {operators operators' : OperatorTable}
    (h : ∀ token, operators.resolve? token = operators'.resolve? token) (input : WhereInput) :
    (ofOperators (config.withAliases aliases) schema operators).compile input =
      (ofOperators (config.withAliases aliases') schema operators').compile input := by
  have hguards : (ofOperators (config.withAliases aliases) schema operators).Guards (fun _ => True)
      (ofOperators (config.withAliases aliases') schema operators') :=
    ⟨fun _ => .refl trivial _, h, rfl, rfl⟩
  exact (hguards.compile ⟨rfl, rfl, rfl⟩ ⟨h, rfl, rfl⟩ input).same fun _ _ => trivial

theorem exists_new_iff (hu : Unambiguous aliases) {config : Config} {schema : Schema} :
    (∃ c, Compiler.new (config.withAliases aliases) schema = .ok c) ↔
      ∀ entry ∈ aliases, (OperatorTable.standard.resolve? entry.2).isSome = true := by
  have hspec := addAliases_standard hu
  rw [new_withAliases]
  cases h : addAliases aliases .standard with
  | ok operators =>
    rw [h] at hspec
    exact ⟨fun _ => hspec.1, fun _ => ⟨_, rfl⟩⟩
  | error e =>
    rw [h] at hspec
    obtain ⟨entry, hm, hn⟩ := hspec
    constructor
    . rintro ⟨c, hc⟩
      cases hc
    . intro hall
      have := hall entry hm
      rw [hn] at this
      cases this

theorem meaning_of_new (hu : Unambiguous aliases) {config : Config} {schema : Schema} {c : Compiler}
    (hc : Compiler.new (config.withAliases aliases) schema = .ok c) :
    ∃ operators, c = ofOperators (config.withAliases aliases) schema operators ∧
      ∀ token, operators.resolve? token = meaning aliases token := by
  have hspec := addAliases_standard hu
  rw [new_withAliases] at hc
  cases h : addAliases aliases .standard with
  | ok operators =>
    rw [h] at hspec hc
    cases hc
    exact ⟨operators, rfl, hspec.2⟩
  | error e =>
    rw [h] at hc
    cases hc

theorem new_perm (config : Config) (schema : Schema) (hp : aliases.Perm aliases')
    (hu : Unambiguous aliases) :
    ((∃ c, Compiler.new (config.withAliases aliases) schema = .ok c) ↔
      ∃ c', Compiler.new (config.withAliases aliases') schema = .ok c') ∧
    ∀ c c', Compiler.new (config.withAliases aliases) schema = .ok c →
      Compiler.new (config.withAliases aliases') schema = .ok c' →
        (∀ token, c.operators.resolve? token = c'.operators.resolve? token) ∧
        ∀ input, c.compile input = c'.compile input := by
  constructor
  . rw [exists_new_iff hu, exists_new_iff (hu.perm hp)]
    exact ⟨fun h entry hm => h entry (hp.mem_iff.2 hm), fun h entry hm => h entry (hp.mem_iff.1 hm)⟩
  . intro c c' hc hc'
    obtain ⟨operators, rfl, hm⟩ := meaning_of_new hu hc
    obtain ⟨operators', rfl, hm'⟩ := meaning_of_new (hu.perm hp) hc'
    have hresolve : ∀ token, operators.resolve? token = operators'.resolve? token := by
      intro token
      rw [hm, hm', hu.meaning_perm hp]
    exact ⟨hresolve, compile_ofOperators config schema hresolve⟩

theorem new_perm_twoNames :
    ([("!=", "<>"), ("is", "eq")] : Dictionary String).Perm [("is", "eq"), ("!=", "<>")] ∧
    Unambiguous [("!=", "<>"), ("is", "eq")] ∧
    ∀ c c', Compiler.new (Config.withAliases {} [("!=", "<>"), ("is", "eq")]) {} = .ok c →
      Compiler.new (Config.withAliases {} [("is", "eq"), ("!=", "<>")]) {} = .ok c' →
        ∀ input, c.compile input = c'.compile input := by
  have hp : ([("!=", "<>"), ("is", "eq")] : Dictionary String).Perm [("is", "eq"), ("!=", "<>")] :=
    .swap _ _ _
  have hu : Unambiguous [("!=", "<>"), ("is", "eq")] := by decide +kernel
  exact ⟨hp, hu, fun c c' hc hc' => ((new_perm {} {} hp hu).2 c c' hc hc').2⟩

/-- A target that is another name is an operator only once that name has been added. -/
theorem new_chainedNames :
    (Config.withAliases {} [("x", "y"), ("y", "=")]).check = .ok () ∧
    (Config.withAliases {} [("y", "="), ("x", "y")]).check = .ok () ∧
    ([("x", "y"), ("y", "=")] : Dictionary String).Perm [("y", "="), ("x", "y")] ∧
    Compiler.new (Config.withAliases {} [("x", "y"), ("y", "=")]) {} = .error (.unknownOperator "y") ∧
    ∃ c, Compiler.new (Config.withAliases {} [("y", "="), ("x", "y")]) {} = .ok c := by
  refine ⟨rfl, rfl, .swap _ _ _, ?_, ?_⟩
  . rw [new_withAliases]
    rfl
  . rw [new_withAliases]
    exact ⟨_, rfl⟩

end Compiler

end SqlFilter
