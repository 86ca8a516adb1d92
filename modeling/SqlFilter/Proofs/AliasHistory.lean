import SqlFilter.Proofs.AliasOrder

/-!
This module contains histories of an operator table: calls that add other names one after another,
to targets that may be such names themselves. A call gives all spellings of its name the operator
that the target has at this moment and does nothing else, so that a name keeps its operator when its
target gets another one. The table can be kept as texts as well: names that are rewritten, in one
step, to operators' own tokens.
-/

namespace SqlFilter

abbrev Rewrites := Dictionary String

namespace OperatorTable

def perform (table : OperatorTable) (call : String × String) : OperatorTable :=
  ((table.addAlias call.1 call.2).map Prod.snd).toOption.getD table

def after (calls : List (String × String)) : OperatorTable :=
  calls.foldl perform standard

end OperatorTable

namespace Rewrites

open OperatorTable

def standard : Rewrites :=
  [("NOTLIKE", "NOT LIKE"), ("NOTIN", "NOT IN"), ("NOTBETWEEN", "NOT BETWEEN"),
   ("NOTEXISTS", "NOT EXISTS"), ("NOTNULL", "NOT NULL"), ("NOTBETWEEN TIME", "NOT BETWEEN TIME"),
   ("EQ", "="), ("NEQ", "<>"), ("GT", ">"), ("EGT", ">="), ("LT", "<"), ("ELT", "<=")]

def resolve? (rewrites : Rewrites) (token : String) : Option Operator :=
  Operator.ofToken? ((List.lookup (normalize token) rewrites).getD (normalize token))

def perform (rewrites : Rewrites) (call : String × String) : Rewrites :=
  match rewrites.resolve? call.2 with
  | some op => Dictionary.insert (normalize call.1) op.token rewrites
  | none => rewrites

def after (calls : List (String × String)) : Rewrites :=
  calls.foldl perform standard

end Rewrites

namespace OperatorTable

variable {table : OperatorTable} {rewrites : Rewrites}

section Call

variable {name target : String}

theorem addAlias_of_resolve?_eq_none (h : table.resolve? target = none) :
    table.addAlias name target = .error (.unknownOperator target) := by
  rw [addAlias, resolve, h]
  rfl

theorem addAlias_of_resolve?_eq_some {op : Operator} (h : table.resolve? target = some op) :
    table.addAlias name target =
      .ok (op, ⟨Dictionary.insert (normalize name) op table.aliases⟩) := by
  rw [addAlias, resolve, h]
  rfl

theorem perform_cases (table : OperatorTable) (call : String × String) :
    (table.resolve? call.2 = none ∧ table.perform call = table) ∨
      ∃ op, table.resolve? call.2 = some op ∧
        table.perform call = ⟨Dictionary.insert (normalize call.1) op table.aliases⟩ := by
  cases h : table.resolve? call.2 with
  | none => exact .inl ⟨rfl, by rw [perform, addAlias_of_resolve?_eq_none h]; rfl⟩
  | some op => exact .inr ⟨op, rfl, by rw [perform, addAlias_of_resolve?_eq_some h]; rfl⟩

end Call

theorem resolve?_congr {token token' : String} (h : normalize token = normalize token') :
    table.resolve? token = table.resolve? token' := by
  rw [resolve?, resolve?, h]

theorem resolve?_perform_of_ne {call : String × String} {token : String}
    (h : normalize call.1 ≠ normalize token) :
    (table.perform call).resolve? token = table.resolve? token := by
  rcases table.perform_cases call with ⟨_, he⟩ | ⟨op, _, he⟩
  . rw [he]
  . rw [he, resolve?, Dictionary.lookup_insert, if_neg (Ne.symm h)]
    rfl

theorem resolve?_foldl_of_ne {calls : List (String × String)} {token : String}
    (h : ∀ call ∈ calls, normalize call.1 ≠ normalize token) :
    (calls.foldl perform table).resolve? token = table.resolve? token := by
  induction calls generalizing table with
  | nil => rfl
  | cons call calls ih =>
    simp only [List.mem_cons, forall_eq_or_imp] at h
    rw [List.foldl_cons, ih h.2, resolve?_perform_of_ne h.1]

def WrittenAs (table : OperatorTable) (rewrites : Rewrites) : Prop :=
  rewrites = table.aliases.map fun entry => (entry.1, entry.2.token)

namespace WrittenAs

theorem lookup (h : table.WrittenAs rewrites) (name : String) :
    List.lookup name rewrites = (List.lookup name table.aliases).map Operator.token := by
  rw [h]
  induction table.aliases with
  | nil => rfl
  | cons entry rest ih =>
    rw [List.map_cons, Dictionary.lookup_cons, Dictionary.lookup_cons, ih]
    split <;> rfl

theorem resolve? (h : table.WrittenAs rewrites) (token : String) :
    rewrites.resolve? token = table.resolve? token := by
  unfold Rewrites.resolve? OperatorTable.resolve?
  rw [h.lookup]
  cases List.lookup (normalize token) table.aliases with
  | none => rfl
  | some op => exact op.ofToken?_token

theorem insert (h : table.WrittenAs rewrites) (name : String) (op : Operator) :
    WrittenAs ⟨Dictionary.insert name op table.aliases⟩
      (Dictionary.insert name op.token rewrites) := by
  unfold WrittenAs at h ⊢
  rw [h]
  induction table.aliases with
  | nil => rfl
  | cons entry rest ih =>
    simp only [Dictionary.insert, List.map_cons]
    split
    . rfl
    . rw [List.map_cons, ih]

theorem perform (h : table.WrittenAs rewrites) (call : String × String) :
    (table.perform call).WrittenAs (rewrites.perform call) := by
  unfold Rewrites.perform
  rw [h.resolve?]
  rcases table.perform_cases call with ⟨hn, he⟩ | ⟨op, hs, he⟩
  . rw [hn, he]
    exact h
  . rw [hs, he]
    exact h.insert _ op

theorem foldl (h : table.WrittenAs rewrites) (calls : List (String × String)) :
    (calls.foldl OperatorTable.perform table).WrittenAs
      (calls.foldl Rewrites.perform rewrites) := by
  induction calls generalizing table rewrites with
  | nil => exact h
  | cons call calls ih => exact ih (h.perform call)

end WrittenAs

theorem after_writtenAs (calls : List (String × String)) :
    (after calls).WrittenAs (Rewrites.after calls) :=
  WrittenAs.foldl (by rfl) calls

structure Registers (table : OperatorTable) (rewrites : Rewrites) : Prop where
  fails : ∀ name target, table.resolve? target = none →
    table.addAlias name target = .error (.unknownOperator target) ∧
      table.perform (name, target) = table
  adds : ∀ name target op, table.resolve? target = some op →
    ∃ next, table.addAlias name target = .ok (op, next) ∧ table.perform (name, target) = next ∧
      ∀ token, next.resolve? token =
        if normalize token = normalize name then some op else table.resolve? token
  keeps : ∀ (later : List (String × String)) (token : String),
    (∀ call ∈ later, normalize call.1 ≠ normalize token) →
      (later.foldl perform table).resolve? token = table.resolve? token
  canonical : ∀ entry ∈ rewrites, ∃ op, entry.2 = op.token ∧ Operator.ofToken? entry.2 = some op
  rewritten : ∀ token, rewrites.resolve? token = table.resolve? token
  named : ∀ token, (List.lookup (normalize token) rewrites).isSome = true →
    (table.resolve? token).isSome = true
  normalized : ∀ token token', normalize token = normalize token' →
    table.resolve? token = table.resolve? token'

theorem WrittenAs.registers (h : table.WrittenAs rewrites) : table.Registers rewrites where
  fails name target hn := by
    refine ⟨addAlias_of_resolve?_eq_none hn, ?_⟩
    rw [OperatorTable.perform, addAlias_of_resolve?_eq_none hn]
    rfl
  adds name target op hs := by
    have hadd : table.addAlias name target = _ := addAlias_of_resolve?_eq_some hs
    refine ⟨_, hadd, ?_, (resolve?_of_addAlias hadd).2⟩
    rw [OperatorTable.perform, hadd]
    rfl
  keeps _ _ hl := resolve?_foldl_of_ne hl
  canonical entry hm := by
    rw [h] at hm
    obtain ⟨⟨name, op⟩, _, rfl⟩ := List.mem_map.1 hm
    exact ⟨op, rfl, op.ofToken?_token⟩
  rewritten := h.resolve?
  named token hs := by
    rw [h.lookup, Option.isSome_map, Option.isSome_iff_exists] at hs
    obtain ⟨op, hop⟩ := hs
    rw [OperatorTable.resolve?, hop]
    rfl
  normalized _ _ := resolve?_congr

theorem registers_after (calls : List (String × String)) :
    (after calls).Registers (Rewrites.after calls) :=
  (after_writtenAs calls).registers

-- a name of a name keeps its operator when the name between gets another one
example :
    ["a", "b", "eq", "c"].map (after
      [("a", "eq"), ("b", "A"), ("c", "?"), ("eq", "<"), (" A", "in")]).resolve? =
    [some .oneOf, some .equal, some .less, none] := by
  decide +kernel

end OperatorTable

end SqlFilter
