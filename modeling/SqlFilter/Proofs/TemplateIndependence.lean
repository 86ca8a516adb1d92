import SqlFilter.Proofs.DecodedConditions
import SqlFilter.Proofs.Ensures
import SqlFilter.Proofs.JsonForm

/-!
This module contains the proof that the templates of statements do not matter for filters that are
decoded from JSON: these have no sub-queries, which alone are written with a template.
-/

namespace SqlFilter

theorem Group.clauses_eq_map (group : Group) :
    Group.clauses group = group.map fun part => (part.1, part.2.clause) := by
  induction group with
  | nil => rfl
  | cons part group ih =>
    rw [Group.clauses, ih]
    rfl

namespace Compiler

def withStandardTemplates (c : Compiler) : Compiler :=
  { c with templates := .standard }

def IsTemplateFree (c : Compiler) (clause : Clause) : Prop :=
  c.withStandardTemplates.clauseText clause = c.clauseText clause

variable {c : Compiler}

theorem parts_withStandardTemplates {clauses : List (Connective × Clause)}
    (h : ∀ part ∈ clauses, c.IsTemplateFree part.2) :
    c.withStandardTemplates.parts clauses = c.parts clauses := by
  induction clauses with
  | nil => rw [parts, parts]
  | cons part clauses ih =>
    obtain ⟨connective, clause⟩ := part
    simp only [List.mem_cons, forall_eq_or_imp] at h
    rw [parts, parts, h.1, ih h.2]

namespace IsTemplateFree

theorem group {clauses : List (Connective × Clause)}
    (h : ∀ part ∈ clauses, c.IsTemplateFree part.2) :
    c.IsTemplateFree (.group clauses) := by
  rw [IsTemplateFree, clauseText, clauseText, parts_withStandardTemplates h]

theorem test (field : FieldRef) (comparison : Comparison)
    {argument : Argument (SubQuery (List (Connective × Clause)))}
    (h : ∀ query, argument ≠ .subQuery query) :
    c.IsTemplateFree (.test field comparison argument) := by
  rw [IsTemplateFree, clauseText, clauseText]
  cases argument with
  | subQuery query => exact absurd rfl (h query)
  | _ => rfl

mutual

theorem spread {clause : FieldRef → Clause} (h : ∀ field, c.IsTemplateFree (clause field)) :
    (tree : FieldTree) → c.IsTemplateFree (tree.spread clause)
  | .single field => h field
  | .joined connective parts => .group (spreadParts h connective parts)

theorem spreadParts {clause : FieldRef → Clause} (h : ∀ field, c.IsTemplateFree (clause field))
    (connective : Connective) : (parts : List FieldTree) →
      ∀ part ∈ FieldTree.spreadParts clause connective parts, c.IsTemplateFree part.2
  | [] => by
    rintro part ⟨⟩
  | tree :: parts => by
    rw [FieldTree.spreadParts]
    exact List.forall_mem_cons.2 ⟨spread h tree, spreadParts h connective parts⟩

end

theorem operand {config : CompilerConfig} {operand : Operand} (h : operand.OfJson config)
    (comparison : Comparison) (tree : FieldTree) :
    c.IsTemplateFree (operand.clause comparison tree) := by
  cases h with
  | none | value _ | list _ | column _ _ | raw _ _ =>
    rw [Operand.clause]
    apply spread
    intro field
    exact .test field comparison (by rintro query ⟨⟩)

theorem itemClauses {config : CompilerConfig} {pairs : List OperatorOperand}
    (h : ∀ pair ∈ pairs, pair.2.OfJson config) (comparison : Comparison) (connective : Connective)
    (field : FieldRef) :
    ∀ part ∈ Operand.itemClauses pairs comparison connective field, c.IsTemplateFree part.2 := by
  induction pairs with
  | nil => simp [Operand.itemClauses]
  | cons pair pairs ih =>
    simp only [List.mem_cons, forall_eq_or_imp] at h
    rw [Operand.itemClauses]
    exact List.forall_mem_cons.2 ⟨operand h.1 _ _, ih h.2⟩

theorem condition {config : CompilerConfig} {field : String} {condition : Condition}
    (h : condition.OfJson config field) : c.IsTemplateFree condition.clause := by
  cases h with
  | single ho => exact operand ho _ _
  | several _ hpairs =>
    rw [Condition.of, Condition.clause, Operand.clause]
    apply spread
    intro field
    split
    . rw [IsTemplateFree, clauseText, clauseText]
    . exact group (itemClauses hpairs _ _ field)

theorem clauses {entries : List (Connective × Entry)}
    (h : ∀ part ∈ entries, c.IsTemplateFree part.2.clause) :
    ∀ part ∈ Group.clauses entries, c.IsTemplateFree part.2 := by
  rw [Group.clauses_eq_map]
  intro part hm
  obtain ⟨part', hm', rfl⟩ := List.mem_map.1 hm
  exact h part' hm'

theorem entry {config : CompilerConfig} {entry : Entry}
    (h : entry.MadeOf fun condition => ∃ field, condition.OfJson config field) :
    c.IsTemplateFree entry.clause := by
  induction h with
  | condition h =>
    obtain ⟨field, h⟩ := h
    exact condition h
  | group _ ih =>
    rw [Entry.clause]
    exact group (clauses ih)

end IsTemplateFree

theorem compileGroup_withStandardTemplates (hs : c.softDelete = none) {group : Group}
    (h : Group.MadeOf (fun condition => ∃ field, condition.OfJson c.config field) group) :
    c.withStandardTemplates.compileGroup group = c.compileGroup group := by
  have hparts : c.withStandardTemplates.parts (Group.clauses group) =
      c.parts (Group.clauses group) :=
    parts_withStandardTemplates (IsTemplateFree.clauses fun part hm => .entry (h part hm))
  rw [compileGroup_parts hs, compileGroup_parts (c := c.withStandardTemplates) hs, hparts]
  rfl

end Compiler

end SqlFilter
