import SqlFilter.Proofs.Ensures
import SqlFilter.Proofs.LeafForm
import SqlFilter.Proofs.Skeleton

/-!
This module contains the proof that no grouping is lost: the text of a filter is that of its
skeleton, whose leaves are the texts of its simple conditions, and no filter of another skeleton has
this text.
-/

namespace SqlFilter

open Binder Draft Text

def Text.unwrapped (s : String) : String :=
  String.ofList (s.toList.drop 2).dropLast.dropLast

theorem Text.unwrapped_grouped (s : String) : unwrapped ("( " ++ s ++ " )") = s := by
  have htext : ("( " ++ s ++ " )").toList = '(' :: ' ' :: (s.toList ++ [' '] ++ [')']) := by simp
  unfold unwrapped
  rw [htext, List.drop_succ_cons, List.drop_succ_cons, List.drop_zero, List.dropLast_concat,
    List.dropLast_concat, String.ofList_toList]

namespace Compiler

mutual

/--
Empty groups have no skeleton. A comparison of columns has parentheses of its own and counts as a
group.
-/
def clauseSkeleton (c : Compiler) : Clause → Binder (Option Skeleton)
  | .test field comparison argument => do
    let sql ← c.clauseText (.test field comparison argument)
    return some (if c.family? comparison.operator = some .column
      then .group (.last (.leaf (unwrapped sql))) else .leaf sql)
  | .group clauses => do
    let parts ← c.partSkeletons clauses
    return (Siblings.ofParts? parts).map .group
  | .raw fragment => do return some (.leaf (← c.clauseText (.raw fragment)))
  | .literal truth => do return some (.leaf (← c.clauseText (.literal truth)))
  | .failure error => throw error

def partSkeletons (c : Compiler) :
    List (Connective × Clause) → Binder (List (Connective × Skeleton))
  | [] => return []
  | (connective, clause) :: clauses => do
    let skeleton ← c.clauseSkeleton clause
    let others ← c.partSkeletons clauses
    return (skeleton.map fun s => (connective, s)).toList ++ others

end

def skeletonOf (c : Compiler) (group : Group) : Except CompileError (Option Siblings) := do
  let (parts, _) ← c.partSkeletons (Group.clauses group) (.empty c.config.bindStem)
  .ok (Siblings.ofParts? parts)

end Compiler

structure ReadsAs (sql : String) (skeleton : Option Skeleton) : Prop where
  text : sql = skeleton.elim "" Skeleton.text
  readable : ∀ s ∈ skeleton, s.Readable

structure ReadsAsParts (texts : List (Connective × String))
    (skeletons : List (Connective × Skeleton)) : Prop where
  texts : (texts.filter fun part => !part.2.isEmpty) =
    skeletons.map fun part => (part.1, part.2.text)
  readable : ∀ part ∈ skeletons, part.2.Readable

def InStep {α β : Type} (R : α → β → Prop) (r : α × BindTable) (r' : β × BindTable) : Prop :=
  R r.1 r'.1 ∧ r.2 = r'.2 ∧ r.2.Numbered ∧ CompilerConfig.isStem r.2.stem = true

namespace ReadsAs

theorem empty : ReadsAs "" none where
  text := rfl
  readable := by simp

theorem leaf {sql : String} (h : IsLeaf sql) : ReadsAs sql (some (.leaf sql)) where
  text := by rw [Option.elim_some, Skeleton.text]
  readable := by
    rintro s ⟨⟩
    simpa only [Skeleton.Readable] using h

theorem group {inside : Siblings} (h : inside.Readable) :
    ReadsAs ("( " ++ inside.text ++ " )") (some (.group inside)) where
  text := by rw [Option.elim_some, Skeleton.text]
  readable := by
    rintro s ⟨⟩
    simpa only [Skeleton.Readable] using h

theorem column {sql : String} (h : IsLeaf sql) :
    ReadsAs ("( " ++ sql ++ " )") (some (.group (.last (.leaf sql)))) := by
  have hinside : (Siblings.last (.leaf sql)).Readable := by
    simpa only [Siblings.Readable, Skeleton.Readable] using h
  have := group hinside
  rwa [Siblings.text, Skeleton.text] at this

end ReadsAs

namespace ReadsAsParts

variable {texts : List (Connective × String)} {skeletons : List (Connective × Skeleton)}

theorem nil : ReadsAsParts [] [] where
  texts := rfl
  readable := by simp

theorem cons {connective : Connective} {sql : String} {skeleton : Option Skeleton}
    (hs : ReadsAs sql skeleton) (h : ReadsAsParts texts skeletons) :
    ReadsAsParts ((connective, sql) :: texts)
      ((skeleton.map fun s => (connective, s)).toList ++ skeletons) := by
  obtain ⟨rfl, hr⟩ := hs
  cases skeleton with
  | none => exact ⟨by simpa using h.texts, by simpa using h.readable⟩
  | some s =>
    have hs : s.Readable := hr s rfl
    constructor
    . rw [List.filter_cons_of_pos (by simpa using hs.text_ne_empty), h.texts]
      rfl
    . simp only [Option.map_some, Option.toList_some, List.singleton_append, List.mem_cons,
        forall_eq_or_imp]
      exact ⟨hs, h.readable⟩

theorem whole (h : ReadsAsParts texts skeletons) :
    joinParts texts = Siblings.wholeText (Siblings.ofParts? skeletons) ∧
      ∀ s ∈ Siblings.ofParts? skeletons, s.Readable := by
  unfold joinParts
  rw [h.texts]
  have hr := h.readable
  cases skeletons with
  | nil => exact ⟨rfl, by simp [Siblings.ofParts?]⟩
  | cons part parts =>
    simp only [List.mem_cons, forall_eq_or_imp] at hr
    constructor
    . change _ = (Siblings.behind part.2 parts).text
      rw [Siblings.text_behind, List.map_cons]
      dsimp only
      rw [List.map_map]
      rfl
    . rintro s ⟨⟩
      exact Siblings.readable_behind hr.1 hr.2

theorem group (h : ReadsAsParts texts skeletons) :
    ReadsAs (parenthesized (joinParts texts)) ((Siblings.ofParts? skeletons).map .group) := by
  obtain ⟨hw, hr⟩ := h.whole
  rw [hw]
  cases he : Siblings.ofParts? skeletons with
  | none => exact .empty
  | some inside =>
    have hinside : inside.Readable := hr inside he
    have hne : ¬ inside.text.isEmpty = true := by
      rw [String.isEmpty_iff]
      exact hinside.text_ne_empty
    rw [parenthesized, Siblings.wholeText, Option.elim_some, if_neg hne]
    exact .group hinside

end ReadsAsParts

namespace Compiler

variable {c : Compiler}

theorem clauseText_test (hc : c.Regular) {field : FieldRef} {comparison : Comparison}
    {argument : Argument (SubQuery (List (Connective × Clause)))}
    (h : (Clause.test field comparison argument).rawFree = true) {table table' : BindTable}
    (ht : table.Numbered) (hs : CompilerConfig.isStem table.stem = true) {sql : String}
    (hr : c.clauseText (.test field comparison argument) table = .ok (sql, table')) :
    InStep ReadsAs (sql, table') (some (if c.family? comparison.operator = some .column
      then .group (.last (.leaf (unwrapped sql))) else .leaf sql), table') := by
  have hw := clauseText_writes hc.templates _ h table ht
  rw [hr] at hw
  obtain ⟨d, hd, hw⟩ := Option.map_eq_some_iff.1 hw.symm
  cases hw
  refine ⟨?_, rfl, ht.after d, by rwa [BindTable.stem_after]⟩
  simp only [Clause.rawFree, Clause.obeys, Bool.and_eq_true] at h
  simp only [clauseDraft] at hd
  have hfits := (c.draftInvariant_closed .noRaw).fits_nestedDraft argument h.2
  obtain ⟨family, hfamily, hform⟩ := testDraft_form hfits hd
  rw [hfamily]
  split
  . next he =>
    cases he
    obtain ⟨inside, rfl, hinside⟩ := hform.exists_isLeaf_of_column
    rw [written_text, written_nil, String.append_empty, unwrapped_grouped]
    exact .column hinside
  . next hne =>
    exact .leaf (hform.isLeaf_written (fun he => hne (by rw [he])) ht hs)

mutual

theorem clauseSkeleton_inStep (hc : c.Regular) : (clause : Clause) → clause.rawFree = true →
    (table : BindTable) → table.Numbered → CompilerConfig.isStem table.stem = true →
      Alongside (InStep ReadsAs) (c.clauseText clause table) (c.clauseSkeleton clause table)
  | .test field comparison argument, h, table, ht, hs => by
    rw [clauseSkeleton, run_bind]
    cases hr : c.clauseText (.test field comparison argument) table with
    | error e => exact .error e
    | ok r =>
      obtain ⟨sql, table'⟩ := r
      exact .ok (clauseText_test hc h ht hs hr)
  | .group clauses, h, table, ht, hs => by
    simp only [clauseText, clauseSkeleton]
    apply Alongside.bind (partSkeletons_inStep hc clauses h table ht hs)
    rintro ⟨texts, table⟩ ⟨skeletons, _⟩ ⟨hr, rfl, ht, hs⟩
    exact .ok ⟨hr.group, rfl, ht, hs⟩
  | .raw _, h, _, _, _ => by cases h
  | .literal true, _, table, ht, hs => by
    simp only [clauseText, clauseSkeleton]
    have hone : IsWord "1" := .of_all (by decide)
    exact .ok ⟨.leaf (hone.isLeaf (by decide)), rfl, ht, hs⟩
  | .literal false, _, _, _, _ => by
    simp only [clauseText, clauseSkeleton]
    exact .error _
  | .failure _, _, _, _, _ => by
    simp only [clauseText, clauseSkeleton]
    exact .error _

theorem partSkeletons_inStep (hc : c.Regular) : (clauses : List (Connective × Clause)) →
    Clause.allObey .noRaw clauses = true →
    (table : BindTable) → table.Numbered → CompilerConfig.isStem table.stem = true →
      Alongside (InStep ReadsAsParts) (c.parts clauses table) (c.partSkeletons clauses table)
  | [], _, table, ht, hs => by
    simp only [parts, partSkeletons]
    exact .ok ⟨.nil, rfl, ht, hs⟩
  | (connective, clause) :: clauses, h, table, ht, hs => by
    simp only [Clause.allObey, Bool.and_eq_true] at h
    simp only [parts, partSkeletons]
    apply Alongside.bind (clauseSkeleton_inStep hc clause h.1 table ht hs)
    rintro ⟨sql, table⟩ ⟨skeleton, _⟩ ⟨hr, rfl, ht, hs⟩
    apply Alongside.bind (partSkeletons_inStep hc clauses h.2 table ht hs)
    rintro ⟨texts, table⟩ ⟨skeletons, _⟩ ⟨hrs, rfl, ht, hs⟩
    exact .ok ⟨.cons hr hrs, rfl, ht, hs⟩

end

theorem skeletonOf_alongside (hc : c.Regular) (hs : c.softDelete = none) {group : Group}
    (hg : group.rawFree = true) :
    Alongside (fun compiled whole => compiled.sql = Siblings.wholeText whole ∧
        ∀ siblings ∈ whole, siblings.Readable)
      (c.compileGroup group) (c.skeletonOf group) := by
  rw [compileGroup_parts hs]
  apply Alongside.bind (partSkeletons_inStep hc _ (Group.obeys_clauses group hg) _
    (BindTable.numbered_empty _) (CompilerConfig.isStem_of_fault? hc.valid))
  rintro ⟨texts, table⟩ ⟨skeletons, _⟩ ⟨hr, rfl, _, _⟩
  exact .ok hr.whole

theorem skeletonOf_eq_of_sql_eq (hc : c.Regular) (hs : c.softDelete = none) {group group' : Group}
    (hg : group.rawFree = true) (hg' : group'.rawFree = true) {compiled compiled' : Compiled}
    (h : c.compileGroup group = .ok compiled) (h' : c.compileGroup group' = .ok compiled')
    (he : compiled.sql = compiled'.sql) :
    ∃ whole, c.skeletonOf group = .ok whole ∧ c.skeletonOf group' = .ok whole ∧
      compiled.sql = Siblings.wholeText whole ∧ Balanced compiled.sql.toList ∧
        ∀ place ∈ Siblings.wholeGroups whole,
          Encloses compiled.sql.toList place.1 place.2.text := by
  have read {group : Group} (hg : group.rawFree = true) {compiled : Compiled}
      (h : c.compileGroup group = .ok compiled) :
      ∃ whole, c.skeletonOf group = .ok whole ∧ compiled.sql = Siblings.wholeText whole ∧
        ∀ siblings ∈ whole, siblings.Readable := by
    have hr := skeletonOf_alongside hc hs hg
    rw [h] at hr
    generalize c.skeletonOf group = found at hr
    cases hr with
    | ok hr => exact ⟨_, rfl, hr⟩
  obtain ⟨whole, hw, ht, hr⟩ := read hg h
  obtain ⟨whole', hw', ht', hr'⟩ := read hg' h'
  have hsame : whole = whole' := by
    apply Siblings.wholeText_inj hr hr'
    rw [← ht, ← ht', he]
  subst hsame
  refine ⟨whole, hw, hw', ht, ?_, ?_⟩
  . rw [ht]
    exact (Siblings.closed_wholeText hr).balanced
  . rw [ht]
    exact Siblings.encloses_wholeGroups hr

def keywordNames : Group :=
  Group.all [.group (Group.any [.condition (.ofOperator "OR" .isNull .none),
      .condition (.ofOperator "AND" .isNull .none)]),
    .condition (.columns "BETWEEN" "<" "IS")]

def keywordField : Group :=
  Group.any [.condition (.ofOperator "OR|AND" .isNull .none)] ++
    Group.all [.deferred [], .condition (.columns "BETWEEN" "<" "IS")]

theorem skeletonOf_keywordNames :
    let c := standard {}
    c.Regular ∧ c.softDelete = none ∧ keywordNames.rawFree = true ∧ keywordField.rawFree = true ∧
      ∃ compiled compiled', c.compileGroup keywordNames = .ok compiled ∧
        c.compileGroup keywordField = .ok compiled' ∧ compiled.sql = compiled'.sql ∧
          compiled.sql = "( OR IS NULL OR AND IS NULL ) AND ( BETWEEN < IS )" ∧
            ∃ whole, c.skeletonOf keywordNames = .ok whole ∧ c.skeletonOf keywordField = .ok whole ∧
              (Siblings.wholeGroups whole).map Prod.fst = [0, 34] := by
  intro c
  have sql {g : Group} (h : (c.compileGroup g).toOption.map Compiled.sql =
      some "( OR IS NULL OR AND IS NULL ) AND ( BETWEEN < IS )") :
      ∃ compiled, c.compileGroup g = .ok compiled ∧
        compiled.sql = "( OR IS NULL OR AND IS NULL ) AND ( BETWEEN < IS )" := by
    obtain ⟨compiled, hc, hsql⟩ := Option.map_eq_some_iff.1 h
    exact ⟨compiled, toOption_eq_some hc, hsql⟩
  obtain ⟨compiled, h, hsql⟩ := sql (g := keywordNames) (by decide +kernel)
  obtain ⟨compiled', h', hsql'⟩ := sql (g := keywordField) (by decide +kernel)
  have hregular : c.Regular := regular_standard {}
  have hsame : compiled.sql = compiled'.sql := by rw [hsql, hsql']
  obtain ⟨whole, hw, hw', _⟩ :=
    skeletonOf_eq_of_sql_eq hregular (rfl : c.softDelete = none) rfl rfl h h' hsame
  have hplaces : (c.skeletonOf keywordNames).toOption.map
      (fun whole => (Siblings.wholeGroups whole).map Prod.fst) = some [0, 34] := by
    decide +kernel
  rw [hw] at hplaces
  exact ⟨hregular, rfl, rfl, rfl, compiled, compiled', h, h', hsame, hsql, whole, hw, hw',
    Option.some.inj hplaces⟩

end Compiler

end SqlFilter
