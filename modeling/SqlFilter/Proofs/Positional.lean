import SqlFilter.Proofs.FreshDraft
import SqlFilter.Proofs.Placeholder

/-!
This module contains the proof that compiling refines the compiler without a table of binds: if no
value spells a placeholder, the finished statement has the text of the draft with marks in it, and
the values of the draft in their order.
-/

namespace SqlFilter

open Draft

namespace BindTable

variable {table : BindTable}

theorem Numbered.written_eq (ht : table.Numbered) {p : Piece} {value : Value} {type : BindType}
    (hp : p.param? = some (value, type))
    (hf : ∀ type v, p = .scalar type v → v.beginsWithColon = false) :
    p.tokens table = [.reference (table.generated (table.counter + 1))] ∧
      p.after table = table.push value type := by
  have hnew := ht.value_next hp fun type v he => reference?_eq_none (hf type v he)
  exact ⟨Piece.tokens_of_written hp hnew.1, hnew.2⟩

end BindTable

def Text.numberMarks : Nat → List Char → List Char
  | _, [] => []
  | number, c :: cs =>
    if c = '?' then ("$" ++ Decimal.natText number).toList ++ numberMarks (number + 1) cs
    else c :: numberMarks number cs

theorem Text.numberMarks_append {cs : List Char} (h : '?' ∉ cs) (number : Nat)
    (rest : List Char) : numberMarks number (cs ++ rest) = cs ++ numberMarks number rest := by
  induction cs with
  | nil => rfl
  | cons c cs ih =>
    simp only [List.mem_cons, not_or] at h
    have hc : c ≠ '?' := fun he => h.1 he.symm
    simp [numberMarks, hc, ih h.2]

namespace Draft

variable {style : QuoteStyle} {table : BindTable} {d : Draft}

theorem marked_value {p : Piece} (hp : p.param?.isSome = true) : p.marked = "?" := by
  cases p with
  | text s => cases hp
  | fresh type v => rfl
  | scalar type v => rfl

theorem flatMap_write_question (ht : table.Numbered) :
    (tokens table d).flatMap (SqlToken.write fun _ => "?") = d.marked.toList := by
  induction d using induction_on generalizing table with
  | nil => rfl
  | text s d ih =>
    simp [tokens, Piece.tokens, Piece.after, ih ht, marked, Piece.marked, List.flatMap_map,
      SqlToken.write]
  | value p value type d hp ih =>
    obtain ⟨i, hr, _, _⟩ := p.tokens_cases ht hp
    have := ih (ht.after_piece p)
    simp [tokens, hr, this, marked, marked_value (by simp [hp] : p.param?.isSome = true),
      SqlToken.write]

theorem flatMap_write_dollar (hd : Clean style.char d) (hf : Fresh d) (ht : table.Numbered) :
    (tokens table d).flatMap (SqlToken.write (Compiled.dollarOf table.stem)) =
      Text.numberMarks (table.counter + 1) d.marked.toList := by
  induction d using induction_on generalizing table with
  | nil => rfl
  | text s d ih =>
    have hs : '?' ∉ s.toList := fun hm => ((hd.safe s List.mem_cons_self).ne_of_mem hm).2.2 rfl
    have := ih hd.tail hf.tail ht
    simp [tokens, Piece.tokens, Piece.after, this, marked, Piece.marked, List.flatMap_map,
      SqlToken.write, Text.numberMarks_append hs]
  | value p value type d hp ih =>
    obtain ⟨hr, ha⟩ := ht.written_eq hp fun type v he => hf type v (by simp [he])
    -- the number of the bind is that of its mark, so both counts go on with the next one
    have := ih hd.tail hf.tail (ht.after_piece p)
    rw [BindTable.stem_after_piece] at this
    rw [ha] at this
    have hmark : marked (p :: d) = "?" ++ d.marked := by
      simp [marked, marked_value (by simp [hp] : p.param?.isSome = true)]
    simp only [tokens, hr, ha, List.cons_append, List.nil_append, List.flatMap_cons,
      SqlToken.write, BindTable.generated, Compiled.dollarOf_append, this, hmark]
    simp [Text.numberMarks, BindTable.push]

theorem names_tokens (hf : Fresh d) (ht : table.Numbered) :
    table.names ++ (tokens table d).filterMap SqlToken.name? = (after table d).names := by
  induction d using induction_on generalizing table with
  | nil => simp [tokens]
  | text s d ih =>
    rw [names_text]
    exact ih hf.tail ht
  | value p value type d hp ih =>
    obtain ⟨hr, ha⟩ := ht.written_eq hp fun type v he => hf type v (by simp [he])
    rw [after_cons]
    rw [← ih hf.tail (ht.after_piece p)]
    simp [tokens, hr, ha, BindTable.push, BindTable.names, SqlToken.name?]

theorem binds_after (hf : Fresh d) (ht : table.Numbered) :
    ((after table d).binds.map fun b => (b.value, b.type)) =
      (table.binds.map fun b => (b.value, b.type)) ++ d.params := by
  induction d using induction_on generalizing table with
  | nil => simp [params]
  | text s d ih => simpa [params, List.filterMap_cons, Piece.param?] using ih hf.tail ht
  | value p value type d hp ih =>
    obtain ⟨_, ha⟩ := ht.written_eq hp fun type v he => hf type v (by simp [he])
    rw [after_cons]
    rw [ih hf.tail (ht.after_piece p)]
    simp [ha, BindTable.push, params, hp]

end Draft

structure Compiled.FinishesTo (compiled : Compiled) (d : Draft) : Prop where
  question : compiled.inStyle .question = ⟨d.marked, d.params.map Prod.fst⟩
  dollar : compiled.inStyle .dollar =
    ⟨String.ofList (Text.numberMarks 1 d.marked.toList), d.params.map Prod.fst⟩
  types : compiled.binds.map Bind.type = d.params.map Prod.snd

theorem Draft.finishesTo_compiled {style : QuoteStyle} {d : Draft} {stem : String}
    {placeholder : PlaceholderStyle} (hd : Clean style.char d) (hf : Fresh d)
    (hs : CompilerConfig.isStem stem = true) : (d.compiled stem placeholder).FinishesTo d := by
  have ht := BindTable.numbered_empty stem
  have htokens := tokens_compiled placeholder hd hs
  have hnodup : ((d.compiled stem placeholder).binds.map Bind.name).Nodup :=
    nodup_names_compiled placeholder
  have hbinds : ((d.compiled stem placeholder).binds.map fun b => (b.value, b.type)) = d.params :=
    binds_after hf ht
  have hvalues : (d.compiled stem placeholder).binds.map Bind.value = d.params.map Prod.fst := by
    rw [← hbinds, List.map_map]
    rfl
  have hreferences : (d.compiled stem placeholder).references =
      (d.compiled stem placeholder).binds.map Bind.name := by
    rw [Compiled.references, htokens]
    exact names_tokens hf ht
  constructor
  . simp only [Compiled.inStyle, Compiled.textWith, htokens, flatMap_write_question ht,
      hreferences, Compiled.filterMap_value?_names hnodup, hvalues, String.ofList_toList]
  . rw [(corresponds_compiled placeholder hd hs).dollar, hvalues]
    rw [← textWith_compiled placeholder hd hs]
    rw [Compiled.textWith, htokens]
    have hdollar := flatMap_write_dollar hd hf ht
    rw [show (BindTable.empty stem).stem = stem by rfl] at hdollar
    rw [hdollar]
    rfl
  . rw [← hbinds, List.map_map]
    rfl

namespace Compiler

def withStem (c : Compiler) (stem : String) : Compiler :=
  { c with config := { c.config with bindStem := stem } }

variable {c : Compiler} {group : Group}

mutual

theorem clauseDraft_withStem (c : Compiler) (stem : String) :
    (clause : Clause) → (c.withStem stem).clauseDraft clause = c.clauseDraft clause
  | .test field comparison argument => by
    simp only [clauseDraft]
    rw [nestedDraft_withStem c stem argument]
    rfl
  | .group clauses => by
    simp only [clauseDraft]
    rw [partDrafts_withStem c stem clauses]
  | .raw _ => by simp only [clauseDraft]
  | .literal _ => by simp only [clauseDraft]
  | .failure _ => by simp only [clauseDraft]

theorem nestedDraft_withStem (c : Compiler) (stem : String) :
    (argument : Argument (SubQuery (List (Connective × Clause)))) →
      (c.withStem stem).nestedDraft argument = c.nestedDraft argument
  | .none => rfl
  | .value _ => rfl
  | .list _ => rfl
  | .raw _ => rfl
  | .subQuery ⟨table, filter, selection⟩ => by
    simp only [nestedDraft]
    rw [partDrafts_withStem c stem filter]
    rfl
  | .column _ _ => rfl
  | .perField _ => rfl

theorem partDrafts_withStem (c : Compiler) (stem : String) :
    (clauses : List (Connective × Clause)) →
      (c.withStem stem).partDrafts clauses = c.partDrafts clauses
  | [] => by simp only [partDrafts]
  | (_, clause) :: clauses => by
    simp only [partDrafts]
    rw [clauseDraft_withStem c stem clause]
    rw [partDrafts_withStem c stem clauses]

end

section Refinement

variable (hc : c.Regular) (hs : c.softDelete = none) (hraw : group.rawFree = true)
  (hv : Group.obeys c.noReference group = true)

include hc hs hraw

theorem toOption_compileGroup_of_softDelete :
    (c.compileGroup group).toOption =
      (c.groupDraft group).map (Draft.compiled c.config.bindStem c.placeholder) := by
  rw [toOption_compileGroup hc hraw]
  rw [filterDraft, hs]
  cases c.groupDraft group with
  | none => rfl
  | some d => rfl

include hv

omit hs hraw in
theorem finishesTo_of_groupDraft {d : Draft} (h : c.groupDraft group = some d) :
    (d.compiled c.config.bindStem c.placeholder).FinishesTo d := by
  have hclean := (isClauseDraft_groupDraft hv h).1
  exact finishesTo_compiled hclean (fresh_groupDraft hv h)
    (CompilerConfig.isStem_of_fault? hc.valid)

theorem compileGroup_refines :
    ((∃ compiled, c.compileGroup group = .ok compiled) ↔ ∃ d, c.groupDraft group = some d) ∧
      (∀ compiled, c.compileGroup group = .ok compiled →
        ∃ d, c.groupDraft group = some d ∧ compiled.FinishesTo d) ∧
      ∀ stem, (c.withStem stem).config.fault? = none → ∀ style, style ≠ .named →
        ((c.withStem stem).compileGroup group).toOption.map (Compiled.inStyle · style) =
          (c.compileGroup group).toOption.map (Compiled.inStyle · style) := by
  have hok := toOption_compileGroup_of_softDelete hc hs hraw
  refine ⟨?_, ?_, ?_⟩
  . constructor
    . rintro ⟨compiled, h⟩
      rw [h] at hok
      obtain ⟨d, hd, _⟩ := Option.map_eq_some_iff.1 hok.symm
      exact ⟨d, hd⟩
    . rintro ⟨d, hd⟩
      rw [hd] at hok
      exact ⟨_, toOption_eq_some hok⟩
  . intro compiled h
    rw [h] at hok
    obtain ⟨d, hd, he⟩ := Option.map_eq_some_iff.1 hok.symm
    refine ⟨d, hd, ?_⟩
    rw [← he]
    exact finishesTo_of_groupDraft hc hv hd
  . intro stem hstem style hstyle
    have hc' : (c.withStem stem).Regular := ⟨hstem, hc.templates, hc.softDelete⟩
    have hok' := toOption_compileGroup_of_softDelete hc' hs hraw
    have hdraft : (c.withStem stem).groupDraft group = c.groupDraft group := by
      rw [groupDraft]
      rw [partDrafts_withStem]
      rfl
    rw [hok, hok', hdraft]
    cases hd : c.groupDraft group with
    | none => rfl
    | some d =>
      have hfirst := finishesTo_of_groupDraft hc' hv (hdraft.trans hd)
      have hsecond := finishesTo_of_groupDraft hc hv hd
      simp only [Option.map_some, Option.some.injEq]
      cases style with
      | named => exact absurd rfl hstyle
      | dollar => exact hfirst.dollar.trans hsecond.dollar.symm
      | question => exact hfirst.question.trans hsecond.question.symm

end Refinement

def nestedGroup : Group :=
  -- a text with a colon may be a member of a list, for members never spell placeholders
  Group.any [.condition (.ofOperator "a" .like (.value (.text "x%"))),
    .condition (.ofOperator "b" .oneOf
      (.subQuery ⟨"t", [(.and, .condition (.ofOperator "c" .oneOf
        (.list [.text ":p1", .integer 2])))], {}⟩))]

theorem compileGroup_refines_nestedGroup :
    (standard {}).softDelete.isNone = true ∧ nestedGroup.rawFree = true ∧
      Group.obeys (standard {}).noReference nestedGroup = true ∧
        (∃ compiled, (standard {}).compileGroup nestedGroup = .ok compiled) ∧
          ((standard {}).withStem "q").config.fault? = none ∧
            (((standard {}).withStem "q").compileGroup nestedGroup).toOption.map
                (Compiled.inStyle · .dollar) =
              ((standard {}).compileGroup nestedGroup).toOption.map
                (Compiled.inStyle · .dollar) := by
  have hv : Group.obeys (standard {}).noReference nestedGroup = true := by decide +kernel
  have hrefines := compileGroup_refines (regular_standard {}) rfl rfl hv
  have hdraft : ((standard {}).groupDraft nestedGroup).isSome = true := by decide +kernel
  have hstem : ((standard {}).withStem "q").config.fault? = none := by decide
  exact ⟨rfl, rfl, hv, hrefines.1.2 (Option.isSome_iff_exists.1 hdraft), hstem,
    hrefines.2.2 "q" hstem .dollar (by decide)⟩

end Compiler

end SqlFilter
