import Mathlib.Data.List.Nodup
import SqlFilter.Proofs.Tokens

/-!
This module contains the proof that placeholders and binds belong together: the references of a
compiled text are those that were written, they name all binds and nothing else, and they do so
first in the order of the binds.
-/

namespace SqlFilter

open Draft

namespace Compiled

variable {compiled : Compiled}

theorem isSome_value? {name : String} :
    (compiled.value? name).isSome = true ↔ name ∈ compiled.binds.map Bind.name := by
  simp [value?]

theorem value?_name (hn : (compiled.binds.map Bind.name).Nodup) {b : Bind}
    (hb : b ∈ compiled.binds) : compiled.value? b.name = some b.value := by
  have hfind : compiled.binds.reverse.find? (fun b' => b'.name == b.name) = some b := by
    cases hf : compiled.binds.reverse.find? fun b' => b'.name == b.name with
    | none =>
      have := List.find?_eq_none.1 hf b (List.mem_reverse.2 hb)
      simp at this
    | some b' =>
      have hname : b'.name = b.name := by simpa using List.find?_some hf
      have hmem := List.mem_reverse.1 (List.mem_of_find?_eq_some hf)
      rw [List.inj_on_of_nodup_map hn hmem hb hname]
  simp [value?, hfind]

theorem filterMap_value?_names (hn : (compiled.binds.map Bind.name).Nodup) :
    (compiled.binds.map Bind.name).filterMap compiled.value? = compiled.binds.map Bind.value := by
  rw [List.filterMap_map]
  rw [← List.filterMap_eq_map]
  apply List.filterMap_congr
  intro b hb
  simp [value?_name hn hb]

theorem map_some_filterMap_value? {names : List String}
    (h : ∀ name ∈ names, (compiled.value? name).isSome = true) :
    (names.filterMap compiled.value?).map some = names.map compiled.value? := by
  induction names with
  | nil => rfl
  | cons name names ih =>
    simp only [List.mem_cons, forall_eq_or_imp] at h
    obtain ⟨v, hv⟩ := Option.isSome_iff_exists.1 h.1
    simp [hv, ih h.2]

def dollarOf (stem name : String) : String :=
  "$" ++ String.ofList (name.toList.drop stem.toList.length)

theorem dollarOf_append (stem : String) (number : Nat) :
    dollarOf stem (stem ++ Decimal.natText number) = "$" ++ Decimal.natText number := by
  simp [dollarOf, Decimal.natText]

theorem dollarOf_eq {stem name : String} {names : List String} {count : Nat}
    (hn : names = (List.range count).map fun i => stem ++ Decimal.natText (i + 1))
    (hnodup : names.Nodup) (h : name ∈ names) :
    "$" ++ Decimal.natText (names.idxOf name + 1) = dollarOf stem name := by
  obtain ⟨i, hi, rfl⟩ := List.getElem_of_mem h
  rw [hnodup.idxOf_getElem]
  have hname : names[i] = stem ++ Decimal.natText (i + 1) := by simp [hn]
  rw [hname, dollarOf_append]

theorem colon_not_mem_dollar (number : Nat) : ':' ∉ ("$" ++ Decimal.natText number).toList := by
  intro h
  rw [String.toList_append] at h
  cases List.mem_append.1 h with
  | inl hm => simp at hm
  | inr hm => exact absurd (Decimal.isWordChar_natText number ':' hm) (by decide)

structure Corresponds (stem : String) (compiled : Compiled) : Prop where
  names : compiled.binds.map Bind.name =
    (List.range compiled.binds.length).map fun i => stem ++ Decimal.natText (i + 1)
  bound : ∀ name ∈ Text.colonWords compiled.sql.toList, name ∈ compiled.binds.map Bind.name
  referenced : ∀ b ∈ compiled.binds, b.name ∈ Text.colonWords compiled.sql.toList
  order : (Text.colonWords compiled.sql.toList).eraseDups = compiled.binds.map Bind.name
  dollar : compiled.inStyle .dollar =
    ⟨String.ofList (Text.replaceColonWords (dollarOf stem) false compiled.sql.toList),
      compiled.binds.map Bind.value⟩
  dollarColon : ':' ∉ (compiled.inStyle .dollar).sql.toList
  question : (compiled.inStyle .question).sql =
    String.ofList (Text.replaceColonWords (fun _ => "?") false compiled.sql.toList)
  questionColon : ':' ∉ (compiled.inStyle .question).sql.toList
  questionMarks : (compiled.inStyle .question).sql.toList.count '?' =
    (compiled.inStyle .question).values.length
  questionValues : (compiled.inStyle .question).values.map some =
    (Text.colonWords compiled.sql.toList).map compiled.value?

end Compiled

namespace Draft

variable {style : QuoteStyle} {d : Draft}

section Compiled

variable {stem : String} (placeholder : PlaceholderStyle) (hd : Clean style.char d)
  (hs : CompilerConfig.isStem stem = true)

include hd hs

theorem readable_compiled :
    SqlToken.Readable (fun name => ((d.compiled stem placeholder).value? name).isSome)
      (tokens (.empty stem) d) := by
  apply readable_tokens hd (BindTable.numbered_empty stem) hs
  intro name hn
  rw [Compiled.isSome_value?]
  exact hn

theorem tokens_compiled : (d.compiled stem placeholder).tokens = tokens (.empty stem) d := by
  unfold Compiled.tokens
  rw [compiled, ← spelling_tokens (BindTable.numbered_empty stem)]
  exact (readable_compiled placeholder hd hs).scan_spelling

theorem colonWords_compiled :
    Text.colonWords (d.compiled stem placeholder).sql.toList =
      (d.compiled stem placeholder).references := by
  rw [Compiled.references, tokens_compiled _ hd hs]
  rw [compiled, ← spelling_tokens (BindTable.numbered_empty stem)]
  exact (readable_compiled placeholder hd hs).colonWords_spelling

theorem distinctReferences_compiled :
    (d.compiled stem placeholder).distinctReferences =
      (d.compiled stem placeholder).binds.map Bind.name := by
  rw [Compiled.distinctReferences, Compiled.references, tokens_compiled _ hd hs]
  exact eraseDups_references (BindTable.numbered_empty stem) (show [].eraseDups = _ by rfl)

theorem textWith_compiled (f : String → String) :
    (d.compiled stem placeholder).textWith f =
      String.ofList
        (Text.replaceColonWords f false (d.compiled stem placeholder).sql.toList) := by
  rw [Compiled.textWith, tokens_compiled _ hd hs]
  rw [compiled, ← spelling_tokens (BindTable.numbered_empty stem)]
  rw [(readable_compiled placeholder hd hs).replaceColonWords_spelling]

omit hd hs in
theorem names_compiled : (d.compiled stem placeholder).binds.map Bind.name =
    (List.range (d.compiled stem placeholder).binds.length).map
      fun i => stem ++ Decimal.natText (i + 1) := by
  have hn := (BindTable.numbered_empty stem).after d
  rw [compiled, hn.length_binds, hn]
  simp only [BindTable.generated, BindTable.stem_after]
  rfl

omit hd hs in
theorem nodup_names_compiled : ((d.compiled stem placeholder).binds.map Bind.name).Nodup := by
  rw [names_compiled]
  apply List.Nodup.map _ List.nodup_range
  intro m n he
  have := Decimal.natText_inj.1 (String.append_right_inj stem |>.1 he)
  omega

theorem corresponds_compiled : (d.compiled stem placeholder).Corresponds stem := by
  have hread := readable_compiled placeholder hd hs
  have htokens := tokens_compiled placeholder hd hs
  have hwords := colonWords_compiled placeholder hd hs
  have hdistinct := distinctReferences_compiled placeholder hd hs
  have hnodup : ((d.compiled stem placeholder).binds.map Bind.name).Nodup :=
    nodup_names_compiled placeholder
  have hbound (name : String) (h : name ∈ (d.compiled stem placeholder).references) :
      name ∈ (d.compiled stem placeholder).binds.map Bind.name := by
    rw [← hdistinct, Compiled.distinctReferences, List.mem_eraseDups]
    exact h
  have hvalue (name : String) (h : name ∈ (d.compiled stem placeholder).references) :
      ((d.compiled stem placeholder).value? name).isSome = true :=
    Compiled.isSome_value?.2 (hbound name h)
  constructor
  . exact names_compiled placeholder
  . rw [hwords]
    exact hbound
  . intro b hb
    rw [hwords, ← List.mem_eraseDups]
    change _ ∈ (d.compiled stem placeholder).distinctReferences
    rw [hdistinct]
    exact List.mem_map_of_mem hb
  . rw [hwords]
    exact hdistinct
  . simp only [Compiled.inStyle, hdistinct, Compiled.filterMap_value?_names hnodup]
    rw [← textWith_compiled _ hd hs]
    unfold Compiled.textWith
    rw [SqlToken.write_congr]
    intro name hn
    exact Compiled.dollarOf_eq (names_compiled placeholder) hnodup (hbound name hn)
  . simp only [Compiled.inStyle, Compiled.textWith, htokens, String.toList_ofList]
    apply hread.colon_not_mem_write
    exact fun _ _ => Compiled.colon_not_mem_dollar _
  . exact textWith_compiled _ hd hs _
  . simp only [Compiled.inStyle, Compiled.textWith, htokens, String.toList_ofList]
    apply hread.colon_not_mem_write
    intro _ _
    decide
  . have hvalues := congrArg List.length (Compiled.map_some_filterMap_value? hvalue)
    simp only [List.length_map] at hvalues
    simp only [Compiled.inStyle, Compiled.textWith, htokens, String.toList_ofList]
    rw [hvalues, Compiled.references, htokens]
    apply SqlToken.count_write_question
    intro c hc
    obtain ⟨s, hsafe, hm⟩ := mem_text_of_char_mem_tokens hc
    exact ((hd.safe s hsafe).ne_of_mem hm).2.2
  . rw [hwords]
    exact Compiled.map_some_filterMap_value? hvalue

end Compiled

end Draft

namespace Compiler

theorem corresponds_compile {c : Compiler} {input : WhereInput} {compiled : Compiled}
    (hc : c.Regular) (hi : input.rawFree c.config = true) (h : c.compile input = .ok compiled) :
    compiled.Corresponds c.config.bindStem := by
  obtain ⟨d, hd, rfl⟩ := draft_of_compile hc hi h
  exact corresponds_compiled _ hd (CompilerConfig.isStem_of_fault? hc.valid)

def repeatedReference : WhereInput :=
  -- the second value spells the placeholder of the first one
  .group (Group.all [.condition (.ofOperator "a" .equal (.value (.text "x"))),
    .condition (.ofOperator "b" .less (.value (.text ":p1"))),
    .condition (.ofOperator "c" .oneOf (.list [.integer 1, .integer 2]))])

theorem corresponds_repeatedReference :
    (standard {}).Regular ∧ repeatedReference.rawFree {} = true ∧
      ∃ compiled, (standard {}).compile repeatedReference = .ok compiled ∧
        compiled.sql = "a = :p1 AND b < :p1 AND c IN (:p2,:p3)" ∧ compiled.Corresponds "p" := by
  have hok : ((standard {}).compile repeatedReference).toOption.map Compiled.sql =
      some "a = :p1 AND b < :p1 AND c IN (:p2,:p3)" := by
    decide +kernel
  obtain ⟨compiled, hc, hs⟩ := Option.map_eq_some_iff.1 hok
  have hc := toOption_eq_some hc
  exact ⟨regular_standard _, rfl, compiled, hc, hs,
    corresponds_compile (regular_standard _) rfl hc⟩

end Compiler

end SqlFilter
