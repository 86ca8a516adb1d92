import SqlFilter.Proofs.FilterForms
import SqlFilter.Proofs.JsonReferences
import SqlFilter.Proofs.Positional
import SqlFilter.Proofs.TemplateIndependence

/-!
This module contains the proof that a map is compiled entry by entry: what it is finished to with
question marks is what its entries are finished to when each of them stands alone, joined by the
connective of the map in the order of the entries. The entries share one table of binds, so this
asks for values that cannot spell placeholders.
-/

namespace SqlFilter

namespace Draft

theorem marked_append (d e : Draft) : (d ++ e).marked = d.marked ++ e.marked := by
  simp [marked]

theorem marked_joined (separator : String) (ds : List Draft) :
    (joined separator ds).marked = separator.intercalate (ds.map marked) := by
  induction ds with
  | nil => rfl
  | cons d ds ih =>
    cases ds with
    | nil => simp [joined]
    | cons e ds =>
      rw [joined, marked_append, List.map_cons, List.map_cons, String.intercalate_cons_cons,
        ← List.map_cons, ← ih, String.append_assoc]
      simp [marked, Piece.marked]

theorem params_joined (separator : String) (ds : List Draft) :
    (joined separator ds).params = ds.flatMap params := by
  induction ds with
  | nil => rfl
  | cons d ds ih =>
    cases ds with
    | nil => simp [joined]
    | cons e ds =>
      rw [joined, List.flatMap_cons, ← ih]
      simp [params, List.filterMap_cons, Piece.param?]

theorem joinParts_eq_joined (connective : Connective) {ds : List Draft} (h : ∀ d ∈ ds, d ≠ []) :
    joinParts (ds.map fun d => (connective, d)) = joined (" " ++ connective.sql ++ " ") ds := by
  have hfilter : (ds.map fun d => (connective, d)).filter (fun part => !part.2.isEmpty) =
      ds.map fun d => (connective, d) := by
    rw [List.filter_eq_self]
    intro part hm
    obtain ⟨d, hd, rfl⟩ := List.mem_map.1 hm
    simpa using h d hd
  unfold joinParts
  rw [hfilter]
  clear hfilter h
  cases ds with
  | nil => rfl
  | cons d ds =>
    rw [List.map_cons]
    dsimp only
    induction ds generalizing d with
    | nil => simp [joined]
    | cons e ds ih =>
      rw [joined, ← ih]
      simp

theorem joinParts_singleton (connective : Connective) (d : Draft) :
    joinParts [(connective, d)] = d := by
  cases d <;> simp [joinParts]

end Draft

theorem WhereMap.isReserved_of_mem_members {entries : Dictionary Json} {member : String × Json}
    (h : member ∈ members entries) : isReserved member.1 = false := by
  simpa using (List.mem_filter.1 h).2

namespace Compiler

variable {c : Compiler}

structure ReferenceFree (c : Compiler) (member : String × Json) : Prop where
  hasColonText : member.2.hasColonText = false
  bounds : ∀ value ∈ WhereMap.conditionValues member.1 member.2,
    ∀ pair ∈ value.pairs, c.boundObeys pair = true

instance (member : String × Json) : Decidable (c.ReferenceFree member) :=
  decidable_of_iff (member.2.hasColonText = false ∧
    ∀ value ∈ WhereMap.conditionValues member.1 member.2,
      ∀ pair ∈ value.pairs, c.boundObeys pair = true)
    ⟨fun h => ⟨h.1, h.2⟩, fun h => ⟨h.1, h.2⟩⟩

structure IsDecoded (c : Compiler) (condition : Condition) : Prop where
  obeys : condition.obeys c.noReference = true
  rawFree : condition.rawFree = true
  form : ∃ field, condition.OfJson c.config field

def memberDraft (c : Compiler) (member : String × Json) : Option Draft :=
  (c.entryOfMember member.1 member.2).toOption.bind fun entry =>
    c.withStandardTemplates.clauseDraft entry.clause

theorem partDrafts_joined (connective : Connective) (entries : List Entry) :
    c.partDrafts (Group.clauses (Group.joined connective entries)) =
      (entries.mapM fun entry => c.clauseDraft entry.clause).map fun ds =>
        ds.map fun d => (connective, d) := by
  induction entries with
  | nil => simp [Group.joined, Group.clauses, partDrafts]
  | cons entry entries ih =>
    rw [Group.joined, List.map_cons, ← Group.joined, Group.clauses, partDrafts, ih, List.mapM_cons]
    cases c.clauseDraft entry.clause with
    | none => rfl
    | some d => cases entries.mapM fun entry => c.clauseDraft entry.clause <;> rfl

theorem groupDraft_joined (connective : Connective) {entries : List Entry}
    (hne : ∀ ds, entries.mapM (fun entry => c.clauseDraft entry.clause) = some ds →
      ∀ d ∈ ds, d ≠ []) :
    c.groupDraft (Group.joined connective entries) =
      (entries.mapM fun entry => c.clauseDraft entry.clause).map
        (Draft.joined (" " ++ connective.sql ++ " ")) := by
  rw [groupDraft, partDrafts_joined]
  cases hds : entries.mapM fun entry => c.clauseDraft entry.clause with
  | none => rfl
  | some ds =>
    change some _ = some _
    rw [Draft.joinParts_eq_joined connective (hne ds hds)]

section Group

variable (hc : c.config.fault? = none) (hs : c.softDelete = none) {group : Group}
  (hg : Group.MadeOf c.IsDecoded group)

include hc hs hg

theorem toOption_compileGroup_decoded :
    (c.compileGroup group).toOption = (c.withStandardTemplates.groupDraft group).map
        (Draft.compiled c.config.bindStem c.placeholder) ∧
      ∀ d, c.withStandardTemplates.groupDraft group = some d →
        (d.compiled c.config.bindStem c.placeholder).FinishesTo d := by
  have hregular : c.withStandardTemplates.Regular := ⟨hc, rfl, by simp [withStandardTemplates, hs]⟩
  have hraw : group.rawFree = true := (hg.mono fun _ h => h.rawFree).obeys
  have hobeys : Group.obeys c.withStandardTemplates.noReference group = true :=
    (hg.mono fun _ h => h.obeys).obeys
  constructor
  . rw [← compileGroup_withStandardTemplates hs (hg.mono fun _ h => h.form)]
    exact toOption_compileGroup_of_softDelete hregular hs hraw
  . exact fun d hd => finishesTo_of_groupDraft hregular hobeys hd

end Group

section Members

variable (hraw : c.config.allowRawExpressions = false)

include hraw

theorem decodesTo_isDecoded {member : String × Json} (h : c.ReferenceFree member) :
    c.DecodesTo c.IsDecoded (WhereMap.conditionValues member.1 member.2) := by
  intro name value hm condition hcondition
  have hvalue := WhereMap.hasColonText_conditionValues h.hasColonText value hm
  exact ⟨conditionOfJson_obeys hvalue (h.bounds value hm) hcondition,
    conditionOfJson_rawFree hraw hcondition, name, conditionOfJson_form hcondition⟩

theorem entryOfMember_isDecoded {member : String × Json} (h : c.ReferenceFree member)
    {entry : Entry} (he : c.entryOfMember member.1 member.2 = .ok entry) :
    entry.MadeOf c.IsDecoded :=
  entryOfMember_madeOf (decodesTo_isDecoded hraw h) he

theorem groupOf_isDecoded {entries : Dictionary Json}
    (h : ∀ member ∈ WhereMap.members entries, c.ReferenceFree member) {group : Group}
    (hg : c.groupOfMap entries = .ok group) : Group.MadeOf c.IsDecoded group := by
  apply groupOfMap_madeOf _ hg
  intro name value hm
  obtain ⟨member, hmember, hvalue⟩ := List.mem_flatMap.1 hm
  exact decodesTo_isDecoded hraw (h member hmember) name value hvalue

end Members

theorem groupDraft_singleton (connective : Connective) (entry : Entry) :
    c.groupDraft [(connective, entry)] = c.clauseDraft entry.clause := by
  rw [groupDraft, Group.clauses, Group.clauses, partDrafts, partDrafts]
  cases c.clauseDraft entry.clause with
  | none => rfl
  | some d =>
    change some (Draft.joinParts [(connective, d)]) = some d
    rw [Draft.joinParts_singleton]

section Pieces

variable (hc : c.config.fault? = none) (hs : c.softDelete = none)
  (hraw : c.config.allowRawExpressions = false)

include hc hs hraw

theorem toOption_compile_member {member : String × Json}
    (hr : WhereMap.isReserved member.1 = false) (h : c.ReferenceFree member) :
    (c.compile (.map [member])).toOption =
        (c.memberDraft member).map (Draft.compiled c.config.bindStem c.placeholder) ∧
      ∀ d, c.memberDraft member = some d →
        (d.compiled c.config.bindStem c.placeholder).FinishesTo d ∧ d ≠ [] := by
  have hcompile := compile_member (c := c) hr member.2
  unfold memberDraft
  cases he : c.entryOfMember member.1 member.2 with
  | error e =>
    rw [he] at hcompile
    rw [hcompile]
    exact ⟨rfl, by rintro d ⟨⟩⟩
  | ok entry =>
    rw [he, ok_bind] at hcompile
    have hg : Group.MadeOf c.IsDecoded [(.and, entry)] :=
      .cons (entryOfMember_isDecoded hraw h he) .nil
    obtain ⟨hcompiled, hfinishes⟩ := toOption_compileGroup_decoded hc hs hg
    rw [groupDraft_singleton] at hcompiled
    simp only [groupDraft_singleton] at hfinishes
    simp only [toOption_ok, Option.bind_some]
    rw [← hcompile] at hcompiled
    refine ⟨hcompiled, fun d hd => ⟨hfinishes d hd, ?_⟩⟩
    rintro rfl
    rw [hd] at hcompiled
    -- an entry that is not reserved has a text
    have hvacant := ((compile_sql_eq_empty_iff (toOption_eq_some hcompiled)).1 rfl).2
    rw [WhereInput.isVacant, List.all_cons, hr] at hvacant
    cases hvacant

omit hc hs hraw in
theorem mapM_memberDraft (members : Dictionary Json) : members.mapM c.memberDraft =
    (members.mapM fun member => c.entryOfMember member.1 member.2).toOption.bind fun parts =>
      parts.mapM fun entry => c.withStandardTemplates.clauseDraft entry.clause := by
  rw [toOption_mapM, mapM_bind_mapM]
  rfl

theorem memberDraft_ne_nil {entries : Dictionary Json}
    (h : ∀ member ∈ WhereMap.members entries, c.ReferenceFree member) {ds : List Draft}
    (hds : (WhereMap.members entries).mapM c.memberDraft = some ds) : ∀ d ∈ ds, d ≠ [] := by
  intro d hd
  have hmem : some d ∈ (WhereMap.members entries).map c.memberDraft := by
    rw [mapM_eq_some_iff.1 hds]
    exact List.mem_map_of_mem hd
  obtain ⟨member, hm, hmember⟩ := List.mem_map.1 hmem
  have hr := WhereMap.isReserved_of_mem_members hm
  exact ((toOption_compile_member hc hs hraw hr (h member hm)).2 d hmember).2

theorem toOption_compile_map {entries : Dictionary Json} {connective : Connective}
    (hconnective : WhereMap.connective entries = .ok connective)
    (h : ∀ member ∈ WhereMap.members entries, c.ReferenceFree member) :
    (c.compile (.map entries)).toOption = ((WhereMap.members entries).mapM c.memberDraft).map
        (fun ds => (Draft.joined (" " ++ connective.sql ++ " ") ds).compiled c.config.bindStem
          c.placeholder) ∧
      ∀ ds, (WhereMap.members entries).mapM c.memberDraft = some ds →
        ((Draft.joined (" " ++ connective.sql ++ " ") ds).compiled c.config.bindStem
          c.placeholder).FinishesTo (Draft.joined (" " ++ connective.sql ++ " ") ds) := by
  have hdrafts := mapM_memberDraft (c := c) (WhereMap.members entries)
  have hgroup : c.groupOfMap entries =
      ((WhereMap.members entries).mapM fun member => c.entryOfMember member.1 member.2) >>=
        fun parts => .ok (Group.joined connective parts) := by
    rw [groupOfMap, hconnective]
    rfl
  have hcompile : c.compile (.map entries) = c.groupOfMap entries >>= c.compileGroup := rfl
  cases hparts : (WhereMap.members entries).mapM fun member =>
    c.entryOfMember member.1 member.2 with
  | error e =>
    rw [hparts] at hdrafts hgroup
    rw [hdrafts, hcompile, hgroup]
    exact ⟨rfl, by rintro ds ⟨⟩⟩
  | ok parts =>
    rw [hparts, ok_bind] at hgroup
    rw [hparts, toOption_ok, Option.bind_some] at hdrafts
    obtain ⟨hcompiled, hfinishes⟩ :=
      toOption_compileGroup_decoded hc hs (groupOf_isDecoded hraw h hgroup)
    have hne (ds : List Draft) (hds : parts.mapM
        (fun entry => c.withStandardTemplates.clauseDraft entry.clause) = some ds) :
        ∀ d ∈ ds, d ≠ [] :=
      memberDraft_ne_nil hc hs hraw h (hdrafts.trans hds)
    rw [groupDraft_joined connective hne, ← hdrafts] at hcompiled hfinishes
    rw [hcompile, hgroup, ok_bind, hcompiled, Option.map_map]
    refine ⟨rfl, fun ds hds => hfinishes _ ?_⟩
    rw [hds]
    rfl

end Pieces

end Compiler

def Statement.joined (connective : Connective) (pieces : List Statement) : Statement :=
  ⟨(" " ++ connective.sql ++ " ").intercalate (pieces.map Statement.sql),
    pieces.flatMap Statement.values⟩

def Draft.statement (d : Draft) : Statement :=
  ⟨d.marked, d.params.map Prod.fst⟩

theorem Draft.statement_joined (connective : Connective) (ds : List Draft) :
    (joined (" " ++ connective.sql ++ " ") ds).statement =
      .joined connective (ds.map statement) := by
  rw [statement, marked_joined, params_joined, Statement.joined, List.map_map, List.map_flatMap,
    List.flatMap_map]
  rfl

namespace Compiler

def alone (c : Compiler) (member : String × Json) : Statement :=
  match c.compile (.map [member]) with
  | .ok compiled => compiled.inStyle .question
  | .error _ => ⟨"", []⟩

structure ComposesEntries (c : Compiler) (connective : Connective) (entries : Dictionary Json) :
    Prop where
  compiles : (∃ compiled, c.compile (.map entries) = .ok compiled) ↔
    ∀ member ∈ WhereMap.members entries, ∃ compiled, c.compile (.map [member]) = .ok compiled
  question : ∀ compiled, c.compile (.map entries) = .ok compiled →
    compiled.inStyle .question = .joined connective ((WhereMap.members entries).map c.alone)
  reserved : ∀ others, WhereMap.connective others = .ok connective →
    WhereMap.members others = WhereMap.members entries →
      c.compile (.map others) = c.compile (.map entries)
  permuted : ∀ others, WhereMap.connective others = .ok connective →
    (WhereMap.members others).Perm (WhereMap.members entries) →
      ((∃ compiled, c.compile (.map others) = .ok compiled) ↔
        ∃ compiled, c.compile (.map entries) = .ok compiled) ∧
      ∀ compiled, c.compile (.map others) = .ok compiled →
        compiled.inStyle .question = .joined connective ((WhereMap.members others).map c.alone)

variable {c : Compiler}

theorem compile_map_congr {entries others : Dictionary Json}
    (hc : WhereMap.connective others = WhereMap.connective entries)
    (hm : WhereMap.members others = WhereMap.members entries) :
    c.compile (.map others) = c.compile (.map entries) := by
  have hgroup : c.groupOfMap others = c.groupOfMap entries := by
    unfold WhereMap.members at hm
    rw [groupOfMap, groupOfMap, hc, hm]
  rw [compile, compile, groupOf, groupOf, hgroup]

section Pieces

variable (hc : c.config.fault? = none) (hs : c.softDelete = none)
  (hraw : c.config.allowRawExpressions = false) {entries : Dictionary Json}
  {connective : Connective} (hconnective : WhereMap.connective entries = .ok connective)
  (h : ∀ member ∈ WhereMap.members entries, c.ReferenceFree member)

include hc hs hraw hconnective h

omit hconnective h in
theorem alone_eq {member : String × Json} (hr : WhereMap.isReserved member.1 = false)
    (h : c.ReferenceFree member) :
    c.alone member = ((c.memberDraft member).map Draft.statement).getD ⟨"", []⟩ := by
  obtain ⟨hcompiled, hfinishes⟩ := toOption_compile_member hc hs hraw hr h
  unfold alone
  cases hd : c.memberDraft member with
  | none =>
    rw [hd] at hcompiled
    split
    . next hok =>
      rw [hok] at hcompiled
      cases hcompiled
    . rfl
  | some d =>
    rw [hd] at hcompiled
    rw [toOption_eq_some hcompiled]
    exact (hfinishes d hd).1.question

theorem exists_compile_map_iff : (∃ compiled, c.compile (.map entries) = .ok compiled) ↔
    ∀ member ∈ WhereMap.members entries, ∃ compiled, c.compile (.map [member]) = .ok compiled := by
  rw [exists_eq_ok_iff, (toOption_compile_map hc hs hraw hconnective h).1, Option.isSome_map,
    isSome_mapM]
  apply forall₂_congr
  intro member hm
  have hr := WhereMap.isReserved_of_mem_members hm
  rw [exists_eq_ok_iff, (toOption_compile_member hc hs hraw hr (h member hm)).1, Option.isSome_map]

theorem question_compile_map {compiled : Compiled}
    (hok : c.compile (.map entries) = .ok compiled) :
    compiled.inStyle .question =
      .joined connective ((WhereMap.members entries).map c.alone) := by
  obtain ⟨hcompiled, hfinishes⟩ := toOption_compile_map hc hs hraw hconnective h
  rw [hok, toOption_ok] at hcompiled
  obtain ⟨ds, hds, rfl⟩ := Option.map_eq_some_iff.1 hcompiled.symm
  have hpieces : (WhereMap.members entries).map c.alone = ds.map Draft.statement := by
    have halone : (WhereMap.members entries).map c.alone =
        ((WhereMap.members entries).map c.memberDraft).map fun d =>
          (d.map Draft.statement).getD ⟨"", []⟩ := by
      rw [List.map_map]
      apply List.map_congr_left
      intro member hm
      exact alone_eq hc hs hraw (WhereMap.isReserved_of_mem_members hm) (h member hm)
    rw [halone, mapM_eq_some_iff.1 hds, List.map_map]
    rfl
  rw [hpieces, ← Draft.statement_joined]
  exact (hfinishes ds hds).question

theorem composesEntries : c.ComposesEntries connective entries := by
  constructor
  . exact exists_compile_map_iff hc hs hraw hconnective h
  . exact fun compiled => question_compile_map hc hs hraw hconnective h
  . intro others ho hm
    exact compile_map_congr (ho.trans hconnective.symm) hm
  . intro others ho hperm
    have h' : ∀ member ∈ WhereMap.members others, c.ReferenceFree member :=
      fun member hm => h member (hperm.mem_iff.1 hm)
    constructor
    . rw [exists_compile_map_iff hc hs hraw ho h', exists_compile_map_iff hc hs hraw hconnective h]
      simp only [hperm.mem_iff]
    . exact fun compiled => question_compile_map hc hs hraw ho h'

end Pieces

def mixedEntries : Dictionary Json :=
  [("a", .array [.string "in", .array [.int 1, .string "x"]]), ("_op", .string "or"),
    ("_note", .string ":p1"), ("age", .array [.string "between", .string ",9"]),
    ("c|d", .object [("_multi", .array [.int 2,
      .array [.array [.string ">", .int 3], .array [.string "<", .int 5]]])])]

theorem composesEntries_mixedEntries :
    (standard {}).config.fault? = none ∧ (standard {}).softDelete = none ∧
      (standard {}).config.allowRawExpressions = false ∧
      WhereMap.connective mixedEntries = .ok .or ∧
      (∀ member ∈ WhereMap.members mixedEntries, (standard {}).ReferenceFree member) ∧
      ∃ compiled, (standard {}).compile (.map mixedEntries) = .ok compiled ∧
        compiled.inStyle .question =
          .joined .or ((WhereMap.members mixedEntries).map (standard {}).alone) := by
  have hfree : ∀ member ∈ WhereMap.members mixedEntries, (standard {}).ReferenceFree member := by
    decide +kernel
  have hconnective : WhereMap.connective mixedEntries = .ok .or := rfl
  have h := composesEntries (c := standard {}) (by decide) rfl rfl hconnective hfree
  have hok : ((standard {}).compile (.map mixedEntries)).toOption.isSome = true := by
    decide +kernel
  obtain ⟨compiled, hc⟩ := exists_eq_ok_iff.2 hok
  exact ⟨by decide, rfl, rfl, hconnective, hfree, compiled, hc, h.question compiled hc⟩

def openRange : Dictionary Json :=
  [("a", .int 5), ("b", .array [.string "between", .string ",:p1"])]

/-- Without a text that begins with a colon in its values, a map may still compare with one: a range
that begins with a comma has only its end, and that may spell the placeholder of another entry. -/
theorem not_composesEntries :
    ¬∀ (c : Compiler) (connective : Connective) (entries : Dictionary Json),
      c.config.fault? = none → c.softDelete = none → c.config.allowRawExpressions = false →
        WhereMap.connective entries = .ok connective →
          (∀ member ∈ WhereMap.members entries, member.2.hasColonText = false) →
            c.ComposesEntries connective entries := by
  intro h
  have hcomposes := h (standard {}) .and openRange (by decide) rfl rfl rfl (by decide)
  -- alone, the range has a text as value; behind the other entry it refers to that entry's value
  have hok : ((standard {}).compile (.map openRange)).toOption.map
      (fun compiled => (compiled.inStyle .question).values.map Value.beginsWithColon) =
        some [false, false] := by
    decide +kernel
  have halone : (Statement.joined .and ((WhereMap.members openRange).map
      (standard {}).alone)).values.map Value.beginsWithColon = [false, true] := by
    decide +kernel
  obtain ⟨compiled, hc, hvalues⟩ := Option.map_eq_some_iff.1 hok
  rw [hcomposes.question compiled (toOption_eq_some hc), halone] at hvalues
  cases hvalues

end Compiler

end SqlFilter
