import SqlFilter.Proofs.DraftForm

/-!
This module contains what all drafts have in common: their texts are safe, no text goes on with the
word that a placeholder ends with, and they end with a character that is not blank.
-/

namespace SqlFilter

namespace Draft

def first? : Draft → Option Char
  | [] => none
  | .text s :: d => s.toList.head?.or (first? d)
  | .fresh _ _ :: _ => some ':'
  | .scalar _ _ :: _ => some ':'

/-- Whether what follows a draft cannot be read as part of a word. -/
def Opens (d : Draft) : Prop :=
  ∀ c, d.first? = some c → Text.isWordChar c = false

def Delimited : Draft → Prop
  | [] => True
  | p :: d => (p.param?.isSome = true → Opens d) ∧ Delimited d

structure Clean (q : Char) (d : Draft) : Prop where
  safe : ∀ s, Piece.text s ∈ d → SafeText Text.isPlain q s.toList
  delimited : d.Delimited

def Solid (d : Draft) : Prop :=
  ∃ front p, d = front ++ [p] ∧ ∀ s, p = .text s → EndsSolid s

theorem first?_append (d e : Draft) : (d ++ e).first? = d.first?.or e.first? := by
  induction d with
  | nil => rfl
  | cons p d ih =>
    cases p with
    | text s => simp [first?, ih, Option.or_assoc]
    | fresh type value => rfl
    | scalar type value => rfl

theorem opens_text {s : String} {c : Char} {d : Draft} (hs : s.toList.head? = some c)
    (hc : Text.isWordChar c = false) : Opens (.text s :: d) := by
  intro c' h
  simp only [first?, hs, Option.some_or, Option.some.injEq] at h
  rw [← h]
  exact hc

theorem opens_append {d e : Draft} (hd : Opens d) (he : Opens e) : Opens (d ++ e) := by
  intro c h
  rw [first?_append] at h
  cases hf : d.first? with
  | none =>
    rw [hf] at h
    exact he c (by simpa using h)
  | some c' =>
    rw [hf] at h
    exact hd c (by rw [hf]; simpa using h)

theorem Delimited.append {d e : Draft} (hd : d.Delimited) (he : e.Delimited) (ho : Opens e) :
    (d ++ e).Delimited := by
  induction d with
  | nil => exact he
  | cons p d ih => exact ⟨fun hp => opens_append (hd.1 hp) ho, ih hd.2⟩

namespace Clean

variable {q : Char} {d e : Draft} {s : String}

theorem nil : Clean q [] := ⟨by simp, trivial⟩

theorem text (hs : SafeText Text.isPlain q s.toList) (hd : Clean q d) :
    Clean q (.text s :: d) := by
  constructor
  . intro t ht
    simp only [List.mem_cons, Piece.text.injEq] at ht
    cases ht with
    | inl he =>
      subst he
      exact hs
    | inr hm => exact hd.safe t hm
  . exact ⟨by simp [Piece.param?], hd.delimited⟩

theorem value {p : Piece} (hp : p.param?.isSome = true) : Clean q [p] := by
  constructor
  . intro t ht
    simp only [List.mem_singleton] at ht
    subst ht
    cases hp
  . refine ⟨?_, trivial⟩
    intro _ c h
    cases h

theorem tail {p : Piece} (h : Clean q (p :: d)) : Clean q d :=
  ⟨fun s hm => h.safe s (List.mem_cons_of_mem p hm), h.delimited.2⟩

theorem append (hd : Clean q d) (he : Clean q e) (ho : Opens e) : Clean q (d ++ e) := by
  constructor
  . intro t ht
    cases List.mem_append.1 ht with
    | inl hm => exact hd.safe t hm
    | inr hm => exact he.safe t hm
  . exact hd.delimited.append he.delimited ho

theorem append_text (hd : Clean q d) (hs : SafeText Text.isPlain q s.toList) {c : Char}
    (hf : s.toList.head? = some c) (hc : Text.isWordChar c = false) (he : Clean q e) :
    Clean q (d ++ .text s :: e) :=
  hd.append (text hs he) (opens_text hf hc)

theorem joined {separator : String} (hs : SafeText Text.isPlain q separator.toList) {c : Char}
    (hf : separator.toList.head? = some c) (hc : Text.isWordChar c = false) {ds : List Draft}
    (h : ∀ d ∈ ds, Clean q d) : Clean q (Draft.joined separator ds) := by
  induction ds with
  | nil => exact nil
  | cons d ds ih =>
    simp only [List.mem_cons, forall_eq_or_imp] at h
    cases ds with
    | nil => exact h.1
    | cons e ds => exact h.1.append_text hs hf hc (ih h.2)

theorem inParentheses (hd : Clean q d) : Clean q d.inParentheses := by
  apply text (.of_all (by decide))
  exact hd.append_text (.of_all (by decide)) rfl (by decide) nil

end Clean

namespace Solid

variable {d e : Draft} {s : String}

theorem text (h : EndsSolid s) : Solid [.text s] :=
  ⟨[], .text s, rfl, fun t ht => by cases ht; exact h⟩

theorem value {p : Piece} (hp : p.param?.isSome = true) : Solid [p] :=
  ⟨[], p, rfl, fun t ht => by subst ht; cases hp⟩

theorem append_left (d : Draft) (h : Solid e) : Solid (d ++ e) := by
  obtain ⟨front, p, rfl, hp⟩ := h
  exact ⟨d ++ front, p, by simp, hp⟩

theorem cons (p : Piece) (h : Solid e) : Solid (p :: e) :=
  h.append_left [p]

theorem inParentheses (d : Draft) : Solid d.inParentheses := by
  apply cons
  apply append_left
  exact text ⟨')', rfl, rfl⟩

theorem ne_nil (h : Solid d) : d ≠ [] := by
  obtain ⟨front, p, rfl, _⟩ := h
  simp

end Solid

variable {q : Char}

theorem safe_sql_connective (connective : Connective) :
    SafeText Text.isPlain q connective.sql.toList := by
  cases connective <;> exact .of_all (by decide)

theorem safe_link (connective : Connective) :
    SafeText Text.isPlain q (" " ++ connective.sql ++ " ").toList := by
  rw [String.toList_append, String.toList_append]
  apply SafeText.append _ (.of_all (by decide))
  exact .append (.of_all (by decide)) (safe_sql_connective connective)

theorem head?_link (connective : Connective) :
    (" " ++ connective.sql ++ " ").toList.head? = some ' ' := by
  simp

theorem clean_joinParts {parts : List (Connective × Draft)}
    (h : ∀ part ∈ parts, Clean q part.2) : Clean q (joinParts parts) := by
  have hj := joinParts_induction (P := Clean q) (fun part hp _ => h part hp)
    fun connective hd he =>
      hd.append_text (safe_link connective) (head?_link connective) (by decide) he
  cases hj with
  | inl hnil =>
    rw [hnil]
    exact .nil
  | inr hc => exact hc

theorem solid_joinParts {parts : List (Connective × Draft)}
    (h : ∀ part ∈ parts, part.2 = [] ∨ Solid part.2) :
    joinParts parts = [] ∨ Solid (joinParts parts) := by
  apply joinParts_induction
  . intro part hp hne
    exact (h part hp).resolve_left hne
  . intro d e connective _ he
    exact (he.cons _).append_left d

end Draft

open Draft

theorem safe_sql_operator (op : Operator) (q : Char) :
    SafeText Text.isPlain q op.sql.toList := by
  cases op <;> exact .of_all (by decide)

namespace TestForm

variable {schema : Schema} {IsScalar : Value → Prop} {IsSelect : Draft → Prop}
  {family : OperatorFamily} {d : Draft}

theorem clean_appliedDraft {field : String} {op : Operator} {right : Draft}
    (hf : schema.IsIdentifier field) (hr : Clean schema.quote.char right) :
    Clean schema.quote.char (op.appliedDraft field right) := by
  apply Clean.text _ hr
  simp only [String.toList_append]
  apply SafeText.append _ (.of_all (by decide))
  apply SafeText.append _ (safe_sql_operator op _)
  exact hf.safe.append (.of_all (by decide))

theorem clean (hs : ∀ d, IsSelect d → Clean schema.quote.char d)
    (h : TestForm schema IsScalar IsSelect family d) : Clean schema.quote.char d := by
  cases h with
  | nullity hf _ =>
    apply Clean.text _ .nil
    simp only [String.toList_append]
    exact .append (hf.safe.append (.of_all (by decide))) (safe_sql_operator _ _)
  | constant he =>
    apply Clean.text _ .nil
    rcases he with rfl | rfl <;> exact .of_all (by decide)
  | fresh hf => exact clean_appliedDraft hf (.value rfl)
  | scalar hf _ => exact clean_appliedDraft hf (.value rfl)
  | range hf =>
    apply clean_appliedDraft hf
    exact (Clean.value rfl).append_text (.of_all (by decide)) rfl (by decide) (.value rfl)
  | members hf =>
    apply clean_appliedDraft hf
    apply Clean.text (.of_all (by decide))
    apply Clean.append_text _ (.of_all (by decide)) rfl (by decide) .nil
    apply Clean.joined (.of_all (by decide)) rfl (by decide)
    intro d hd
    obtain ⟨v, _, rfl⟩ := List.mem_map.1 hd
    exact .value rfl
  | @patterns _ _ connective _ _ hf _ =>
    apply Clean.text (.of_all (by decide))
    apply Clean.append_text _ (.of_all (by decide)) rfl (by decide) .nil
    apply Clean.joined (safe_link connective) (head?_link connective) (by decide)
    intro d hd
    obtain ⟨v, _, rfl⟩ := List.mem_map.1 hd
    exact clean_appliedDraft hf (.value rfl)
  | select hf hd => exact clean_appliedDraft hf (hs _ hd).inParentheses
  | existing hd =>
    apply Clean.text _ (hs _ hd).inParentheses
    rw [String.toList_append]
    exact .append (safe_sql_operator _ _) (.of_all (by decide))
  | columns hl hr =>
    apply Clean.text _ .nil
    simp only [Operator.applied, String.toList_append]
    apply SafeText.append _ (.of_all (by decide))
    apply SafeText.append (.of_all (by decide))
    apply SafeText.append _ hr.safe
    apply SafeText.append _ (.of_all (by decide))
    apply SafeText.append _ (safe_sql_operator _ _)
    exact hl.safe.append (.of_all (by decide))

theorem solid (h : TestForm schema IsScalar IsSelect family d) : Solid d := by
  cases h with
  | @nullity _ op _ ho _ =>
    apply Solid.text
    apply EndsSolid.append_left
    have : op = .isNull ∨ op = .isNotNull := by
      cases op <;> simp [Operator.family] at ho ⊢
    rcases this with rfl | rfl <;> exact ⟨'L', rfl, rfl⟩
  | constant he =>
    apply Solid.text
    rcases he with rfl | rfl <;> exact ⟨'1', rfl, rfl⟩
  | fresh _ => exact (Solid.value rfl).cons _
  | scalar _ _ => exact (Solid.value rfl).cons _
  | range _ => exact (((Solid.value rfl).cons _).cons _).cons _
  | members _ => exact (((Solid.text ⟨')', rfl, rfl⟩).append_left _).cons _).cons _
  | patterns _ _ => exact ((Solid.text ⟨')', rfl, rfl⟩).append_left _).cons _
  | select _ _ => exact (Solid.inParentheses _).cons _
  | existing _ => exact (Solid.inParentheses _).cons _
  | columns _ _ => exact .text (EndsSolid.append_left _ ⟨')', rfl, rfl⟩)

end TestForm

namespace Draft

def IsClauseDraft (q : Char) (d : Draft) : Prop :=
  Clean q d ∧ (d = [] ∨ Solid d)

theorem isClauseDraft_group {q : Char} {parts : List (Connective × Draft)}
    (h : ∀ part ∈ parts, IsClauseDraft q part.2) : IsClauseDraft q (.group parts) := by
  unfold group
  dsimp only
  split
  . exact ⟨.nil, .inl rfl⟩
  . refine ⟨?_, .inr (Solid.inParentheses _)⟩
    exact (clean_joinParts fun part hp => (h part hp).1).inParentheses

variable {schema : Schema} {fields table behind : String} {filter : Draft}

theorem clean_whereClause {q : Char} (hd : Clean q filter) : Clean q (whereClause filter) := by
  unfold whereClause
  split
  . exact .nil
  . exact .text (.of_all (by decide)) hd

theorem solid_whereClause (hd : filter = [] ∨ Solid filter) :
    whereClause filter = [] ∨ Solid (whereClause filter) := by
  unfold whereClause
  split
  . exact .inl rfl
  . next hne => exact .inr ((hd.resolve_left (by simpa using hne)).cons _)

theorem clean_select (hf : SafeText Text.isPlain schema.quote.char fields.toList)
    (ht : schema.IsIdentifier table) (hd : Clean schema.quote.char filter)
    (hb : SafeText Text.isPlain schema.quote.char behind.toList)
    (hopen : behind = "" ∨ behind.toList.head? = some ' ') :
    Clean schema.quote.char (select fields table filter behind) := by
  have hhead : SafeText Text.isPlain schema.quote.char
      ("SELECT " ++ fields ++ " FROM " ++ table).toList := by
    simp only [String.toList_append]
    apply SafeText.append _ ht.safe
    apply SafeText.append _ (.of_all (by decide))
    exact .append (.of_all (by decide)) hf
  have hwhere := clean_whereClause hd
  apply Clean.text hhead
  unfold ofText
  split
  . simpa using hwhere
  . next hne =>
    -- the clauses behind the filter begin with a blank, which ends its last placeholder
    have hs := hopen.resolve_left (by simpa using hne)
    exact hwhere.append_text hb hs (by decide) .nil

theorem solid_select (ht : schema.IsIdentifier table) (hd : filter = [] ∨ Solid filter)
    (hb : behind = "" ∨ EndsSolid behind) : Solid (select fields table filter behind) := by
  unfold select ofText
  split
  . cases solid_whereClause hd with
    | inl he =>
      rw [he]
      exact .text (ht.endsSolid.append_left _)
    | inr hs =>
      rw [List.append_nil]
      exact hs.cons _
  . next hne =>
    exact ((Solid.text (hb.resolve_left (by simpa using hne))).append_left _).cons _

theorem draftInvariant_clean (c : Compiler) (rule : LeafRule) :
    DraftInvariant c rule (fun _ => True) (IsClauseDraft c.schema.quote.char)
      fun d => Clean c.schema.quote.char d ∧ Solid d where
  value _ _ := trivial
  list _ _ _ _ := trivial
  test h := ⟨h.clean fun _ hd => hd.1, .inr h.solid⟩
  literal := ⟨.text (.of_all (by decide)) .nil, .inr (.text ⟨'1', rfl, rfl⟩)⟩
  group := isClauseDraft_group
  select {fields table order selection parts} hf ht ho hp := by
    have hbehind := Schema.orderClause_append_windowClause ho
    have hfilter := solid_joinParts fun part h => (hp part h).2
    constructor
    . apply clean_select ((Schema.safe_fieldsText hf).mono fun _ => Text.isPlain_of_isFlat) ht
      . exact clean_joinParts fun part h => (hp part h).1
      . rw [String.toList_append]
        apply SafeText.mono fun _ => Text.isPlain_of_isFlat
        exact (Schema.orderClause_eq_ok ho).1.append (selection.windowClause_cases _).1
      . exact hbehind.imp_right And.right
    . exact solid_select ht hfilter (hbehind.imp_right And.left)

end Draft

namespace Compiler

variable {c : Compiler} {rule : LeafRule} {group : Group} {d : Draft}

theorem isClauseDraft_groupDraft (hg : Group.obeys rule group = true)
    (h : c.groupDraft group = some d) : IsClauseDraft c.schema.quote.char d := by
  obtain ⟨parts, hp, rfl⟩ := Option.map_eq_some_iff.1 h
  have hi := (draftInvariant_clean c rule).partDrafts _ (Group.obeys_clauses group hg) hp
  exact ⟨clean_joinParts fun part h => (hi part h).1, solid_joinParts fun part h => (hi part h).2⟩

theorem clean_filterDraft (hg : Group.obeys rule group = true)
    (hs : ∀ condition ∈ c.softDelete, condition.obeys rule = true)
    (h : c.filterDraft group = some d) : Clean c.schema.quote.char d := by
  obtain ⟨filter, hf, h⟩ := Option.bind_eq_some_iff.1 h
  have hf := (isClauseDraft_groupDraft hg hf).1
  split at h
  . cases h
    exact hf
  . next condition hsome =>
    obtain ⟨soft, hd, h⟩ := Option.bind_eq_some_iff.1 h
    have ho := condition.obeys_clause (hs condition hsome)
    have hd := ((draftInvariant_clean c rule).clauseDraft _ ho hd).1
    cases h
    split
    . exact hd
    . exact hf.inParentheses.append_text (.of_all (by decide)) rfl (by decide) hd

end Compiler

end SqlFilter
