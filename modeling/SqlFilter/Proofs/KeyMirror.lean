import SqlFilter.Proofs.KeyFragment
import SqlFilter.Proofs.KeyReading
import SqlFilter.Proofs.RawFree

/-!
This module contains the proof that the text of a bracket key's filter mirrors the key: the special
characters are replaced one by one, and the names by the texts of their conditions in the same
order.
-/

namespace SqlFilter

open SqlFilter.Bracket BracketNode Binder

namespace Bracket

def specialText : Char → String
  | '(' => "( "
  | ')' => " )"
  | '&' => " AND "
  | '|' => " OR "
  | c => String.singleton c

def mirrored : List KeyToken → List String → String
  | [], _ => ""
  | .special c :: tokens, texts => specialText c ++ mirrored tokens texts
  | .name _ :: tokens, text :: texts => text ++ mirrored tokens texts
  | .name name :: tokens, [] => name ++ mirrored tokens []

def fieldNames (nodes : List BracketNode) : List String :=
  (allTokens nodes).filterMap KeyToken.name?

section FieldNames

variable {trailing : Option Connective} {nodes : List BracketNode}

theorem fieldNames_field {name : String} :
    fieldNames (.field name trailing :: nodes) = name :: fieldNames nodes := by
  simp [fieldNames, allTokens, tokens, filterMap_linkTokens, KeyToken.name?]

theorem fieldNames_group {body : List BracketNode} :
    fieldNames (.group body trailing :: nodes) = fieldNames body ++ fieldNames nodes := by
  simp [fieldNames, allTokens, tokens, List.filterMap_cons, filterMap_linkTokens, KeyToken.name?]

theorem length_fieldNames : (fieldNames nodes).length = terminalCounts nodes :=
  length_names_allTokens nodes

end FieldNames

inductive Fills : Connective → List BracketNode → List Condition → Group → Prop
  | nil {connective : Connective} : Fills connective [] [] []
  | field {connective : Connective} {name : String} {trailing : Option Connective}
    {nodes : List BracketNode} {condition : Condition} {conditions : List Condition}
    {others : Group} :
    condition.clause.Filled → Fills (trailing.getD .and) nodes conditions others →
      Fills connective (.field name trailing :: nodes) (condition :: conditions)
        ((connective, .condition condition) :: others)
  | group {connective : Connective} {body : List BracketNode} {trailing : Option Connective}
    {nodes : List BracketNode} {inside conditions : List Condition} {group others : Group} :
    Fills .and body inside group → Fills (trailing.getD .and) nodes conditions others →
      Fills connective (.group body trailing :: nodes) (inside ++ conditions)
        ((connective, .group group) :: others)

end Bracket

namespace Compiler

variable {c : Compiler}

def decoded (c : Compiler) (fields : List (String × Json)) : Except CompileError (List Condition) :=
  fields.mapM fun field => c.conditionOfJson field.1 field.2

def fragments (c : Compiler) (fields : List (String × Json)) : Binder (List String) := do
  let conditions ← c.decoded fields
  conditions.mapM fun condition => c.clauseText condition.clause

theorem groupOfNodes_fills (connective : Connective) :
    (nodes : List BracketNode) → (∀ node ∈ nodes, IsPart node) → (values rest : List Json) →
      values.length = terminalCounts nodes →
        Alongside
          (fun conditions result =>
            result.2 = rest ∧ Fills connective nodes conditions result.1)
          (c.decoded ((fieldNames nodes).zip values))
          (c.groupOfNodes connective nodes (values ++ rest))
  | [], _, values, rest, hv => by
    have : values = [] := List.length_eq_zero_iff.1 hv
    subst this
    unfold groupOfNodes
    exact .ok ⟨rfl, .nil⟩
  | .field name trailing :: nodes, hn, values, rest, hv => by
    simp only [List.mem_cons, forall_eq_or_imp] at hn
    cases values with
    | nil =>
      simp only [List.length_nil, terminalCounts, terminalCount] at hv
      omega
    | cons value values =>
      have hlength : values.length = terminalCounts nodes := by
        simp only [List.length_cons, terminalCounts, terminalCount] at hv
        omega
      have ih := groupOfNodes_fills (trailing.getD .and) nodes hn.2 values rest hlength
      rw [fieldNames_field, decoded, List.zip_cons_cons, List.mapM_cons]
      unfold groupOfNodes
      rw [List.cons_append, entryOfNode]
      apply Alongside.bind (R := fun condition result =>
        result = (.condition condition, values ++ rest) ∧ condition.clause.Filled)
      . cases hc : c.conditionOfJson name value with
        | error e => apply Alongside.error
        | ok condition => exact .ok ⟨rfl, filled_clause hn.1 (conditionOfJson_form hc)⟩
      . rintro condition _ ⟨rfl, hfilled⟩
        apply ih.bind
        rintro conditions ⟨others, left⟩ ⟨rfl, hfills⟩
        exact .ok ⟨rfl, .field hfilled hfills⟩
  | .group body trailing :: nodes, hn, values, rest, hv => by
    simp only [List.mem_cons, forall_eq_or_imp] at hn
    simp only [terminalCounts, terminalCount] at hv
    have hbody : WellFormed body := hn.1
    -- the values in front are those of the group
    obtain ⟨inside, outside, rfl, hinside, houtside⟩ : ∃ inside outside,
        values = inside ++ outside ∧ inside.length = terminalCounts body ∧
          outside.length = terminalCounts nodes := by
      refine ⟨values.take (terminalCounts body), values.drop (terminalCounts body), ?_, ?_, ?_⟩
      . rw [List.take_append_drop]
      . rw [List.length_take]
        omega
      . rw [List.length_drop]
        omega
    have ihbody := groupOfNodes_fills .and body hbody.parts inside (outside ++ rest) hinside
    have ih := groupOfNodes_fills (trailing.getD .and) nodes hn.2 outside rest houtside
    rw [fieldNames_group, decoded, List.append_assoc]
    rw [List.zip_append (by rw [length_fieldNames, hinside]), List.mapM_append]
    unfold groupOfNodes
    rw [entryOfNode]
    apply Alongside.bind (R := fun conditions result =>
      ∃ group, result = (.group group, outside ++ rest) ∧ Fills .and body conditions group)
    . rw [← bind_pure (List.mapM _ _)]
      apply ihbody.map
      rintro conditions ⟨group, left⟩ ⟨rfl, hfills⟩
      exact ⟨group, rfl, hfills⟩
    . rintro conditions _ ⟨group, rfl, hfills⟩
      apply ih.bind
      rintro conditions' ⟨others, left⟩ ⟨rfl, hfills'⟩
      exact .ok ⟨rfl, .group hfills hfills'⟩

end Compiler

namespace Bracket

structure Reflects (connective : Connective) (nodes : List BracketNode) (texts : List String)
    (parts : List (Connective × String)) : Prop where
  filled : ∀ part ∈ parts, part.2 ≠ ""
  length : texts.length = terminalCounts nodes
  nil : nodes = [] → parts = []
  cons : nodes ≠ [] → ∃ first others, parts = (connective, first) :: others
  joined : nodes ≠ [] → ∀ tokens rest,
    mirrored (allTokens nodes ++ tokens) (texts ++ rest) = joinParts parts ++ mirrored tokens rest

theorem mirrored_link {trailing : Option Connective}
    (h : trailing = some .and ∨ trailing = some .or) (behind : List KeyToken)
    (texts : List String) : mirrored (linkTokens trailing ++ behind) texts =
      " " ++ (trailing.getD .and).sql ++ " " ++ mirrored behind texts := by
  rcases h with rfl | rfl <;> rfl

namespace Reflects

variable {connective : Connective} {node : BracketNode} {nodes : List BracketNode}
  {inside texts : List String} {sql : String} {parts : List (Connective × String)}

theorem empty : Reflects connective [] [] [] where
  filled := by simp
  length := rfl
  nil _ := rfl
  cons h := absurd rfl h
  joined h := absurd rfl h

theorem step (hlinked : Linked (node :: nodes)) (hne : sql ≠ "")
    (hlength : inside.length = node.terminalCount)
    (hnode : ∀ behind rest, mirrored (tokens node ++ behind) (inside ++ rest) =
      sql ++ mirrored (linkTokens node.trailing ++ behind) rest)
    (h : Reflects (node.trailing.getD .and) nodes texts parts) :
    Reflects connective (node :: nodes) (inside ++ texts) ((connective, sql) :: parts) where
  filled := by
    simp only [List.mem_cons, forall_eq_or_imp]
    exact ⟨hne, h.filled⟩
  length := by
    rw [List.length_append, terminalCounts, hlength, h.length]
  nil he := by cases he
  cons _ := ⟨sql, parts, rfl⟩
  joined _ behind rest := by
    rw [allTokens, List.append_assoc, List.append_assoc, hnode]
    cases nodes with
    | nil =>
      -- nothing is written behind the last node
      have hlast : node.trailing = none := hlinked
      have htexts : texts = [] := List.length_eq_zero_iff.1 h.length
      rw [h.nil rfl, joinParts_singleton, hlast, htexts]
      rfl
    | cons next nodes =>
      obtain ⟨second, others, rfl⟩ := h.cons (by simp)
      have hsecond := h.filled _ List.mem_cons_self
      rw [joinParts_cons hne hsecond, mirrored_link hlinked.1, h.joined (by simp)]
      simp only [String.append_assoc]

theorem group {body : List BracketNode} {trailing : Option Connective}
    {bodyParts : List (Connective × String)} (hlinked : Linked (.group body trailing :: nodes))
    (hne : body ≠ []) (hbody : Reflects .and body inside bodyParts)
    (h : Reflects (trailing.getD .and) nodes texts parts) :
    Reflects connective (.group body trailing :: nodes) (inside ++ texts)
      ((connective, parenthesized (joinParts bodyParts)) :: parts) := by
  have hjoin : joinParts bodyParts ≠ "" := by
    obtain ⟨first, others, he⟩ := hbody.cons hne
    exact joinParts_ne_empty (by simp [he]) hbody.filled
  rw [parenthesized_eq hjoin]
  apply h.step hlinked (by simp) hbody.length
  intro behind rest
  rw [tokens, List.cons_append, List.cons_append, List.append_assoc, mirrored, List.cons_append]
  rw [hbody.joined hne, mirrored]
  simp only [specialText, String.append_assoc]
  rfl

end Reflects

end Bracket

namespace Compiler

variable {c : Compiler}

theorem parts_reflects {connective : Connective} {nodes : List BracketNode}
    {conditions : List Condition} {group : Group} (h : Fills connective nodes conditions group)
    (hlinked : Linked nodes) (hparts : ∀ node ∈ nodes, IsPart node) (table : BindTable) :
    Alongside (fun r r' => Reflects connective nodes r.1 r'.1 ∧ r.2 = r'.2)
      (conditions.mapM (fun condition => c.clauseText condition.clause) table)
      (c.parts (Group.clauses group) table) := by
  induction h generalizing table with
  | nil =>
    rw [Group.clauses, parts]
    exact .ok ⟨.empty, rfl⟩
  | @field connective name trailing nodes condition conditions others hfilled _ ih =>
    simp only [List.mem_cons, forall_eq_or_imp] at hparts
    rw [List.mapM_cons, Group.clauses, parts]
    apply Alongside.bind (R := fun r r' => r = r' ∧ r.1 ≠ "")
    . cases hr : c.clauseText condition.clause table with
      | error e =>
        simp only [Entry.clause, hr]
        exact .error e
      | ok r =>
        simp only [Entry.clause, hr]
        exact .ok ⟨rfl, hfilled.ensures.result hr⟩
    . rintro ⟨sql, table⟩ _ ⟨rfl, hne⟩
      apply Alongside.bind (ih hlinked.tail hparts.2 table)
      rintro ⟨texts, table⟩ ⟨parts, _⟩ ⟨hr, rfl⟩
      refine .ok ⟨?_, rfl⟩
      have hstep : Reflects connective (.field name trailing :: nodes) ([sql] ++ texts)
          ((connective, sql) :: parts) := hr.step hlinked hne rfl fun _ _ => rfl
      exact hstep
  | @group connective body trailing nodes inside conditions group others hbody _ ihbody ih =>
    simp only [List.mem_cons, forall_eq_or_imp] at hparts
    have hbody : WellFormed body := hparts.1
    have hne := hbody.ne_nil
    rw [List.mapM_append, Group.clauses, parts, Entry.clause, clauseText]
    rw [bind_assoc]
    apply Alongside.bind (ihbody hbody.linked hbody.parts table)
    rintro ⟨inside, table⟩ ⟨body, _⟩ ⟨hbody, rfl⟩
    apply Alongside.bind (ih hlinked.tail hparts.2 table)
    rintro ⟨texts, table⟩ ⟨parts, _⟩ ⟨hr, rfl⟩
    exact .ok ⟨.group hlinked hne hbody hr, rfl⟩

theorem compileGroup_reflects (hs : c.softDelete = none) {nodes : List BracketNode}
    (hn : WellFormed nodes) {conditions : List Condition} {group : Group}
    (h : Fills .and nodes conditions group) :
    c.compileGroup group = (do
      let (texts, table) ←
        conditions.mapM (fun condition => c.clauseText condition.clause) (.empty c.config.bindStem)
      .ok ⟨mirrored (allTokens nodes) texts, table.binds, c.placeholder⟩) := by
  have hr := parts_reflects (c := c) h hn.linked hn.parts (.empty c.config.bindStem)
  rw [compileGroup_parts hs]
  revert hr
  generalize c.parts (Group.clauses group) (.empty c.config.bindStem) = x
  generalize conditions.mapM (fun condition => c.clauseText condition.clause)
    (.empty c.config.bindStem) = y
  intro hr
  cases hr with
  | error e => rfl
  | @ok r r' hr =>
    obtain ⟨hr, ht⟩ := hr
    have hjoined := hr.joined hn.ne_nil [] []
    simp only [List.append_nil, mirrored, String.append_empty] at hjoined
    change Except.ok _ = Except.ok _
    rw [hjoined, ht]

theorem compile_bracket {key : String} {nodes : List BracketNode}
    (hp : Bracket.parse c.config.maxBracketDepth key = .ok nodes) (values : List Json) :
    c.compile (.bracket key values) =
      if terminalCounts nodes = values.length then
        c.groupOfNodes .and nodes values >>= fun r => c.compileGroup r.1
      else .error (.bracket (.valueCount (terminalCounts nodes) values.length)) := by
  have hg : c.groupOfBracketKey key values = c.groupOfBracket nodes values := by
    unfold groupOfBracketKey
    rw [hp]
    rfl
  change (c.groupOfBracketKey key values >>= c.compileGroup) = _
  rw [hg]
  unfold groupOfBracket
  dsimp only
  split
  . cases c.groupOfNodes .and nodes values <;> rfl
  . rfl

theorem compile_key (hs : c.softDelete = none) {key : String} {nodes : List BracketNode}
    (hp : Bracket.parse c.config.maxBracketDepth key = .ok nodes) {values : List Json}
    (hlength : terminalCounts nodes = values.length) :
    c.compile (.bracket key values) = (do
      let (texts, table) ←
        c.fragments ((fieldNames nodes).zip values) (.empty c.config.bindStem)
      .ok ⟨mirrored (allTokens nodes) texts, table.binds, c.placeholder⟩) := by
  have hn := (parse_eq_ok_iff.1 hp).2.1
  have hr := groupOfNodes_fills (c := c) .and nodes hn.parts values [] hlength.symm
  rw [List.append_nil] at hr
  unfold fragments
  rw [run_lift_bind]
  rw [compile_bracket hp, if_pos hlength]
  revert hr
  generalize c.groupOfNodes .and nodes values = x
  generalize c.decoded ((fieldNames nodes).zip values) = y
  intro hr
  cases hr with
  | error e => rfl
  | ok hr =>
    change c.compileGroup _ = _
    rw [compileGroup_reflects hs hn hr.2]
    rfl

end Compiler

end SqlFilter
