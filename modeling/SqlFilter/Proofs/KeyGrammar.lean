import SqlFilter.Proofs.KeyForm

/-!
This module contains the grammar of bracket keys: the reader accepts the texts of well-formed trees
whose groups are not too deep, gives back the tree that was written, and accepts nothing else.
-/

namespace SqlFilter

namespace Bracket

open BracketNode Text

section Equations

variable (maxDepth depth : Nat) (text : List Char)

theorem level_eq : level maxDepth depth text =
    (if maxDepth < depth then .error (.bracket (.tooDeep maxDepth))
    else do
      let found ← nodes maxDepth depth text text
      if found.isEmpty then .error (.bracket .emptyExpression)
      else if isMixed found then .error (.bracket (.mixedConnectives (String.ofList text)))
      else .ok found) := by
  rw [level]

theorem nodes_nil : nodes maxDepth depth text [] = .ok [] := by
  rw [nodes]

theorem nodes_group (cs : List Char) : nodes maxDepth depth text ('(' :: cs) =
    (match closeGroup? 0 cs with
    | none => .error (.bracket (.unbalancedOpen (String.ofList text)))
    | some (body, after) =>
      if body.isEmpty then .error (.bracket (.emptyGroup (String.ofList text)))
      else do
        let children ← level maxDepth (depth + 1) body
        let (trailing, rest) ← link text after
        let others ← nodes maxDepth depth text rest
        .ok (.group children trailing :: others)) := by
  rw [nodes]
  simp only [if_true]
  split
  . next h => simp only [h]
  . next body after h =>
    simp only [h]
    split
    . rfl
    . congr 1
      funext children
      split
      . next hl => rw [hl]; rfl
      . next hl => rw [hl]; rfl

theorem nodes_close (cs : List Char) : nodes maxDepth depth text (')' :: cs) =
    .error (.bracket (.unbalancedClose (String.ofList text))) := by
  rw [nodes]
  rfl

theorem nodes_link {c : Char} (cs : List Char) (hc : c = '&' ∨ c = '|') :
    nodes maxDepth depth text (c :: cs) =
      .error (.bracket (.noLeftOperand (String.ofList text))) := by
  rw [nodes]
  rcases hc with rfl | rfl <;> rfl

theorem nodes_field {c : Char} (cs : List Char) (hs : isSpecial c = false) :
    nodes maxDepth depth text (c :: cs) = (do
      let name := String.ofList (c :: cs.takeWhile fun c => !isSpecial c)
      checkField name
      let (trailing, rest) ← link text (cs.dropWhile fun c => !isSpecial c)
      let others ← nodes maxDepth depth text rest
      .ok (.field name trailing :: others)) := by
  simp only [isSpecial, Bool.or_eq_false_iff, beq_eq_false_iff_ne] at hs
  rw [nodes]
  simp only [hs, if_false, or_self]
  congr 1
  funext _
  split
  . next hl => rw [hl]; rfl
  . next hl => rw [hl]; rfl

end Equations

def Continues (trailing : Option Connective) (rest : List Char) : Prop :=
  trailing = none ∧ rest = [] ∨ (trailing = some .and ∨ trailing = some .or) ∧ rest ≠ []

theorem linkText_of_connective? {c : Char} {connective : Connective}
    (h : connective? c = some connective) :
    linkText (some connective) = [c] ∧ (connective = .and ∨ connective = .or) := by
  unfold connective? at h
  split at h
  . cases h
    exact ⟨rfl, .inl rfl⟩
  . cases h
    exact ⟨rfl, .inr rfl⟩
  . cases h

theorem link_eq_ok_iff {text cs rest : List Char} {trailing : Option Connective} :
    link text cs = .ok (trailing, rest) ↔
      cs = linkText trailing ++ rest ∧ Continues trailing rest := by
  constructor
  . intro h
    cases cs with
    | nil =>
      cases h
      exact ⟨rfl, .inl ⟨rfl, rfl⟩⟩
    | cons c cs =>
      simp only [link] at h
      split at h
      . next connective hc =>
        split at h
        . cases h
        . next hne =>
          have hne : cs ≠ [] := by simpa using hne
          cases h
          obtain ⟨htext, hc⟩ := linkText_of_connective? hc
          rw [htext]
          exact ⟨rfl, .inr ⟨hc.imp (congrArg some) (congrArg some), hne⟩⟩
      . split at h <;> cases h
  . rintro ⟨rfl, ⟨rfl, rfl⟩ | ⟨rfl | rfl, hne⟩⟩
    . rfl
    . simp [linkText, link, connective?, hne]
    . simp [linkText, link, connective?, hne]

theorem isMixed_eq_false_iff {found : List BracketNode} :
    isMixed found = false ↔ ((∀ node ∈ found, node.isField = true) → Uniform found) := by
  unfold isMixed
  rw [Bool.and_eq_false_imp, List.all_eq_true]
  apply imp_congr_right
  intro _
  -- the connective of the first link is the one that all have
  constructor
  . intro h
    cases hl : found.filterMap BracketNode.trailing with
    | nil =>
      refine ⟨.and, ?_⟩
      intro node hn link hlink
      have : link ∈ found.filterMap BracketNode.trailing := List.mem_filterMap.2 ⟨node, hn, hlink⟩
      rw [hl] at this
      cases this
    | cons first others =>
      refine ⟨first, ?_⟩
      intro node hn link hlink
      have : link ∈ found.filterMap BracketNode.trailing := List.mem_filterMap.2 ⟨node, hn, hlink⟩
      rw [hl] at this h
      cases List.mem_cons.1 this with
      | inl he => exact he
      | inr hm => simpa using List.any_eq_false.1 h link hm
  . rintro ⟨connective, h⟩
    have hall : ∀ link ∈ found.filterMap BracketNode.trailing, link = connective := by
      intro link hl
      obtain ⟨node, hn, hlink⟩ := List.mem_filterMap.1 hl
      exact h node hn link hlink
    cases hl : found.filterMap BracketNode.trailing with
    | nil => rfl
    | cons first others =>
      rw [hl] at hall
      simp only [List.mem_cons, forall_eq_or_imp] at hall
      apply List.any_eq_false.2
      intro link hm
      simp [hall.1, hall.2 link hm]

theorem linked_cons_iff {node : BracketNode} {others : List BracketNode}
    (h : ∀ node ∈ others, IsPart node) :
    Linked (node :: others) ↔ Continues node.trailing (texts others) ∧ Linked others := by
  have hempty := texts_eq_nil h
  cases others with
  | nil => simp [Linked, Continues, texts]
  | cons next others => simp [Linked, Continues, hempty]

def EndsName (after : List Char) : Prop :=
  ∀ c, after.head? = some c → isSpecial c = true

theorem Continues.endsName {trailing : Option Connective} {rest : List Char}
    (h : Continues trailing rest) : EndsName (linkText trailing ++ rest) := by
  rcases h with ⟨rfl, rfl⟩ | ⟨rfl | rfl, _⟩
  . rintro c ⟨⟩
  . rintro c ⟨⟩
    rfl
  . rintro c ⟨⟩
    rfl

theorem exists_cons_of_check {name : String} {after : List Char}
    (hn : Identifier.check name = .ok ()) (ha : EndsName after) :
    ∃ c cs, name.toList = c :: cs ∧ isSpecial c = false ∧
      (cs ++ after).takeWhile (fun c => !isSpecial c) = cs ∧
      (cs ++ after).dropWhile (fun c => !isSpecial c) = after := by
  have hs := Identifier.isSpecial_of_check hn
  cases hname : name.toList with
  | nil => exact absurd hname (by simpa using Identifier.ne_empty_of_check hn)
  | cons c cs =>
    simp only [hname, List.mem_cons, forall_eq_or_imp] at hs
    refine ⟨c, cs, rfl, hs.1, ?_, ?_⟩
    . rw [List.takeWhile_append_of_pos (by simpa using hs.2)]
      cases after with
      | nil => simp
      | cons d ds => simp [ha d rfl]
    . rw [List.dropWhile_append_of_pos (by simpa using hs.2)]
      cases after with
      | nil => simp
      | cons d ds => simp [ha d rfl]

theorem checkField_eq_ok_iff {name : String} :
    checkField name = .ok () ↔ Identifier.check name = .ok () := by
  constructor
  . exact check_of_checkField
  . intro h
    rw [checkField, h]
    rfl

mutual

theorem level_sound (maxDepth depth : Nat) (text : List Char) {found : List BracketNode}
    (h : level maxDepth depth text = .ok found) :
    WellFormed found ∧ texts found = text ∧ nestings found + depth ≤ maxDepth := by
  rw [level_eq] at h
  split at h
  . cases h
  . next hdepth =>
    obtain ⟨found, hn, h⟩ := bind_eq_ok.1 h
    split at h
    . cases h
    . next hne =>
      split at h
      . cases h
      . next hmixed =>
        cases h
        obtain ⟨hparts, hlinked, htexts, hnesting⟩ :=
          nodes_sound maxDepth depth text text (by omega) hn
        have hlinks := isMixed_eq_false_iff.1 (by simpa using hmixed)
        exact ⟨.intro_of_parts (by simpa using hne) hlinked hparts hlinks, htexts, hnesting⟩
termination_by (text.length, 1)

theorem nodes_sound (maxDepth depth : Nat) (text rest : List Char) (hdepth : depth ≤ maxDepth)
    {found : List BracketNode} (h : nodes maxDepth depth text rest = .ok found) :
    (∀ node ∈ found, IsPart node) ∧ Linked found ∧ texts found = rest ∧
      nestings found + depth ≤ maxDepth := by
  match rest with
  | [] =>
    rw [nodes_nil] at h
    cases h
    exact ⟨by simp, trivial, rfl, by simpa [nestings] using hdepth⟩
  | c :: cs =>
    cases hs : isSpecial c with
    | true =>
      by_cases ho : c = '('
      . subst ho
        rw [nodes_group] at h
        split at h
        . cases h
        . next body after hg =>
          split at h
          . cases h
          . have hcs := closeGroup?_eq_some hg
            have hlength := congrArg List.length hcs
            simp only [List.length_append, List.length_cons] at hlength
            obtain ⟨children, hc, h⟩ := bind_eq_ok.1 h
            obtain ⟨⟨trailing, rest⟩, hl, h⟩ := bind_eq_ok.1 h
            obtain ⟨others, ho, h⟩ := bind_eq_ok.1 h
            cases h
            have hle := length_link_le hl
            obtain ⟨rfl, hcontinues⟩ := link_eq_ok_iff.1 hl
            obtain ⟨hwf, hbody, hchildren⟩ := level_sound maxDepth (depth + 1) body hc
            obtain ⟨hparts, hlinked, rfl, hothers⟩ := nodes_sound maxDepth depth text rest hdepth ho
            refine ⟨?_, (linked_cons_iff hparts).2 ⟨hcontinues, hlinked⟩, ?_, ?_⟩
            . simp only [List.mem_cons, forall_eq_or_imp]
              exact ⟨hwf, hparts⟩
            . simp [texts, BracketNode.text, hbody, hcs]
            . simp only [nestings, nesting]
              omega
      . simp only [isSpecial, Bool.or_eq_true, beq_iff_eq, ho, false_or, or_assoc] at hs
        rcases hs with rfl | hs
        . rw [nodes_close] at h
          cases h
        . rw [nodes_link _ _ _ _ hs] at h
          cases h
    | false =>
      rw [nodes_field _ _ _ cs hs] at h
      obtain ⟨_, hcheck, h⟩ := bind_eq_ok.1 h
      obtain ⟨⟨trailing, rest⟩, hl, h⟩ := bind_eq_ok.1 h
      obtain ⟨others, ho, h⟩ := bind_eq_ok.1 h
      cases h
      have hle := length_link_le hl
      have := (List.dropWhile_sublist (fun c => !isSpecial c) (l := cs)).length_le
      obtain ⟨hcs, hcontinues⟩ := link_eq_ok_iff.1 hl
      obtain ⟨hparts, hlinked, rfl, hothers⟩ := nodes_sound maxDepth depth text rest hdepth ho
      refine ⟨?_, (linked_cons_iff hparts).2 ⟨hcontinues, hlinked⟩, ?_, ?_⟩
      . simp only [List.mem_cons, forall_eq_or_imp]
        exact ⟨checkField_eq_ok_iff.1 hcheck, hparts⟩
      . simp only [texts, BracketNode.text, String.toList_ofList, List.append_assoc, ← hcs,
          List.cons_append, List.takeWhile_append_dropWhile]
      . simp only [nestings, nesting]
        omega
termination_by (rest.length, 0)
decreasing_by
  . simp only [List.length_cons, Prod.lex_def]
    omega
  . simp only [List.length_cons, Prod.lex_def]
    omega
  . simp only [List.length_cons, Prod.lex_def]
    omega

end

section Texts

variable {maxDepth depth : Nat} {text rest : List Char} {trailing : Option Connective}
  (h : Continues trailing rest)

include h

theorem nodes_field_text {name : String} (hn : Identifier.check name = .ok ()) :
    nodes maxDepth depth text (name.toList ++ (linkText trailing ++ rest)) = (do
      let others ← nodes maxDepth depth text rest
      .ok (.field name trailing :: others)) := by
  have hl : link text (linkText trailing ++ rest) = .ok (trailing, rest) :=
    link_eq_ok_iff.2 ⟨rfl, h⟩
  obtain ⟨c, cs, hname, hs, htake, hdrop⟩ := exists_cons_of_check hn h.endsName
  rw [hname, List.cons_append]
  rw [nodes_field _ _ _ _ hs]
  rw [htake, hdrop, hl]
  rw [← hname, String.ofList_toList]
  simp only [checkField_eq_ok_iff.2 hn]
  rfl

theorem nodes_group_text {body : List Char} (hne : body ≠ []) (hb : Text.Closed body) :
    nodes maxDepth depth text ('(' :: body ++ ')' :: (linkText trailing ++ rest)) = (do
      let children ← level maxDepth (depth + 1) body
      let others ← nodes maxDepth depth text rest
      .ok (.group children trailing :: others)) := by
  have hl : link text (linkText trailing ++ rest) = .ok (trailing, rest) :=
    link_eq_ok_iff.2 ⟨rfl, h⟩
  rw [List.cons_append]
  rw [nodes_group]
  rw [closeGroup?_of_closed hb]
  simp only [List.isEmpty_iff, hne, if_false]
  rw [hl]
  rfl

end Texts

theorem nodes_texts {maxDepth depth : Nat} {text : List Char} {found : List BracketNode}
    (hlinked : Linked found) (hparts : ∀ node ∈ found, IsPart node)
    (hgroups : ∀ body trailing, .group body trailing ∈ found →
      level maxDepth (depth + 1) (texts body) = .ok body) :
    nodes maxDepth depth text (texts found) = .ok found := by
  induction found with
  | nil =>
    rw [texts]
    apply nodes_nil
  | cons node others ih =>
    simp only [List.mem_cons, forall_eq_or_imp] at hparts
    obtain ⟨hcontinues, hlinked⟩ := (linked_cons_iff hparts.2).1 hlinked
    have ih := ih hlinked hparts.2 fun body trailing hm =>
      hgroups body trailing (List.mem_cons_of_mem node hm)
    cases node with
    | field name trailing =>
      have hcontinues : Continues trailing (texts others) := hcontinues
      rw [texts, BracketNode.text, List.append_assoc]
      rw [nodes_field_text hcontinues hparts.1]
      rw [ih]
      rfl
    | group body trailing =>
      have hcontinues : Continues trailing (texts others) := hcontinues
      have hwf : WellFormed body := hparts.1
      have hne : texts body ≠ [] := by
        rw [Ne, texts_eq_nil hwf.parts]
        exact hwf.ne_nil
      rw [show texts (.group body trailing :: others) =
        '(' :: texts body ++ ')' :: (linkText trailing ++ texts others) by
          simp [texts, BracketNode.text]]
      rw [nodes_group_text hcontinues hne hwf.closed_texts]
      rw [hgroups body trailing List.mem_cons_self]
      rw [ih]
      rfl

theorem level_texts {maxDepth : Nat} {found : List BracketNode} (h : WellFormed found)
    {depth : Nat} (hdepth : nestings found + depth ≤ maxDepth) :
    level maxDepth depth (texts found) = .ok found := by
  induction h generalizing depth with
  | @intro found hne hlinked hfields hgroups hlinks ih =>
    have hwf := WellFormed.intro hne hlinked hfields hgroups hlinks
    have hnodes : nodes maxDepth depth (texts found) (texts found) = .ok found := by
      apply nodes_texts hlinked hwf.parts
      intro body trailing hm
      apply ih body trailing hm
      have := nestings_lt_of_mem hm
      omega
    rw [level_eq]
    rw [if_neg (by omega)]
    rw [hnodes]
    have hmixed := isMixed_eq_false_iff.2 hlinks
    simp [bind, Except.bind, hne, hmixed]

theorem level_eq_ok_iff {maxDepth depth : Nat} {text : List Char} {found : List BracketNode} :
    level maxDepth depth text = .ok found ↔
      WellFormed found ∧ texts found = text ∧ nestings found + depth ≤ maxDepth := by
  constructor
  . exact level_sound maxDepth depth text
  . rintro ⟨hwf, rfl, hdepth⟩
    exact level_texts hwf hdepth

theorem WellFormed.eq_of_texts_eq {found found' : List BracketNode} (h : WellFormed found)
    (h' : WellFormed found') (he : texts found = texts found') : found = found' := by
  -- both are read from the same text if groups may be deep enough
  have hl : level (nestings found + nestings found') 0 (texts found) = .ok found :=
    level_texts h (by omega)
  have hl' : level (nestings found + nestings found') 0 (texts found') = .ok found' :=
    level_texts h' (by omega)
  rw [he, hl'] at hl
  cases hl
  rfl

end Bracket

end SqlFilter
