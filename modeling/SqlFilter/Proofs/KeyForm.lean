import SqlFilter.Proofs.Balance
import SqlFilter.Proofs.Except
import SqlFilter.Proofs.Identifier

/-!
This module contains the written form of bracket keys: the text of a tree of nodes, and which trees
a key can spell.
-/

namespace SqlFilter

namespace Identifier

theorem isSpecial_of_check {name : String} (h : check name = .ok ()) :
    ∀ c ∈ name.toList, Bracket.isSpecial c = false := by
  obtain ⟨_, hc, _⟩ := bind_eq_ok.1 h
  intro c hm
  have := checkCharacters_eq_ok hc c hm
  rw [Bool.eq_false_iff]
  intro hs
  simp only [Bracket.isSpecial, Bool.or_eq_true, beq_iff_eq] at hs
  rcases hs with ((rfl | rfl) | rfl) | rfl <;> cases this

theorem ne_empty_of_check {name : String} (h : check name = .ok ()) : name ≠ "" := by
  obtain ⟨_, hc, _⟩ := bind_eq_ok.1 h
  rintro rfl
  cases hc

end Identifier

namespace BracketNode

def linkText : Option Connective → List Char
  | some .and => ['&']
  | some .or => ['|']
  | some .xor => []
  | none => []

theorem linkText_cases (trailing : Option Connective) :
    linkText trailing = [] ∨ linkText trailing = ['&'] ∨ linkText trailing = ['|'] := by
  cases trailing with
  | none => exact .inl rfl
  | some connective => cases connective <;> simp [linkText]

mutual

def text : BracketNode → List Char
  | .field name trailing => name.toList ++ linkText trailing
  | .group nodes trailing => '(' :: texts nodes ++ ')' :: linkText trailing

def texts : List BracketNode → List Char
  | [] => []
  | node :: nodes => text node ++ texts nodes

end

mutual

def nesting : BracketNode → Nat
  | .field _ _ => 0
  | .group nodes _ => nestings nodes + 1

def nestings : List BracketNode → Nat
  | [] => 0
  | node :: nodes => max (nesting node) (nestings nodes)

end

theorem nestings_lt_of_mem {found body : List BracketNode} {trailing : Option Connective}
    (h : .group body trailing ∈ found) : nestings body < nestings found := by
  induction found with
  | nil => cases h
  | cons node nodes ih =>
    rw [nestings]
    cases List.mem_cons.1 h with
    | inl he =>
      subst he
      rw [nesting]
      omega
    | inr hm =>
      have := ih hm
      omega

end BracketNode

namespace Bracket

open BracketNode

def Linked : List BracketNode → Prop
  | [] => True
  | [node] => node.trailing = none
  | node :: next :: nodes =>
    (node.trailing = some .and ∨ node.trailing = some .or) ∧ Linked (next :: nodes)

def Uniform (nodes : List BracketNode) : Prop :=
  ∃ connective, ∀ node ∈ nodes, ∀ link, node.trailing = some link → link = connective

inductive WellFormed : List BracketNode → Prop
  | intro {nodes : List BracketNode} :
    nodes ≠ [] → Linked nodes →
      (∀ name trailing, .field name trailing ∈ nodes → Identifier.check name = .ok ()) →
      (∀ body trailing, .group body trailing ∈ nodes → WellFormed body) →
      ((∀ node ∈ nodes, node.isField = true) → Uniform nodes) → WellFormed nodes

def IsPart : BracketNode → Prop
  | .field name _ => Identifier.check name = .ok ()
  | .group body _ => WellFormed body

theorem Linked.tail {node : BracketNode} {nodes : List BracketNode} (h : Linked (node :: nodes)) :
    Linked nodes := by
  cases nodes with
  | nil => trivial
  | cons next nodes => exact h.2

theorem text_ne_nil {node : BracketNode} (h : IsPart node) : node.text ≠ [] := by
  cases node with
  | field name trailing =>
    have := Identifier.ne_empty_of_check h
    simp [text, this]
  | group body trailing => simp [text]

theorem texts_eq_nil {found : List BracketNode} (h : ∀ node ∈ found, IsPart node) :
    texts found = [] ↔ found = [] := by
  cases found with
  | nil => simp [texts]
  | cons node nodes => simp [texts, text_ne_nil (h node List.mem_cons_self)]

namespace WellFormed

variable {found : List BracketNode}

theorem ne_nil (h : WellFormed found) : found ≠ [] := by
  cases h
  assumption

theorem linked (h : WellFormed found) : Linked found := by
  cases h
  assumption

theorem parts (h : WellFormed found) : ∀ node ∈ found, IsPart node := by
  cases h with
  | intro _ _ hfields hgroups _ =>
    intro node hn
    cases node with
    | field name trailing => exact hfields name trailing hn
    | group body trailing => exact hgroups body trailing hn

theorem intro_of_parts (hne : found ≠ []) (hlinked : Linked found)
    (hparts : ∀ node ∈ found, IsPart node)
    (hlinks : (∀ node ∈ found, node.isField = true) → Uniform found) : WellFormed found :=
  .intro hne hlinked (fun _ _ hm => hparts _ hm) (fun _ _ hm => hparts _ hm) hlinks

theorem texts_induction {P : List Char → Prop} (hnil : P [])
    (happend : ∀ {cs ds}, P cs → P ds → P (cs ++ ds))
    (hname : ∀ name, Identifier.check name = .ok () → P name.toList)
    (hand : P ['&']) (hor : P ['|']) (hgroup : ∀ {cs}, P cs → P ('(' :: cs ++ [')']))
    (h : WellFormed found) : P (texts found) := by
  have link (trailing : Option Connective) : P (linkText trailing) := by
    rcases linkText_cases trailing with he | he | he <;> rw [he] <;> assumption
  induction h with
  | @intro found hne hlinked hfields hgroups hlinks ih =>
    have part (node : BracketNode) (hn : node ∈ found) : P node.text := by
      cases node with
      | field name trailing => exact happend (hname name (hfields name trailing hn)) (link trailing)
      | group body trailing =>
        have := happend (hgroup (ih body trailing hn)) (link trailing)
        simpa [text] using this
    clear hne hlinked hfields hgroups hlinks ih
    induction found with
    | nil => exact hnil
    | cons node nodes ih =>
      simp only [List.mem_cons, forall_eq_or_imp] at part
      exact happend part.1 (ih part.2)

theorem closed_texts (h : WellFormed found) : Text.Closed (texts found) := by
  apply h.texts_induction .nil .append
  . intro name hn
    apply Text.Closed.of_forall
    intro c hc
    have := Identifier.isSpecial_of_check hn c hc
    simp only [isSpecial, Bool.or_eq_false_iff] at this
    simp [Text.isParenthesis, this]
  . exact .char rfl .nil
  . exact .char rfl .nil
  . exact .parenthesized

theorem all_texts {allowed : Char → Bool}
    (hw : ∀ c, (Text.isWordChar c || c == '.') = true → allowed c = true)
    (hs : ∀ c, isSpecial c = true → allowed c = true) (h : WellFormed found) :
    (texts found).all allowed = true := by
  apply h.texts_induction (P := fun cs => cs.all allowed = true) rfl
  . intro cs ds hc hd
    rw [List.all_append, hc, hd]
    rfl
  . intro name hn
    obtain ⟨_, hc, _⟩ := bind_eq_ok.1 hn
    apply List.all_eq_true.2
    intro c hm
    exact hw c (Identifier.checkCharacters_eq_ok hc c hm)
  . simp [hs '&' rfl]
  . simp [hs '|' rfl]
  . intro cs hc
    simpa [hs '(' rfl, hs ')' rfl] using hc

end WellFormed

end Bracket

end SqlFilter
