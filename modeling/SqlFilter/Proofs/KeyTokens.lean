import SqlFilter.Proofs.KeyGrammar

/-!
This module contains the pieces of bracket keys: special characters, and names up to the next one of
these. A key that is parsed has the names of its fields, from left to right.
-/

namespace SqlFilter

namespace Bracket

open BracketNode

inductive KeyToken where
  | special (c : Char)
  | name (s : String)
deriving DecidableEq

namespace KeyToken

def name? : KeyToken → Option String
  | .special _ => none
  | .name s => some s

def scan : List Char → List KeyToken
  | [] => []
  | c :: cs =>
    if isSpecial c then .special c :: scan cs
    else
      .name (String.ofList (c :: cs.takeWhile fun c => !isSpecial c)) ::
        scan (cs.dropWhile fun c => !isSpecial c)
termination_by cs => cs.length
decreasing_by
  . simp
  . exact Nat.lt_succ_of_le (List.dropWhile_sublist _).length_le

end KeyToken

def names (key : List Char) : List String :=
  (KeyToken.scan key).filterMap KeyToken.name?

def linkTokens (trailing : Option Connective) : List KeyToken :=
  (linkText trailing).map .special

mutual

def tokens : BracketNode → List KeyToken
  | .field name trailing => .name name :: linkTokens trailing
  | .group nodes trailing =>
    .special '(' :: allTokens nodes ++ .special ')' :: linkTokens trailing

def allTokens : List BracketNode → List KeyToken
  | [] => []
  | node :: nodes => tokens node ++ allTokens nodes

end

namespace KeyToken

theorem scan_special {c : Char} (hc : isSpecial c = true) (cs : List Char) :
    scan (c :: cs) = .special c :: scan cs := by
  rw [scan, if_pos hc]

theorem scan_linkText (trailing : Option Connective) (rest : List Char) :
    scan (linkText trailing ++ rest) = linkTokens trailing ++ scan rest := by
  rcases linkText_cases trailing with he | he | he
  . simp [linkTokens, he]
  . simpa [linkTokens, he] using scan_special rfl rest
  . simpa [linkTokens, he] using scan_special rfl rest

theorem scan_name {name : String} (hn : Identifier.check name = .ok ()) {after : List Char}
    (ha : EndsName after) : scan (name.toList ++ after) = .name name :: scan after := by
  obtain ⟨c, cs, hname, hs, htake, hdrop⟩ := exists_cons_of_check hn ha
  rw [hname, List.cons_append]
  rw [scan, if_neg (by simp [hs])]
  rw [htake, hdrop]
  rw [← hname, String.ofList_toList]

end KeyToken

open KeyToken (name? scan scan_linkText scan_name scan_special)

theorem endsName_linked {node : BracketNode} {others : List BracketNode} {rest : List Char}
    (hlinked : Linked (node :: others)) (hrest : EndsName rest) :
    EndsName (linkText node.trailing ++ (texts others ++ rest)) := by
  cases others with
  | nil =>
    rw [show node.trailing = none from hlinked]
    exact hrest
  | cons next others =>
    rcases hlinked.1 with he | he
    . rw [he]
      rintro c ⟨⟩
      rfl
    . rw [he]
      rintro c ⟨⟩
      rfl

theorem scan_texts {found : List BracketNode} (h : WellFormed found) {rest : List Char}
    (hrest : EndsName rest) : scan (texts found ++ rest) = allTokens found ++ scan rest := by
  induction h generalizing rest with
  | @intro found hne hlinked hfields hgroups hlinks ih =>
    clear hne hgroups hlinks
    induction found with
    | nil => rfl
    | cons node others ihs =>
      have hends := endsName_linked hlinked hrest
      have ihs := ihs hlinked.tail (fun name trailing hm => hfields name trailing (.tail _ hm))
        fun body trailing hm => ih body trailing (.tail _ hm)
      cases node with
      | field name trailing =>
        have hname := scan_name (hfields name trailing List.mem_cons_self) hends
        rw [show texts (.field name trailing :: others) ++ rest =
          name.toList ++ (linkText trailing ++ (texts others ++ rest)) by
            simp [texts, BracketNode.text]]
        rw [show (BracketNode.field name trailing).trailing = trailing from rfl] at hname
        rw [hname, scan_linkText, ihs]
        simp [allTokens, tokens]
      | group body trailing =>
        have hclose : EndsName (')' :: (linkText trailing ++ (texts others ++ rest))) := by
          rintro c ⟨⟩
          rfl
        have hbody := ih body trailing List.mem_cons_self hclose
        rw [show texts (.group body trailing :: others) ++ rest =
          '(' :: (texts body ++ ')' :: (linkText trailing ++ (texts others ++ rest))) by
            simp [texts, BracketNode.text]]
        rw [scan_special rfl, hbody, scan_special rfl, scan_linkText, ihs]
        simp [allTokens, tokens]

theorem filterMap_linkTokens (trailing : Option Connective) :
    (linkTokens trailing).filterMap name? = [] := by
  rcases linkText_cases trailing with he | he | he <;> simp [linkTokens, he, name?]

mutual

theorem length_names_tokens :
    (node : BracketNode) → ((tokens node).filterMap name?).length = node.terminalCount
  | .field name trailing => by
    simp [tokens, filterMap_linkTokens, name?, terminalCount]
  | .group nodes trailing => by
    simp only [tokens, List.filterMap_cons, List.filterMap_append, List.cons_append, name?,
      filterMap_linkTokens, List.append_nil, terminalCount]
    exact length_names_allTokens nodes

theorem length_names_allTokens :
    (nodes : List BracketNode) → ((allTokens nodes).filterMap name?).length = terminalCounts nodes
  | [] => rfl
  | node :: nodes => by
    simp only [allTokens, List.filterMap_append, List.length_append, terminalCounts]
    rw [length_names_tokens node, length_names_allTokens nodes]

end

theorem scan_key {found : List BracketNode} (h : WellFormed found) :
    scan (texts found) = allTokens found := by
  have hend : EndsName [] := by
    rintro c ⟨⟩
  have := scan_texts h hend
  simpa [scan] using this

theorem length_names {found : List BracketNode} (h : WellFormed found) :
    (names (texts found)).length = terminalCounts found := by
  rw [names, scan_key h]
  apply length_names_allTokens

end Bracket

end SqlFilter
