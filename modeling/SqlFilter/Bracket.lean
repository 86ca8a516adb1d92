import SqlFilter.Filter

/-!
This module contains bracket keys, such as `(a|b)&(c)`: fields that are joined by `&` and `|` and
grouped by parentheses. `Bracket.parse` reads a key without looking at any value.
-/

namespace SqlFilter

inductive BracketNode where
  | field (name : String) (trailing : Option Connective)
  | group (nodes : List BracketNode) (trailing : Option Connective)

namespace BracketNode

def trailing : BracketNode → Option Connective
  | .field _ trailing => trailing
  | .group _ trailing => trailing

def isField : BracketNode → Bool
  | .field _ _ => true
  | .group _ _ => false

mutual

def terminalCount : BracketNode → Nat
  | .field _ _ => 1
  | .group nodes _ => terminalCounts nodes

def terminalCounts : List BracketNode → Nat
  | [] => 0
  | node :: nodes => terminalCount node + terminalCounts nodes

end

end BracketNode

namespace Bracket

def isSpecial (c : Char) : Bool :=
  c == '(' || c == ')' || c == '&' || c == '|'

def connective? : Char → Option Connective
  | '&' => some .and
  | '|' => some .or
  | _ => none

/-- What stands before and behind the parenthesis that closes a group; the number counts the groups
that have been opened inside of it. -/
def closeGroup? : Nat → List Char → Option (List Char × List Char)
  | _, [] => none
  | depth, c :: cs =>
    if c = '(' then (closeGroup? (depth + 1) cs).map fun (body, rest) => (c :: body, rest)
    else if c = ')' then
      match depth with
      | 0 => some ([], cs)
      | depth + 1 => (closeGroup? depth cs).map fun (body, rest) => (c :: body, rest)
    else (closeGroup? depth cs).map fun (body, rest) => (c :: body, rest)

theorem closeGroup?_eq_some {depth : Nat} {cs body rest : List Char}
    (h : closeGroup? depth cs = some (body, rest)) : cs = body ++ ')' :: rest := by
  induction cs generalizing depth body with
  | nil => simp [closeGroup?] at h
  | cons c cs ih =>
    simp only [closeGroup?] at h
    split at h
    . obtain ⟨⟨b, r⟩, hb, he⟩ := Option.map_eq_some_iff.1 h
      cases he
      simp [ih hb]
    . split at h
      . cases depth with
        | zero => simp_all
        | succ depth =>
          obtain ⟨⟨b, r⟩, hb, he⟩ := Option.map_eq_some_iff.1 h
          cases he
          simp [ih hb]
      . obtain ⟨⟨b, r⟩, hb, he⟩ := Option.map_eq_some_iff.1 h
        cases he
        simp [ih hb]

def link (text : List Char) : List Char → Except CompileError (Option Connective × List Char)
  | [] => .ok (none, [])
  | c :: rest =>
    match connective? c with
    | some connective =>
      if rest.isEmpty then .error (.bracket (.danglingConnective (String.ofList text)))
      else .ok (some connective, rest)
    | none =>
      if c = ')' then .error (.bracket (.unbalancedClose (String.ofList text)))
      else
        .error (.bracket
          (.missingConnective (text.length - (rest.length + 1)) (String.ofList text)))

theorem length_link_le {text cs rest : List Char} {trailing : Option Connective}
    (h : link text cs = .ok (trailing, rest)) : rest.length ≤ cs.length := by
  cases cs with
  | nil =>
    simp only [link] at h
    cases h
    simp
  | cons c cs =>
    simp only [link] at h
    split at h
    . split at h
      . cases h
      . cases h
        simp
    . split at h <;> cases h

def isMixed (nodes : List BracketNode) : Bool :=
  nodes.all BracketNode.isField &&
    match nodes.filterMap BracketNode.trailing with
    | [] => false
    | first :: others => others.any (· != first)

mutual

def level (maxDepth depth : Nat) (text : List Char) : Except CompileError (List BracketNode) :=
  if maxDepth < depth then .error (.bracket (.tooDeep maxDepth))
  else do
    let nodes ← nodes maxDepth depth text text
    if nodes.isEmpty then .error (.bracket .emptyExpression)
    else if isMixed nodes then .error (.bracket (.mixedConnectives (String.ofList text)))
    else .ok nodes
termination_by (text.length, 1)

def nodes (maxDepth depth : Nat) (text : List Char) :
    List Char → Except CompileError (List BracketNode)
  | [] => .ok []
  | c :: cs =>
    if c = '(' then
      match _hg : closeGroup? 0 cs with
      | none => .error (.bracket (.unbalancedOpen (String.ofList text)))
      | some (body, after) =>
        if body.isEmpty then .error (.bracket (.emptyGroup (String.ofList text)))
        else do
          let children ← level maxDepth (depth + 1) body
          match _hl : link text after with
          | .error error => .error error
          | .ok (trailing, rest) => do
            let others ← nodes maxDepth depth text rest
            .ok (.group children trailing :: others)
    else if c = ')' then .error (.bracket (.unbalancedClose (String.ofList text)))
    else if c = '&' ∨ c = '|' then .error (.bracket (.noLeftOperand (String.ofList text)))
    else do
      -- a field name goes up to the next special character
      let name := String.ofList (c :: cs.takeWhile fun c => !isSpecial c)
      checkField name
      match _hl : link text (cs.dropWhile fun c => !isSpecial c) with
      | .error error => .error error
      | .ok (trailing, rest) => do
        let others ← nodes maxDepth depth text rest
        .ok (.field name trailing :: others)
termination_by rest => (rest.length, 0)
decreasing_by
  . have := congrArg List.length (closeGroup?_eq_some _hg)
    simp only [List.length_append, List.length_cons] at this
    simp only [List.length_cons, Prod.lex_def]
    omega
  . have := congrArg List.length (closeGroup?_eq_some _hg)
    simp only [List.length_append, List.length_cons] at this
    have := length_link_le _hl
    simp only [List.length_cons, Prod.lex_def]
    omega
  . have := length_link_le _hl
    have := (List.dropWhile_sublist (fun c => !isSpecial c) (l := cs)).length_le
    simp only [List.length_cons, Prod.lex_def]
    omega

end

def parse (maxDepth : Nat) (key : String) : Except CompileError (List BracketNode) := do
  (Identifier.checkGroupedKey key).mapError .identifier
  level maxDepth 1 key.toList

end Bracket

end SqlFilter
