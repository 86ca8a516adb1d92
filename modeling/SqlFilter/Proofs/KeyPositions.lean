import SqlFilter.Proofs.KeyGrammar

/-!
This module contains a reader of bracket keys that works with positions in the text, and has no
result as soon as one of them lies outside of it. It agrees with the reader that takes the text
apart, and so it never gets there: `levelAt_eq`.
-/

namespace SqlFilter

/-- Results and errors; nothing if a position lies outside of a text, or a count below zero. -/
abbrev Positional := ExceptT CompileError Option

namespace Positional

def within {α : Type} (x : Option α) : Positional α :=
  ExceptT.lift x

def exactly {α : Type} (x : Except CompileError α) : Positional α :=
  ExceptT.mk (some x)

def fault {α : Type} (fault : BracketFault) : Positional α :=
  throw (.bracket fault)

variable {α β : Type}

theorem exactly_bind (x : Except CompileError α) {f : α → Positional β}
    {g : α → Except CompileError β}
    (h : ∀ a, x = .ok a → f a = exactly (g a)) : (exactly x >>= f) = exactly (x >>= g) := by
  cases x with
  | error e => rfl
  | ok a => exact h a rfl

theorem within_bind {x : Option α} {a : α} (hx : x = some a) (f : α → Positional β) :
    (within x >>= f) = f a := by
  subst hx
  rfl

theorem within_attach_bind {x : Option α} {a : α} (hx : x = some a)
    (f : { a // x = some a } → Positional β) : (within x.attach >>= f) = f ⟨a, hx⟩ := by
  subst hx
  rfl

theorem within_attach {x : Option α} {f : { a // x = some a } → Positional β}
    {g : α → Positional β} (h : ∀ a, f a = g a.1) : (within x.attach >>= f) = (within x >>= g) := by
  cases x with
  | none => rfl
  | some a => exact h ⟨a, rfl⟩

end Positional

namespace Bracket

open BracketNode Text Positional

def slice? (text : List Char) (start stop : Nat) : Option (List Char) :=
  if start ≤ stop ∧ stop ≤ text.length then some ((text.drop start).take (stop - start)) else none

theorem length_slice? {text cs : List Char} {start stop : Nat}
    (h : slice? text start stop = some cs) :
    start ≤ stop ∧ stop ≤ text.length ∧ cs.length = stop - start := by
  unfold slice? at h
  split at h
  . next hs =>
    cases h
    simp only [List.length_take, List.length_drop]
    omega
  . cases h

/-- The position of the parenthesis that closes the outermost open group, if there is one; the
first number counts the groups that are open, and the second one is the position that is read. -/
def closeFrom : Nat → Nat → List Char → Option (Option Nat)
  | _, _, [] => some none
  | depth, i, c :: cs =>
    if c = '(' then closeFrom (depth + 1) (i + 1) cs
    else if c = ')' then
      match depth with
      | 0 => none
      | 1 => some (some i)
      | depth + 2 => closeFrom (depth + 1) (i + 1) cs
    else closeFrom depth (i + 1) cs

def linkAt (text : List Char) (i : Nat) : Except CompileError (Option Connective × Nat) :=
  match text[i]? with
  | none => .ok (none, i)
  | some c =>
    match connective? c with
    | some connective =>
      if i + 1 = text.length then .error (.bracket (.danglingConnective (String.ofList text)))
      else .ok (some connective, i + 1)
    | none =>
      if c = ')' then .error (.bracket (.unbalancedClose (String.ofList text)))
      else .error (.bracket (.missingConnective i (String.ofList text)))

theorem le_of_linkAt {text : List Char} {i next : Nat} {trailing : Option Connective}
    (h : linkAt text i = .ok (trailing, next)) : i ≤ next := by
  unfold linkAt at h
  split at h
  . cases h
    omega
  . split at h
    . split at h
      . cases h
      . cases h
        omega
    . split at h <;> cases h

def nameEnd (i : Nat) (behind : List Char) : Nat :=
  i + (behind.takeWhile fun c => !isSpecial c).length

theorem lt_nameEnd {text behind : List Char} {i : Nat} {c : Char} (hc : text[i]? = some c)
    (hs : isSpecial c = false) (hb : slice? text i text.length = some behind) :
    i < nameEnd i behind := by
  obtain ⟨hi, rfl⟩ := List.getElem?_eq_some_iff.1 hc
  unfold slice? at hb
  rw [if_pos (by omega)] at hb
  rw [List.take_of_length_le (by simp), Option.some.injEq] at hb
  rw [nameEnd, ← hb]
  rw [List.drop_eq_getElem_cons hi]
  simp only [List.takeWhile_cons, hs, Bool.not_false, if_true, List.length_cons]
  omega

mutual

def levelAt (maxDepth depth : Nat) (text : List Char) : Positional (List BracketNode) :=
  if maxDepth < depth then fault (.tooDeep maxDepth)
  else do
    let found ← nodesAt maxDepth depth text 0
    if found.isEmpty then fault .emptyExpression
    else if isMixed found then fault (.mixedConnectives (String.ofList text))
    else return found
termination_by (text.length, 1, 0)

def nodesAt (maxDepth depth : Nat) (text : List Char) (i : Nat) : Positional (List BracketNode) :=
  if i < text.length then do
    let ⟨c, _hc⟩ ← within text[i]?.attach
    if c = '(' then
      match ← within (closeFrom 0 i (text.drop i)) with
      | none => fault (.unbalancedOpen (String.ofList text))
      | some close =>
        let ⟨body, _hb⟩ ← within (slice? text (i + 1) close).attach
        if body.isEmpty then fault (.emptyGroup (String.ofList text))
        else
          let children ← levelAt maxDepth (depth + 1) body
          match _hl : linkAt text (close + 1) with
          | .error error => throw error
          | .ok (trailing, next) =>
            let others ← nodesAt maxDepth depth text next
            return .group children trailing :: others
    else if c = ')' then fault (.unbalancedClose (String.ofList text))
    else if c = '&' ∨ c = '|' then fault (.noLeftOperand (String.ofList text))
    else
      let ⟨behind, _hb⟩ ← within (slice? text i text.length).attach
      let name ← within (slice? text i (nameEnd i behind))
      exactly (checkField (String.ofList name))
      match _hl : linkAt text (nameEnd i behind) with
      | .error error => throw error
      | .ok (trailing, next) =>
        let others ← nodesAt maxDepth depth text next
        return .field (String.ofList name) trailing :: others
  else return []
termination_by (text.length, 0, text.length - i)
decreasing_by
  all_goals simp only [Prod.lex_def, true_and]
  . have := length_slice? _hb
    omega
  . have := length_slice? _hb
    have := le_of_linkAt _hl
    omega
  . have := lt_nameEnd _hc (by simp_all [isSpecial]) _hb
    have := le_of_linkAt _hl
    omega

end

section Equations

variable (maxDepth depth : Nat) {text : List Char} {i : Nat}

theorem nodesAt_end (hi : text.length ≤ i) : nodesAt maxDepth depth text i = exactly (.ok []) := by
  rw [nodesAt]
  rw [if_neg (by omega)]
  rfl

theorem nodesAt_group (hi : text[i]? = some '(') : nodesAt maxDepth depth text i = (do
    match ← within (closeFrom 0 i (text.drop i)) with
    | none => fault (.unbalancedOpen (String.ofList text))
    | some close =>
      let body ← within (slice? text (i + 1) close)
      if body.isEmpty then fault (.emptyGroup (String.ofList text))
      else
        let children ← levelAt maxDepth (depth + 1) body
        let (trailing, next) ← exactly (linkAt text (close + 1))
        let others ← nodesAt maxDepth depth text next
        return .group children trailing :: others) := by
  obtain ⟨hlt, _⟩ := List.getElem?_eq_some_iff.1 hi
  rw [nodesAt]
  rw [if_pos hlt, within_attach_bind hi]
  dsimp only
  rw [if_pos rfl]
  congr 1
  funext close
  cases close with
  | none => rfl
  | some close =>
    apply within_attach
    intro body
    split
    . rfl
    . congr 1
      funext children
      split
      . next hl => rw [hl]; rfl
      . next hl => rw [hl]; rfl

theorem nodesAt_close (hi : text[i]? = some ')') :
    nodesAt maxDepth depth text i = fault (.unbalancedClose (String.ofList text)) := by
  obtain ⟨hlt, _⟩ := List.getElem?_eq_some_iff.1 hi
  rw [nodesAt]
  rw [if_pos hlt, within_attach_bind hi]
  rfl

theorem nodesAt_link {c : Char} (hi : text[i]? = some c) (hc : c = '&' ∨ c = '|') :
    nodesAt maxDepth depth text i = fault (.noLeftOperand (String.ofList text)) := by
  obtain ⟨hlt, _⟩ := List.getElem?_eq_some_iff.1 hi
  rw [nodesAt]
  rw [if_pos hlt, within_attach_bind hi]
  rcases hc with rfl | rfl <;> rfl

theorem nodesAt_field {c : Char} (hi : text[i]? = some c) (hs : isSpecial c = false) :
    nodesAt maxDepth depth text i = (do
      let behind ← within (slice? text i text.length)
      let name ← within (slice? text i (nameEnd i behind))
      exactly (checkField (String.ofList name))
      let (trailing, next) ← exactly (linkAt text (nameEnd i behind))
      let others ← nodesAt maxDepth depth text next
      return .field (String.ofList name) trailing :: others) := by
  obtain ⟨hlt, _⟩ := List.getElem?_eq_some_iff.1 hi
  simp only [isSpecial, Bool.or_eq_false_iff, beq_eq_false_iff_ne] at hs
  rw [nodesAt]
  rw [if_pos hlt, within_attach_bind hi]
  simp only [hs, if_false, or_self]
  apply within_attach
  intro behind
  congr 1
  funext name
  congr 1
  funext _
  split
  . next hl => rw [hl]; rfl
  . next hl => rw [hl]; rfl

end Equations

theorem closeFrom_eq (depth i : Nat) (cs : List Char) :
    closeFrom (depth + 1) i cs =
      some ((closeGroup? depth cs).map fun (body, _) => i + body.length) := by
  induction cs generalizing depth i with
  | nil => rfl
  | cons c cs ih =>
    simp only [closeFrom, closeGroup?]
    split
    . rw [ih, Option.map_map]
      congr 2
      funext r
      simp only [Function.comp_apply, List.length_cons]
      omega
    . split
      . cases depth with
        | zero => rfl
        | succ depth =>
          dsimp only
          rw [ih, Option.map_map]
          congr 2
          funext r
          simp only [Function.comp_apply, List.length_cons]
          omega
      . rw [ih, Option.map_map]
        congr 2
        funext r
        simp only [Function.comp_apply, List.length_cons]
        omega

theorem slice?_eq {text front cs rest : List Char} {start stop : Nat}
    (ht : text = front ++ (cs ++ rest)) (hs : start = front.length)
    (he : stop = front.length + cs.length) : slice? text start stop = some cs := by
  subst ht hs he
  simp [slice?]

theorem getElem?_eq {text front rest : List Char} {c : Char} (ht : text = front ++ c :: rest) :
    text[front.length]? = some c := by
  simp [ht]

section Agreement

variable {text front rest : List Char}

theorem linkAt_eq (ht : text = front ++ rest) :
    linkAt text front.length =
      (link text rest).map fun (trailing, _) =>
        (trailing, front.length + (linkText trailing).length) := by
  unfold linkAt
  cases rest with
  | nil =>
    simp [ht, link, Except.map, linkText]
  | cons c cs =>
    rw [getElem?_eq ht]
    have hlength := congrArg List.length ht
    simp only [List.length_append, List.length_cons] at hlength
    simp only [link]
    cases hc : connective? c with
    | none =>
      dsimp only
      split
      . rfl
      . rw [show text.length - (cs.length + 1) = front.length by omega]
        rfl
    | some connective =>
      have hend : (front.length + 1 = text.length) = (cs.isEmpty = true) := by
        rw [List.isEmpty_iff_length_eq_zero, eq_iff_iff]
        omega
      simp only [hend]
      split
      . rfl
      . simp [Except.map, (linkText_of_connective? hc).1]

theorem linked_eq {maxDepth depth : Nat} (ht : text = front ++ rest)
    (node : Option Connective → BracketNode)
    (ih : ∀ trailing others, rest = linkText trailing ++ others →
      nodesAt maxDepth depth text (front ++ linkText trailing).length =
        exactly (nodes maxDepth depth text others)) :
    (do
      let (trailing, next) ← exactly (linkAt text front.length)
      let others ← nodesAt maxDepth depth text next
      return node trailing :: others) = exactly (do
        let (trailing, others) ← link text rest
        let others ← nodes maxDepth depth text others
        .ok (node trailing :: others)) := by
  rw [linkAt_eq ht]
  cases hl : link text rest with
  | error e => rfl
  | ok r =>
    obtain ⟨trailing, others⟩ := r
    have hnodes := ih trailing others (link_eq_ok_iff.1 hl).1
    rw [List.length_append] at hnodes
    change (nodesAt maxDepth depth text (front.length + (linkText trailing).length) >>= _) = _
    rw [hnodes]
    exact exactly_bind _ fun _ _ => rfl

mutual

theorem levelAt_eq (maxDepth depth : Nat) (text : List Char) :
    levelAt maxDepth depth text = exactly (level maxDepth depth text) := by
  have hnodes := nodesAt_eq maxDepth depth (List.nil_append text).symm
  rw [List.length_nil] at hnodes
  rw [levelAt, level_eq, hnodes]
  split
  . rfl
  . apply exactly_bind
    intro found _
    split
    . rfl
    . split <;> rfl
termination_by (text.length, 1, 0)

theorem nodesAt_eq (maxDepth depth : Nat) {text front rest : List Char}
    (ht : text = front ++ rest) :
    nodesAt maxDepth depth text front.length = exactly (nodes maxDepth depth text rest) := by
  match rest with
  | [] =>
    rw [nodesAt_end _ _ (by simp [ht]), nodes_nil]
  | c :: cs =>
    have hc := getElem?_eq ht
    cases hs : isSpecial c with
    | true =>
      by_cases ho : c = '('
      . subst ho
        rw [nodesAt_group _ _ hc, nodes_group]
        rw [show text.drop front.length = '(' :: cs by simp [ht]]
        rw [closeFrom, if_pos rfl, closeFrom_eq]
        rw [within_bind rfl]
        cases hg : closeGroup? 0 cs with
        | none => rfl
        | some r =>
          obtain ⟨body, after⟩ := r
          have hcs := closeGroup?_eq_some hg
          have hbody : text = (front ++ ['(']) ++ (body ++ ')' :: after) := by simp [ht, hcs]
          have hafter : text = (front ++ '(' :: body ++ [')']) ++ after := by simp [ht, hcs]
          have hclose : front.length + 1 + body.length + 1 =
              (front ++ '(' :: body ++ [')']).length := by
            simp only [List.length_append, List.length_cons, List.length_nil]
            omega
          have hlt : body.length < text.length := by
            rw [hbody]
            simp only [List.length_append, List.length_cons]
            omega
          dsimp only [Option.map_some]
          rw [within_bind (slice?_eq hbody (by simp) (by simp))]
          split
          . rfl
          . rw [levelAt_eq maxDepth (depth + 1) body, hclose]
            apply exactly_bind
            intro children _
            apply linked_eq hafter fun trailing => .group children trailing
            intro trailing others hrest
            have hlt : others.length < ('(' :: cs).length := by
              simp only [hcs, hrest, List.length_append, List.length_cons]
              omega
            rw [hrest, ← List.append_assoc] at hafter
            exact nodesAt_eq maxDepth depth hafter
      . simp only [isSpecial, Bool.or_eq_true, beq_iff_eq, ho, false_or, or_assoc] at hs
        rcases hs with rfl | hs
        . rw [nodesAt_close _ _ hc, nodes_close]
          rfl
        . rw [nodesAt_link _ _ hc hs, nodes_link _ _ _ _ hs]
          rfl
    | false =>
      have hcs : c :: cs = (c :: cs.takeWhile fun c => !isSpecial c) ++
          cs.dropWhile fun c => !isSpecial c := by simp
      have hafter := ht.trans (congrArg _ hcs)
      have hend : nameEnd front.length (c :: cs) =
          (front ++ (c :: cs.takeWhile fun c => !isSpecial c)).length := by
        simp [nameEnd, hs]
      have hbehind : slice? text front.length text.length = some (c :: cs) :=
        slice?_eq (by rw [List.append_nil, ht]) rfl (by simp [ht])
      rw [nodesAt_field _ _ hc hs, nodes_field _ _ _ _ hs]
      rw [within_bind hbehind]
      rw [within_bind (slice?_eq hafter rfl (by rw [hend, List.length_append])), hend]
      apply exactly_bind
      intro _ _
      rw [← List.append_assoc] at hafter
      apply linked_eq hafter fun trailing => .field _ trailing
      intro trailing others hrest
      have hlt : others.length < (c :: cs).length := by
        rw [hcs, hrest]
        simp only [List.length_append, List.length_cons]
        omega
      rw [hrest, ← List.append_assoc] at hafter
      exact nodesAt_eq maxDepth depth hafter
termination_by (text.length, 0, rest.length)

end

end Agreement

end Bracket

end SqlFilter
