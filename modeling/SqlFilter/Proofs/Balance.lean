import SqlFilter.Bracket
import Mathlib.Data.List.Infix

/-!
This module contains texts with balanced parentheses. `Text.depthAfter?` counts the parentheses that
are open behind a text; a text that leaves every count as it is, is balanced, and the parenthesis
behind it is the one that closes a group around it.
-/

namespace SqlFilter

namespace Text

/-- How many parentheses are open behind a text, unless it closes one that is not open. -/
def depthAfter? : Nat → List Char → Option Nat
  | depth, [] => some depth
  | depth, c :: cs =>
    if c = '(' then depthAfter? (depth + 1) cs
    else if c = ')' then
      match depth with
      | 0 => none
      | depth + 1 => depthAfter? depth cs
    else depthAfter? depth cs

def isParenthesis (c : Char) : Bool :=
  c == '(' || c == ')'

structure Balanced (cs : List Char) : Prop where
  front : ∀ front, front <+: cs → front.count ')' ≤ front.count '('
  total : cs.count ')' = cs.count '('

def Closed (cs : List Char) : Prop :=
  ∀ depth, depthAfter? depth cs = some depth

theorem depthAfter?_append (depth : Nat) (cs ds : List Char) :
    depthAfter? depth (cs ++ ds) =
      (depthAfter? depth cs).bind fun depth => depthAfter? depth ds := by
  induction cs generalizing depth with
  | nil => rfl
  | cons c cs ih =>
    simp only [List.cons_append, depthAfter?]
    split
    . apply ih
    . split
      . cases depth with
        | zero => rfl
        | succ depth => apply ih
      . apply ih

theorem count_of_depthAfter? {depth depth' : Nat} {cs : List Char}
    (h : depthAfter? depth cs = some depth') : depth + cs.count '(' = depth' + cs.count ')' := by
  induction cs generalizing depth with
  | nil =>
    cases h
    rfl
  | cons c cs ih =>
    simp only [depthAfter?] at h
    split at h
    . next hc =>
      have := ih h
      subst hc
      rw [List.count_cons_self]
      rw [List.count_cons_of_ne (by decide)]
      omega
    . next ho =>
      split at h
      . next hc =>
        cases depth with
        | zero => cases h
        | succ depth =>
          have := ih h
          subst hc
          rw [List.count_cons_self]
          rw [List.count_cons_of_ne (by decide)]
          omega
      . next hc =>
        rw [List.count_cons_of_ne ho]
        rw [List.count_cons_of_ne hc]
        exact ih h

namespace Closed

variable {cs ds : List Char}

theorem nil : Closed [] := fun _ => rfl

theorem append (hc : Closed cs) (hd : Closed ds) : Closed (cs ++ ds) := by
  intro depth
  rw [depthAfter?_append]
  rw [hc depth]
  apply hd

theorem char {c : Char} (hc : isParenthesis c = false) (h : Closed cs) : Closed (c :: cs) := by
  intro depth
  simp only [isParenthesis, Bool.or_eq_false_iff, beq_eq_false_iff_ne] at hc
  simp only [depthAfter?, hc, if_false]
  apply h

theorem of_forall (h : ∀ c ∈ cs, isParenthesis c = false) : Closed cs := by
  induction cs with
  | nil => exact nil
  | cons c cs ih =>
    simp only [List.mem_cons, forall_eq_or_imp] at h
    exact char h.1 (ih h.2)

theorem of_all (h : (cs.all fun c => !isParenthesis c) = true) : Closed cs :=
  .of_forall (by simpa using h)

theorem parenthesized (h : Closed cs) : Closed ('(' :: cs ++ [')']) := by
  intro depth
  rw [List.cons_append]
  simp only [depthAfter?, if_true]
  rw [depthAfter?_append]
  rw [h (depth + 1)]
  rfl

theorem balanced (h : Closed cs) : Balanced cs := by
  constructor
  . rintro front ⟨back, rfl⟩
    have := h 0
    rw [depthAfter?_append] at this
    -- the count behind the front is what it opens and does not close
    cases hf : depthAfter? 0 front with
    | none =>
      rw [hf] at this
      cases this
    | some depth =>
      have := count_of_depthAfter? hf
      omega
  . have := count_of_depthAfter? (h 0)
    omega

end Closed

end Text

namespace Bracket

open Text

theorem closeGroup?_of_depthAfter? {depth : Nat} {body : List Char}
    (h : depthAfter? depth body = some 0) (rest : List Char) :
    closeGroup? depth (body ++ ')' :: rest) = some (body, rest) := by
  induction body generalizing depth with
  | nil =>
    cases h
    rfl
  | cons c cs ih =>
    simp only [depthAfter?] at h
    simp only [List.cons_append, closeGroup?]
    split at h
    . next hc => simp [hc, ih h]
    . next ho =>
      split at h
      . next hc =>
        cases depth with
        | zero => cases h
        | succ depth => simp [hc, ih h]
      . next hc => simp [ho, hc, ih h]

theorem closeGroup?_of_closed {body : List Char} (h : Closed body) (rest : List Char) :
    closeGroup? 0 (body ++ ')' :: rest) = some (body, rest) :=
  closeGroup?_of_depthAfter? (h 0) rest

end Bracket

end SqlFilter
