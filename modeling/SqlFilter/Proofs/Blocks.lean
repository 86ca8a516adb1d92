import SqlFilter.Proofs.Balance

/-!
This module contains the blocks of a text: its pieces between the blanks that stand outside of all
parentheses. A text between parentheses is one block, whatever it holds.
-/

namespace SqlFilter

namespace Text

def blocksFrom : Nat → List Char → List (List Char)
  | _, [] => [[]]
  | depth, c :: cs =>
    if c = '(' then (blocksFrom (depth + 1) cs).modifyHead (c :: ·)
    else if c = ')' then (blocksFrom (depth - 1) cs).modifyHead (c :: ·)
    else if c = ' ' ∧ depth = 0 then [] :: blocksFrom 0 cs
    else (blocksFrom depth cs).modifyHead (c :: ·)

theorem exists_cons_blocksFrom (depth : Nat) (cs : List Char) :
    ∃ first others, blocksFrom depth cs = first :: others := by
  have push {c : Char} {blocks : List (List Char)} (h : ∃ first others, blocks = first :: others) :
      ∃ first others, blocks.modifyHead (c :: ·) = first :: others := by
    obtain ⟨first, others, rfl⟩ := h
    exact ⟨_, _, rfl⟩
  induction cs generalizing depth with
  | nil => exact ⟨[], [], rfl⟩
  | cons c cs ih =>
    simp only [blocksFrom]
    split
    . exact push (ih _)
    . split
      . exact push (ih _)
      . split
        . exact ⟨_, _, rfl⟩
        . exact push (ih _)

theorem modifyHead_blocksFrom_append (f : List Char → List Char) (depth : Nat) (cs : List Char)
    (blocks : List (List Char)) : (blocksFrom depth cs ++ blocks).modifyHead f =
      (blocksFrom depth cs).modifyHead f ++ blocks := by
  obtain ⟨first, others, he⟩ := exists_cons_blocksFrom depth cs
  rw [he]
  rfl

theorem blocksFrom_blank {depth : Nat} {cs : List Char} (h : depthAfter? depth cs = some 0)
    (rest : List Char) :
    blocksFrom depth (cs ++ ' ' :: rest) = blocksFrom depth cs ++ blocksFrom 0 rest := by
  induction cs generalizing depth with
  | nil =>
    cases h
    rfl
  | cons c cs ih =>
    simp only [depthAfter?] at h
    simp only [List.cons_append, blocksFrom]
    split at h
    . next hc => rw [if_pos hc, if_pos hc, ih h, modifyHead_blocksFrom_append]
    . next ho =>
      rw [if_neg ho, if_neg ho]
      split at h
      . next hc =>
        rw [if_pos hc, if_pos hc]
        cases depth with
        | zero => cases h
        | succ depth => rw [Nat.add_sub_cancel, ih h, modifyHead_blocksFrom_append]
      . next hc =>
        rw [if_neg hc, if_neg hc]
        split
        . next hb =>
          rw [hb.2] at h
          rw [ih h]
          rfl
        . rw [ih h, modifyHead_blocksFrom_append]

-- inside of parentheses no blank ends a block
theorem blocksFrom_inside {depth depth' : Nat} {cs : List Char}
    (h : depthAfter? depth cs = some depth') (rest : List Char) :
    blocksFrom (depth + 1) (cs ++ rest) =
      (blocksFrom (depth' + 1) rest).modifyHead (cs ++ ·) := by
  induction cs generalizing depth with
  | nil =>
    cases h
    obtain ⟨first, others, he⟩ := exists_cons_blocksFrom (depth' + 1) rest
    rw [List.nil_append, he]
    rfl
  | cons c cs ih =>
    have push (depth : Nat) (h : depthAfter? depth cs = some depth') :
        (blocksFrom (depth + 1) (cs ++ rest)).modifyHead (c :: ·) =
          (blocksFrom (depth' + 1) rest).modifyHead (c :: cs ++ ·) := by
      obtain ⟨first, others, he⟩ := exists_cons_blocksFrom (depth' + 1) rest
      rw [ih h, he]
      rfl
    simp only [depthAfter?] at h
    simp only [List.cons_append, blocksFrom]
    split at h
    . next hc =>
      rw [if_pos hc]
      exact push _ h
    . next ho =>
      rw [if_neg ho]
      split at h
      . next hc =>
        rw [if_pos hc]
        cases depth with
        | zero => cases h
        | succ depth => exact push _ h
      . next hc =>
        rw [if_neg hc, if_neg (by omega)]
        exact push _ h

theorem intercalate_blocksFrom (depth : Nat) (cs : List Char) :
    [' '].intercalate (blocksFrom depth cs) = cs := by
  have push (c : Char) {blocks : List (List Char)} (h : ∃ first others, blocks = first :: others) :
      [' '].intercalate (blocks.modifyHead (c :: ·)) = c :: [' '].intercalate blocks := by
    obtain ⟨first, others, rfl⟩ := h
    cases others with
    | nil => simp
    | cons second others => simp
  induction cs generalizing depth with
  | nil => rfl
  | cons c cs ih =>
    have hpush (depth : Nat) := push c (exists_cons_blocksFrom depth cs)
    simp only [blocksFrom]
    split
    . rw [hpush, ih]
    . split
      . rw [hpush, ih]
      . split
        . next hb =>
          obtain ⟨first, others, he⟩ := exists_cons_blocksFrom 0 cs
          have := ih 0
          rw [he] at this ⊢
          simp [this, hb.1]
        . rw [hpush, ih]

def blocks (s : String) : List String :=
  (blocksFrom 0 s.toList).map String.ofList

theorem blocks_inj {s t : String} (h : blocks s = blocks t) : s = t := by
  have hchars : blocksFrom 0 s.toList = blocksFrom 0 t.toList := by
    apply List.map_injective_iff.2 _ h
    intro cs ds he
    exact String.ofList_injective he
  rw [← String.toList_inj, ← intercalate_blocksFrom 0 s.toList, hchars, intercalate_blocksFrom]

theorem blocks_blank {s : String} (h : Closed s.toList) (t : String) :
    blocks (s ++ " " ++ t) = blocks s ++ blocks t := by
  unfold blocks
  rw [← List.map_append, ← blocksFrom_blank (h 0)]
  simp

theorem blocks_parenthesized {s : String} (h : Closed s.toList) :
    blocks ("(" ++ s ++ ")") = ["(" ++ s ++ ")"] := by
  have hclose : blocksFrom 1 [')'] = [[')']] := rfl
  have hinside := blocksFrom_inside (h 0) [')']
  simp only [Nat.zero_add, hclose] at hinside
  have htext : ("(" ++ s ++ ")").toList = '(' :: (s.toList ++ [')']) := by simp
  unfold blocks
  rw [htext, blocksFrom, if_pos rfl, hinside, List.modifyHead_cons, List.modifyHead_cons]
  rw [List.map_cons, List.map_nil, ← htext, String.ofList_toList]

def IsWord (s : String) : Prop :=
  ∀ c ∈ s.toList, c ≠ ' ' ∧ isParenthesis c = false

namespace IsWord

variable {s : String}

theorem of_all (h : (s.toList.all fun c => c != ' ' && !isParenthesis c) = true) : IsWord s := by
  simpa [IsWord] using h

theorem closed (h : IsWord s) : Closed s.toList :=
  .of_forall fun c hc => (h c hc).2

theorem blocks (h : IsWord s) : blocks s = [s] := by
  have chars {cs : List Char} (h : ∀ c ∈ cs, c ≠ ' ' ∧ isParenthesis c = false) :
      blocksFrom 0 cs = [cs] := by
    induction cs with
    | nil => rfl
    | cons c cs ih =>
      simp only [List.mem_cons, forall_eq_or_imp] at h
      obtain ⟨⟨hblank, hparen⟩, h⟩ := h
      simp only [isParenthesis, Bool.or_eq_false_iff, beq_eq_false_iff_ne] at hparen
      simp [blocksFrom, hparen, hblank, ih h]
  unfold Text.blocks
  rw [chars h, List.map_cons, List.map_nil, String.ofList_toList]

end IsWord

end Text

end SqlFilter
