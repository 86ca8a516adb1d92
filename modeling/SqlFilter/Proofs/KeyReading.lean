import SqlFilter.Proofs.KeyPositions
import SqlFilter.Proofs.KeyTokens

/-!
This module contains the proof that bracket keys are read exactly: the keys that are accepted are
the written forms of well-formed trees, and each of them is read as the tree that it spells.
-/

namespace SqlFilter

namespace Identifier

theorem isKeyCharacter_of_check {name : String} (h : check name = .ok ()) :
    ∀ c ∈ name.toList, (Text.isWordChar c || ['.', '&', '|', '-'].contains c) = true := by
  obtain ⟨_, hvalid, _⟩ := bind_eq_ok.1 h
  intro c hc
  have := checkCharacters_eq_ok hvalid c hc
  simp only [Bool.or_eq_true, beq_iff_eq] at this
  rcases this with hw | rfl
  . rw [hw, Bool.true_or]
  . rfl

theorem utf8Size_of_isWordChar {c : Char} (h : Text.isWordChar c = true) : c.utf8Size = 1 := by
  have hcode := Text.toNat_of_isWordChar h
  have hlast : (127 : UInt32).toNat = 127 := rfl
  have hn : c.toNat = c.val.toNat := rfl
  rw [Char.utf8Size_eq_one_iff, UInt32.le_iff_toNat_le]
  omega

theorem utf8Size_of_checkGroupedKey {key : String} (h : checkGroupedKey key = .ok ()) :
    ∀ c ∈ key.toList, c.utf8Size = 1 := by
  intro c hc
  have := checkCharacters_eq_ok h c hc
  simp only [Bool.or_eq_true, List.contains_iff_mem, List.mem_cons, List.not_mem_nil,
    or_false] at this
  rcases this with hw | rfl | rfl | rfl | rfl | rfl | rfl
  . exact utf8Size_of_isWordChar hw
  all_goals decide

end Identifier

namespace Bracket

open BracketNode Positional

def parseAt (maxDepth : Nat) (key : String) : Positional (List BracketNode) := do
  exactly ((Identifier.checkGroupedKey key).mapError .identifier)
  levelAt maxDepth 1 key.toList

theorem checkGroupedKey_texts {found : List BracketNode} {key : String} (h : WellFormed found)
    (ht : texts found = key.toList) (hlength : key.utf8ByteSize ≤ Identifier.maxLength) :
    Identifier.checkGroupedKey key = .ok () := by
  apply Identifier.checkCharacters_eq_ok_iff.2
  refine ⟨?_, hlength, ?_⟩
  . rintro rfl
    exact h.ne_nil ((texts_eq_nil h.parts).1 ht)
  . rw [← ht]
    apply h.all_texts
    . intro c hc
      simp only [Bool.or_eq_true, beq_iff_eq] at hc
      rcases hc with hw | rfl
      . simp [hw]
      . rfl
    . intro c hc
      simp only [isSpecial, Bool.or_eq_true, beq_iff_eq] at hc
      rcases hc with ((rfl | rfl) | rfl) | rfl <;> rfl

theorem parse_eq_ok_iff {maxDepth : Nat} {key : String} {found : List BracketNode} :
    parse maxDepth key = .ok found ↔
      key.utf8ByteSize ≤ Identifier.maxLength ∧ WellFormed found ∧ texts found = key.toList ∧
        nestings found + 1 ≤ maxDepth := by
  unfold parse
  rw [bind_eq_ok]
  constructor
  . rintro ⟨_, hc, hl⟩
    have hc := mapError_eq_ok hc
    exact ⟨(Identifier.checkCharacters_eq_ok_iff.1 hc).2.1, level_eq_ok_iff.1 hl⟩
  . rintro ⟨hlength, hl⟩
    have hc := checkGroupedKey_texts hl.1 hl.2.1 hlength
    refine ⟨(), ?_, level_eq_ok_iff.2 hl⟩
    rw [hc]
    rfl

theorem parseAt_eq (maxDepth : Nat) (key : String) :
    parseAt maxDepth key = exactly (parse maxDepth key) := by
  apply exactly_bind
  intro _ _
  apply levelAt_eq

structure ReadsExactly (maxDepth : Nat) (key : String) : Prop where
  accepted : ∀ found, parse maxDepth key = .ok found ↔
    key.utf8ByteSize ≤ Identifier.maxLength ∧ WellFormed found ∧ texts found = key.toList ∧
      nestings found + 1 ≤ maxDepth
  unique : ∀ found found', WellFormed found → texts found = key.toList →
    WellFormed found' → texts found' = key.toList → found = found'
  sameTree : ∀ otherDepth found found',
    parse maxDepth key = .ok found → parse otherDepth key = .ok found' → found = found'
  terminals : ∀ found, parse maxDepth key = .ok found →
    terminalCounts found = (names key.toList).length
  /-- no position is outside of the key; those of characters are those of bytes -/
  positions : parseAt maxDepth key = exactly (parse maxDepth key)
  bytes : Identifier.checkGroupedKey key = .ok () → ∀ c ∈ key.toList, c.utf8Size = 1

theorem readsExactly_key (maxDepth : Nat) (key : String) : ReadsExactly maxDepth key where
  accepted _ := parse_eq_ok_iff
  unique found found' h ht h' ht' := h.eq_of_texts_eq h' (ht.trans ht'.symm)
  sameTree otherDepth found found' h h' := by
    obtain ⟨_, hwf, ht, _⟩ := parse_eq_ok_iff.1 h
    obtain ⟨_, hwf', ht', _⟩ := parse_eq_ok_iff.1 h'
    exact hwf.eq_of_texts_eq hwf' (ht.trans ht'.symm)
  terminals found h := by
    obtain ⟨_, hwf, ht, _⟩ := parse_eq_ok_iff.1 h
    rw [← ht, length_names hwf]
  positions := parseAt_eq maxDepth key
  bytes := Identifier.utf8Size_of_checkGroupedKey

def groupAndField : List BracketNode :=
  [.group [.field "a" (some .or), .field "b" none] (some .and), .field "c" none]

theorem wellFormed_groupAndField : WellFormed groupAndField := by
  have hfield : ∀ name ∈ ["a", "b", "c"], Identifier.check name = .ok () := by decide +kernel
  have hgroup : WellFormed [.field "a" (some .or), .field "b" none] := by
    apply WellFormed.intro_of_parts (by simp)
    . exact ⟨.inr rfl, rfl⟩
    . simp [IsPart, hfield]
    . intro _
      exact ⟨.or, by simp [BracketNode.trailing]⟩
  apply WellFormed.intro_of_parts (by simp [groupAndField])
  . exact ⟨.inl rfl, rfl⟩
  . simp [groupAndField, IsPart, hfield, hgroup]
  . simp [groupAndField, isField]

theorem readsExactly_groupAndField : parse 2 "(a|b)&c" = .ok groupAndField ∧
    (∀ found, parse 1 "(a|b)&c" ≠ .ok found) ∧
      terminalCounts groupAndField = (names "(a|b)&c".toList).length := by
  have hparse : parse 2 "(a|b)&c" = .ok groupAndField :=
    ((readsExactly_key 2 "(a|b)&c").accepted groupAndField).2
      ⟨by decide, wellFormed_groupAndField, rfl, by decide⟩
  refine ⟨hparse, ?_, (readsExactly_key 2 "(a|b)&c").terminals groupAndField hparse⟩
  intro found h
  have he := (readsExactly_key 1 "(a|b)&c").sameTree 2 found groupAndField h hparse
  obtain ⟨_, _, _, hdepth⟩ := ((readsExactly_key 1 "(a|b)&c").accepted found).1 h
  rw [he] at hdepth
  exact absurd hdepth (by decide)

end Bracket

end SqlFilter
