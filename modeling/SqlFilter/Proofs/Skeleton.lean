import SqlFilter.Proofs.Phrase

/-!
This module contains skeletons of filters: how they nest, the connectives between siblings, and the
texts of their simple conditions. If these texts are leaves, then the text of a skeleton belongs to
no other skeleton: `Siblings.text_inj`; and each nested group stands where its parentheses match:
`Siblings.encloses_groupsFrom`.
-/

namespace SqlFilter

open Text

mutual

inductive Skeleton where
  | leaf (text : String)
  | group (inside : Siblings)

inductive Siblings where
  | last (skeleton : Skeleton)
  | link (skeleton : Skeleton) (connective : Connective) (rest : Siblings)

end

mutual

def Skeleton.text : Skeleton → String
  | .leaf text => text
  | .group inside => "( " ++ inside.text ++ " )"

def Siblings.text : Siblings → String
  | .last skeleton => skeleton.text
  | .link skeleton connective rest => skeleton.text ++ (" " ++ connective.sql ++ " " ++ rest.text)

end

mutual

def Skeleton.Readable : Skeleton → Prop
  | .leaf text => IsLeaf text
  | .group inside => inside.Readable

def Siblings.Readable : Siblings → Prop
  | .last skeleton => skeleton.Readable
  | .link skeleton _ rest => skeleton.Readable ∧ rest.Readable

end

mutual

theorem Skeleton.isPhrase_text : (skeleton : Skeleton) → skeleton.Readable →
    IsPhrase skeleton.text
  | .leaf _, h => by
    simp only [Skeleton.Readable] at h
    rw [Skeleton.text]
    exact h.phrase
  | .group inside, h => by
    simp only [Skeleton.Readable] at h
    rw [Skeleton.text]
    exact isPhrase_grouped (inside.closed_text h)

theorem Siblings.closed_text : (siblings : Siblings) → siblings.Readable →
    Closed siblings.text.toList
  | .last skeleton, h => by
    simp only [Siblings.Readable] at h
    rw [Siblings.text]
    exact (skeleton.isPhrase_text h).closed
  | .link skeleton connective rest, h => by
    simp only [Siblings.Readable] at h
    rw [Siblings.text, String.toList_append, String.toList_append]
    apply (skeleton.isPhrase_text h.1).closed.append
    exact (Draft.Closed.link connective).append (rest.closed_text h.2)

end

theorem Skeleton.Readable.text_ne_empty {skeleton : Skeleton} (h : skeleton.Readable) :
    skeleton.text ≠ "" := by
  cases skeleton with
  | leaf text =>
    simp only [Skeleton.Readable] at h
    rw [Skeleton.text]
    exact h.notEmpty
  | group inside =>
    rw [Skeleton.text]
    simp

theorem Siblings.Readable.text_ne_empty {siblings : Siblings} (h : siblings.Readable) :
    siblings.text ≠ "" := by
  cases siblings with
  | last skeleton =>
    simp only [Siblings.Readable] at h
    rw [Siblings.text]
    exact h.text_ne_empty
  | link skeleton connective rest =>
    rw [Siblings.text]
    simp

mutual

theorem Skeleton.text_inj : (s t : Skeleton) → s.Readable → t.Readable → s.text = t.text → s = t
  | .leaf _, .leaf _, _, _, h => by
    simp only [Skeleton.text] at h
    rw [h]
  | .leaf s, .group t, hs, _, h => by
    simp only [Skeleton.Readable] at hs
    simp only [Skeleton.text] at h
    apply absurd _ hs.notGroup
    exact ⟨t.text.toList ++ [' ', ')'], by simp [h]⟩
  | .group s, .leaf t, _, ht, h => by
    simp only [Skeleton.Readable] at ht
    simp only [Skeleton.text] at h
    apply absurd _ ht.notGroup
    exact ⟨s.text.toList ++ [' ', ')'], by simp [← h]⟩
  | .group s, .group t, hs, ht, h => by
    simp only [Skeleton.Readable] at hs ht
    simp only [Skeleton.text] at h
    have hinside : s.text = t.text := by simpa [String.append_assoc] using h
    rw [s.text_inj t hs ht hinside]

theorem Siblings.text_inj : (s t : Siblings) → s.Readable → t.Readable → s.text = t.text → s = t
  | .last s, .last t, hs, ht, h => by
    simp only [Siblings.Readable] at hs ht
    simp only [Siblings.text] at h
    rw [s.text_inj t hs ht h]
  | .last s, .link t connective rest, hs, ht, h => by
    simp only [Siblings.Readable] at hs ht
    simp only [Siblings.text] at h
    rw [← String.append_empty (s := s.text)] at h
    have := (s.isPhrase_text hs).eq_of_append_eq (t.isPhrase_text ht.1) (.inl rfl)
      (.inr ⟨connective, rest.text, rfl⟩) h
    simp at this
  | .link s connective rest, .last t, hs, ht, h => by
    simp only [Siblings.Readable] at hs ht
    simp only [Siblings.text] at h
    rw [← String.append_empty (s := t.text)] at h
    have := (s.isPhrase_text hs.1).eq_of_append_eq (t.isPhrase_text ht)
      (.inr ⟨connective, rest.text, rfl⟩) (.inl rfl) h
    simp at this
  | .link s connective rest, .link t connective' rest', hs, ht, h => by
    simp only [Siblings.Readable] at hs ht
    simp only [Siblings.text] at h
    obtain ⟨hfirst, hlink⟩ := (s.isPhrase_text hs.1).eq_of_append_eq (t.isPhrase_text ht.1)
      (.inr ⟨connective, rest.text, rfl⟩) (.inr ⟨connective', rest'.text, rfl⟩) h
    obtain ⟨rfl, hrest⟩ := Connective.link_inj hlink
    rw [s.text_inj t hs.1 ht.1 hfirst, rest.text_inj rest' hs.2 ht.2 hrest]

end

mutual

def Skeleton.groupsFrom (start : Nat) : Skeleton → List (Nat × Siblings)
  | .leaf _ => []
  | .group inside => (start, inside) :: inside.groupsFrom (start + 2)

def Siblings.groupsFrom (start : Nat) : Siblings → List (Nat × Siblings)
  | .last skeleton => skeleton.groupsFrom start
  | .link skeleton connective rest => skeleton.groupsFrom start ++
    rest.groupsFrom (start + (skeleton.text ++ (" " ++ connective.sql ++ " ")).length)

end

def Text.Encloses (cs : List Char) (start : Nat) (inside : String) : Prop :=
  cs[start]? = some '(' ∧
    ∃ behind, Bracket.closeGroup? 0 (cs.drop (start + 1)) =
      some ((" " ++ inside ++ " ").toList, behind)

theorem Text.encloses_grouped {inside : String} (h : Closed inside.toList) (front : List Char)
    (behind : List Char) :
    Encloses (front ++ ("( " ++ inside ++ " )").toList ++ behind) front.length inside := by
  have htext : front ++ ("( " ++ inside ++ " )").toList ++ behind =
      front ++ '(' :: ((" " ++ inside ++ " ").toList ++ ')' :: behind) := by simp
  rw [htext]
  refine ⟨by simp, behind, ?_⟩
  rw [List.drop_append, List.drop_eq_nil_of_le (by omega), Nat.add_sub_cancel_left]
  exact Bracket.closeGroup?_of_closed (closed_spaced h) behind

mutual

theorem Skeleton.encloses_groupsFrom : (skeleton : Skeleton) → skeleton.Readable →
    (front behind : List Char) → ∀ place ∈ skeleton.groupsFrom front.length,
      Encloses (front ++ skeleton.text.toList ++ behind) place.1 place.2.text
  | .leaf _, _, front, behind => by simp [Skeleton.groupsFrom]
  | .group inside, h, front, behind => by
    simp only [Skeleton.Readable] at h
    simp only [Skeleton.groupsFrom, Skeleton.text, List.mem_cons, forall_eq_or_imp]
    refine ⟨encloses_grouped (inside.closed_text h) front behind, ?_⟩
    have := inside.encloses_groupsFrom h (front ++ ['(', ' ']) (' ' :: ')' :: behind)
    simpa using this

theorem Siblings.encloses_groupsFrom : (siblings : Siblings) → siblings.Readable →
    (front behind : List Char) → ∀ place ∈ siblings.groupsFrom front.length,
      Encloses (front ++ siblings.text.toList ++ behind) place.1 place.2.text
  | .last skeleton, h, front, behind => by
    simp only [Siblings.Readable] at h
    simp only [Siblings.groupsFrom, Siblings.text]
    exact skeleton.encloses_groupsFrom h front behind
  | .link skeleton connective rest, h, front, behind => by
    simp only [Siblings.Readable] at h
    intro place hm
    rw [Siblings.groupsFrom] at hm
    rw [Siblings.text]
    cases List.mem_append.1 hm with
    | inl hm =>
      have := skeleton.encloses_groupsFrom h.1 front
        ((" " ++ connective.sql ++ " " ++ rest.text).toList ++ behind) place hm
      simpa using this
    | inr hm =>
      have hlink := rest.encloses_groupsFrom h.2
        (front ++ (skeleton.text ++ (" " ++ connective.sql ++ " ")).toList) behind place
      rw [List.length_append, String.length_toList] at hlink
      have := hlink hm
      simpa using this

end

namespace Siblings

def behind (first : Skeleton) : List (Connective × Skeleton) → Siblings
  | [] => .last first
  | (connective, skeleton) :: parts => .link first connective (behind skeleton parts)

def ofParts? : List (Connective × Skeleton) → Option Siblings
  | [] => none
  | (_, first) :: parts => some (behind first parts)

theorem text_behind (first : Skeleton) (parts : List (Connective × Skeleton)) :
    (behind first parts).text =
      first.text ++
        String.join (parts.map fun part => " " ++ part.1.sql ++ " " ++ part.2.text) := by
  induction parts generalizing first with
  | nil => simp [behind, text]
  | cons part parts ih => simp [behind, text, ih, String.append_assoc]

theorem readable_behind {first : Skeleton} {parts : List (Connective × Skeleton)}
    (hf : first.Readable) (hp : ∀ part ∈ parts, part.2.Readable) :
    (behind first parts).Readable := by
  induction parts generalizing first with
  | nil =>
    simp only [behind, Readable]
    exact hf
  | cons part parts ih =>
    simp only [List.mem_cons, forall_eq_or_imp] at hp
    simp only [behind, Readable]
    exact ⟨hf, ih hp.1 hp.2⟩

def wholeText (whole : Option Siblings) : String :=
  whole.elim "" text

def wholeGroups (whole : Option Siblings) : List (Nat × Siblings) :=
  whole.elim [] (groupsFrom 0)

section Whole

variable {whole whole' : Option Siblings} (h : ∀ siblings ∈ whole, siblings.Readable)

include h

theorem wholeText_inj (h' : ∀ siblings ∈ whole', siblings.Readable)
    (he : wholeText whole = wholeText whole') : whole = whole' := by
  cases whole with
  | none =>
    cases whole' with
    | none => rfl
    | some siblings' => exact absurd he.symm (h' siblings' rfl).text_ne_empty
  | some siblings =>
    cases whole' with
    | none => exact absurd he (h siblings rfl).text_ne_empty
    | some siblings' => rw [siblings.text_inj siblings' (h siblings rfl) (h' siblings' rfl) he]

theorem closed_wholeText : Closed (wholeText whole).toList := by
  cases whole with
  | none => exact .nil
  | some siblings => exact siblings.closed_text (h siblings rfl)

theorem encloses_wholeGroups :
    ∀ place ∈ wholeGroups whole, Encloses (wholeText whole).toList place.1 place.2.text := by
  cases whole with
  | none => simp [wholeGroups]
  | some siblings =>
    have := siblings.encloses_groupsFrom (h siblings rfl) [] []
    rwa [List.nil_append, List.append_nil] at this

end Whole

end Siblings

end SqlFilter
