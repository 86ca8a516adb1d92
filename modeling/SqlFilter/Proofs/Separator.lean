import SqlFilter.Text.Ascii

/-!
This module contains texts that are cut at a separator. The pieces are free of it and make up the
text again, and what has been put together of such pieces is cut into the same pieces.
-/

namespace SqlFilter.Text

variable {sep c : Char}

theorem mem_of_mem_splitOn {cs piece : List Char} (hp : piece ∈ cs.splitOn sep) (hc : c ∈ piece) :
    c ∈ cs ∧ c ≠ sep := by
  induction cs generalizing piece with
  | nil =>
    simp only [List.splitOn_nil, List.mem_singleton] at hp
    subst hp
    cases hc
  | cons x cs ih =>
    rw [List.splitOn_cons_eq_if_modifyHead] at hp
    split at hp
    . simp only [List.mem_cons] at hp
      cases hp with
      | inl hnil =>
        subst hnil
        cases hc
      | inr hmem =>
        have := ih hmem hc
        simp [this]
    . next hx =>
      obtain ⟨first, rest, he⟩ := List.exists_cons_of_ne_nil (List.splitOn_ne_nil sep cs)
      rw [he, List.modifyHead_cons, List.mem_cons] at hp
      cases hp with
      | inl hfirst =>
        subst hfirst
        cases List.mem_cons.1 hc with
        | inl hcx => simpa [hcx] using hx
        | inr hcf =>
          have := ih (he ▸ List.mem_cons_self) hcf
          simp [this]
      | inr hrest =>
        have := ih (he ▸ List.mem_cons_of_mem first hrest) hc
        simp [this]

theorem not_mem_of_mem_splitAt {s piece : String} (h : piece ∈ splitAt sep s) :
    sep ∉ piece.toList := by
  obtain ⟨cs, hcs, rfl⟩ := List.mem_map.1 h
  rw [String.toList_ofList]
  exact fun hm => (mem_of_mem_splitOn hcs hm).2 rfl

theorem mem_of_mem_splitAt {s piece : String} (h : piece ∈ splitAt sep s)
    (hc : c ∈ piece.toList) : c ∈ s.toList := by
  obtain ⟨cs, hcs, rfl⟩ := List.mem_map.1 h
  rw [String.toList_ofList] at hc
  exact (mem_of_mem_splitOn hcs hc).1

theorem splitAt_ne_nil (sep : Char) (s : String) : splitAt sep s ≠ [] := by
  simp [splitAt, List.splitOn_ne_nil]

section Intercalate

variable {separator : String} (hs : separator.toList = [sep])
include hs

theorem intercalate_splitAt (s : String) : separator.intercalate (splitAt sep s) = s := by
  have hlists : (s.toList.splitOn sep).map (String.toList ∘ String.ofList) =
      s.toList.splitOn sep := by
    simp
  rw [← String.toList_inj, String.toList_intercalate, splitAt, List.map_map, hlists, hs]
  exact List.intercalate_splitOn sep

theorem splitAt_intercalate {pieces : List String} (hne : pieces ≠ [])
    (h : ∀ piece ∈ pieces, sep ∉ piece.toList) :
    splitAt sep (separator.intercalate pieces) = pieces := by
  have hsplit : ([sep].intercalate (pieces.map String.toList)).splitOn sep =
      pieces.map String.toList := by
    apply List.splitOn_intercalate sep
    . simpa using h
    . simpa using hne
  rw [splitAt, String.toList_intercalate, hs, hsplit]
  simp

theorem mem_intercalate {pieces : List String} (h : c ∈ (separator.intercalate pieces).toList) :
    c = sep ∨ ∃ piece ∈ pieces, c ∈ piece.toList := by
  induction pieces with
  | nil => cases h
  | cons piece pieces ih =>
    cases pieces with
    | nil =>
      rw [String.intercalate_singleton] at h
      exact .inr ⟨piece, by simp, h⟩
    | cons next pieces =>
      rw [String.intercalate_cons_cons, String.toList_append, String.toList_append, hs,
        List.mem_append, List.mem_append, List.mem_singleton] at h
      rcases h with (h | h) | h
      . exact .inr ⟨piece, by simp, h⟩
      . exact .inl h
      . refine (ih h).imp_right ?_
        rintro ⟨other, ho, hc⟩
        exact ⟨other, List.mem_cons_of_mem _ ho, hc⟩

end Intercalate

theorem splitAt_of_not_mem {s : String} (h : sep ∉ s.toList) : splitAt sep s = [s] := by
  have hs : (String.singleton sep).toList = [sep] := String.toList_singleton sep
  have hsplit := splitAt_intercalate hs (List.cons_ne_nil s []) (by simpa using h)
  rwa [String.intercalate_singleton] at hsplit

section Front

variable {front : List Char} (h : sep ∉ front) (rest : List Char)
include h

theorem bne_of_mem_front : ∀ c ∈ front, (c != sep) = true := by
  intro c hc
  rw [bne_iff_ne]
  rintro rfl
  exact h hc

theorem dropWhile_of_not_mem : front.dropWhile (· != sep) = [] := by
  have hdrop : (front ++ []).dropWhile (· != sep) = [] :=
    List.dropWhile_append_of_pos (bne_of_mem_front h)
  rwa [List.append_nil] at hdrop

theorem takeWhile_front : (front ++ sep :: rest).takeWhile (· != sep) = front := by
  rw [List.takeWhile_append_of_pos (bne_of_mem_front h)]
  simp

theorem dropWhile_front : (front ++ sep :: rest).dropWhile (· != sep) = sep :: rest := by
  rw [List.dropWhile_append_of_pos (bne_of_mem_front h)]
  simp

end Front

end SqlFilter.Text
