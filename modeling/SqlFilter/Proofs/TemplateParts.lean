import SqlFilter.Proofs.Written

/-!
This module contains templates as lists of parts. Cut at its percent signs, a template gives texts
that are copied and names of slots in turn, and this does not depend on what the slots hold. A
statement is what stands for the parts, one after the other. A search that goes on behind each slot
that it has filled comes to an end, and has then written the same text.
-/

namespace SqlFilter

namespace Template

inductive Part where
  | copied (text : String)
  | slot (name : String)
deriving DecidableEq

def Part.text (slots : Slots) : Part → String
  | .copied text => text
  | .slot name => slots.text name

def textOf (slots : Slots) (parts : List Part) : String :=
  String.join (parts.map (Part.text slots))

/-- The part that one of a number of pieces is. Every second piece names a slot, but behind the last
piece there is no percent sign; if it would name a slot, then the one in front of it stays. -/
def partAt (count i : Nat) (piece : String) : Part :=
  if i % 2 = 0 then .copied piece
  else if i + 1 < count then .slot piece
  else .copied ("%" ++ piece)

def partsOf (pieces : List String) : List Part :=
  pieces.mapIdx (partAt pieces.length)

def parts (template : String) : List Part :=
  partsOf (Text.splitAt '%' template)

def names : List Part → List String
  | [] => []
  | .copied _ :: ps => names ps
  | .slot name :: ps => name :: names ps

theorem textOf_append (slots : Slots) (ps qs : List Part) :
    textOf slots (ps ++ qs) = textOf slots ps ++ textOf slots qs := by
  rw [textOf, List.map_append, String.join_append]
  rfl

theorem textOf_cons (slots : Slots) (p : Part) (ps : List Part) :
    textOf slots (p :: ps) = p.text slots ++ textOf slots ps := by
  rw [textOf, List.map_cons, String.join_cons]
  rfl

theorem partsOf_singleton (piece : String) : partsOf [piece] = [.copied piece] := rfl

theorem partsOf_pair (piece unpaired : String) :
    partsOf [piece, unpaired] = [.copied piece, .copied ("%" ++ unpaired)] := rfl

theorem partAt_add_two (count i : Nat) (piece : String) :
    partAt (count + 2) (i + 2) piece = partAt count i piece := by
  have hparity : (i + 2) % 2 = i % 2 := by omega
  have hlast : i + 2 + 1 < count + 2 ↔ i + 1 < count := by omega
  simp only [partAt, hparity, hlast]

theorem partsOf_cons_cons (piece name next : String) (rest : List String) :
    partsOf (piece :: name :: next :: rest) =
      .copied piece :: .slot name :: partsOf (next :: rest) := by
  have hshift : (fun i => partAt ((next :: rest).length + 2) (i + 2)) =
      partAt (next :: rest).length := by
    funext i piece
    apply partAt_add_two
  have hname : partAt ((next :: rest).length + 2) 1 name = .slot name := by simp [partAt]
  unfold partsOf
  rw [List.mapIdx_cons, List.mapIdx_cons, ← hshift, ← hname]
  rfl

theorem fill_of_not_mem {cs : List Char} (h : '%' ∉ cs) (slots : Slots) :
    fill slots none cs = cs := by
  have hfill : fill slots none (cs ++ []) = cs ++ fill slots none [] := fill_append h []
  rwa [fill, List.append_nil] at hfill

theorem fill_unpaired {cs : List Char} (h : '%' ∉ cs) (slots : Slots) (read : List Char) :
    fill slots (some read) cs = '%' :: (read.reverse ++ cs) := by
  induction cs generalizing read with
  | nil => simp [fill]
  | cons c cs ih =>
    simp only [List.mem_cons, not_or] at h
    have hne : c ≠ '%' := fun he => h.1 he.symm
    simp [fill, hne, ih h.2]

theorem intercalate_slot (piece name next : String) (rest : List String) :
    "%".intercalate (piece :: name :: next :: rest) =
      piece ++ (slot name ++ "%".intercalate (next :: rest)) := by
  rw [String.intercalate_cons_cons, String.intercalate_cons_cons]
  simp [slot, String.append_assoc]

-- two pieces at a time, since the second one is a slot only if a third one follows
theorem fill_partsOf (slots : Slots) : (pieces : List String) → pieces ≠ [] →
    (∀ piece ∈ pieces, '%' ∉ piece.toList) →
      fill slots none ("%".intercalate pieces).toList = (textOf slots (partsOf pieces)).toList
  | [], hne, _ => absurd rfl hne
  | [piece], _, h => by
    simp [partsOf_singleton, textOf, Part.text, fill_of_not_mem (h piece (by simp))]
  | [piece, unpaired], _, h => by
    have hp := h piece (by simp)
    have hu := h unpaired (by simp)
    have hfill : fill slots none ('%' :: unpaired.toList) = '%' :: unpaired.toList := by
      rw [fill, if_pos rfl, fill_unpaired hu]
      rfl
    rw [partsOf_pair, String.intercalate_cons_cons]
    simp [textOf, Part.text, fill_append hp, hfill]
  | piece :: name :: next :: rest, _, h => by
    simp only [List.mem_cons, forall_eq_or_imp] at h
    obtain ⟨hp, hn, hnext, hrest⟩ := h
    have ih := fill_partsOf slots (next :: rest) (by simp) (List.forall_mem_cons.2 ⟨hnext, hrest⟩)
    rw [intercalate_slot, partsOf_cons_cons]
    simp only [textOf_cons, Part.text, String.toList_append]
    rw [fill_append hp, fill_slot hn, ih]

theorem ofList_fill (slots : Slots) (template : String) :
    String.ofList (fill slots none template.toList) = textOf slots (parts template) := by
  have hfill := fill_partsOf slots (Text.splitAt '%' template) (Text.splitAt_ne_nil '%' template)
    fun piece hp => Text.not_mem_of_mem_splitAt hp
  rw [Text.intercalate_splitAt rfl] at hfill
  rw [hfill, String.ofList_toList]
  rfl

def percents (s : String) : Nat :=
  s.toList.count '%'

@[simp]
theorem percents_empty : percents "" = 0 := rfl

theorem percents_append (s t : String) : percents (s ++ t) = percents s + percents t := by
  rw [percents, String.toList_append, List.count_append]
  rfl

theorem percents_of_not_mem {s : String} (h : '%' ∉ s.toList) : percents s = 0 :=
  List.count_eq_zero.2 h

theorem percents_partsOf (slots : Slots) : (pieces : List String) → pieces ≠ [] →
    (∀ piece ∈ pieces, '%' ∉ piece.toList) →
      percents (textOf slots (partsOf pieces)) = percents ("%".intercalate pieces) % 2 +
        percents (String.join ((names (partsOf pieces)).map slots.text))
  | [], hne, _ => absurd rfl hne
  | [piece], _, h => by
    have hp := percents_of_not_mem (h piece (by simp))
    simp [partsOf_singleton, textOf, Part.text, names, hp]
  | [piece, unpaired], _, h => by
    have hp := percents_of_not_mem (h piece (by simp))
    have hu := percents_of_not_mem (h unpaired (by simp))
    have hsign : percents "%" = 1 := rfl
    rw [partsOf_pair, String.intercalate_cons_cons]
    simp [textOf, Part.text, names, percents_append, hp, hu, hsign]
  | piece :: name :: next :: rest, _, h => by
    simp only [List.mem_cons, forall_eq_or_imp] at h
    obtain ⟨hp, hn, hnext, hrest⟩ := h
    have ih := percents_partsOf slots (next :: rest) (by simp)
      (List.forall_mem_cons.2 ⟨hnext, hrest⟩)
    have hslot : percents (slot name) = 2 := by
      rw [slot, percents_append, percents_append, percents_of_not_mem hn]
      rfl
    rw [intercalate_slot, partsOf_cons_cons]
    simp only [textOf_cons, Part.text, percents_append, percents_of_not_mem hp, hslot, ih]
    simp [names, percents_append]
    omega

theorem percents_textOf (slots : Slots) (template : String) :
    percents (textOf slots (parts template)) = percents template % 2 +
      percents (String.join ((names (parts template)).map slots.text)) := by
  have hcount := percents_partsOf slots (Text.splitAt '%' template)
    (Text.splitAt_ne_nil '%' template) fun piece hp => Text.not_mem_of_mem_splitAt hp
  rw [Text.intercalate_splitAt rfl] at hcount
  exact hcount

structure Search where
  written : List Char
  rest : List Char

namespace Search

def start (template : String) : Search :=
  ⟨[], template.toList⟩

/-- One turn of the search, for which it needs a percent sign. It copies what stands in front of the
sign, writes what the slot behind it holds, and goes on behind the slot; if the slot has no end, then
it copies all that is left. -/
def turn (slots : Slots) (s : Search) : Option Search :=
  match s.rest.dropWhile (· != '%') with
  | [] => none
  | _ :: behind =>
    let front := s.written ++ s.rest.takeWhile (· != '%')
    match behind.dropWhile (· != '%') with
    | [] => some ⟨front ++ '%' :: behind, []⟩
    | _ :: rest =>
      let name := String.ofList (behind.takeWhile (· != '%'))
      some ⟨front ++ (slots.text name).toList, rest⟩

def after (slots : Slots) : Nat → Search → Option Search
  | 0, s => some s
  | n + 1, s => (s.turn slots).bind (after slots n)

def turnsLeft (s : Search) : Nat :=
  (s.rest.count '%' + 1) / 2

variable {slots : Slots} {s t : Search} {written front rest : List Char}

theorem turn_of_not_mem (h : '%' ∉ rest) : turn slots ⟨written, rest⟩ = none := by
  simp only [turn, Text.dropWhile_of_not_mem h]

theorem turn_unpaired (hf : '%' ∉ front) (hr : '%' ∉ rest) :
    turn slots ⟨written, front ++ '%' :: rest⟩ = some ⟨written ++ front ++ '%' :: rest, []⟩ := by
  simp only [turn, Text.dropWhile_front hf, Text.takeWhile_front hf, Text.dropWhile_of_not_mem hr]

theorem turn_slot {name : List Char} (hf : '%' ∉ front) (hn : '%' ∉ name) :
    turn slots ⟨written, front ++ '%' :: (name ++ '%' :: rest)⟩ =
      some ⟨written ++ front ++ (slots.text (String.ofList name)).toList, rest⟩ := by
  simp only [turn, Text.dropWhile_front hf, Text.takeWhile_front hf, Text.dropWhile_front hn,
    Text.takeWhile_front hn]

theorem turn_cases (slots : Slots) (s : Search) :
    '%' ∉ s.rest ∧ s.turn slots = none ∨
      ∃ t, s.turn slots = some t ∧ t.turnsLeft + 1 = s.turnsLeft ∧
        t.written ++ fill slots none t.rest = s.written ++ fill slots none s.rest := by
  obtain ⟨written, rest⟩ := s
  by_cases hrest : '%' ∈ rest
  . right
    obtain ⟨front, behind, rfl, hf⟩ := List.eq_append_cons_of_mem hrest
    by_cases hbehind : '%' ∈ behind
    . obtain ⟨name, rest, rfl, hn⟩ := List.eq_append_cons_of_mem hbehind
      refine ⟨_, turn_slot hf hn, ?_, ?_⟩
      . simp [turnsLeft, List.count_eq_zero.2 hf, List.count_eq_zero.2 hn]
        omega
      . simp [fill_append hf, fill, fill_name hn]
    . refine ⟨_, turn_unpaired hf hbehind, ?_, ?_⟩
      . simp [turnsLeft, List.count_eq_zero.2 hf, List.count_eq_zero.2 hbehind]
      . simp [fill_append hf, fill, fill_unpaired hbehind]
  . exact .inl ⟨hrest, turn_of_not_mem hrest⟩

theorem after_turnsLeft (slots : Slots) (s : Search) :
    ∃ last, s.after slots s.turnsLeft = some last ∧ last.turn slots = none ∧
      last.written ++ last.rest = s.written ++ fill slots none s.rest := by
  induction hn : s.turnsLeft generalizing s with
  | zero =>
    rcases turn_cases slots s with ⟨hrest, hnone⟩ | ⟨t, _, hturns, _⟩
    . exact ⟨s, rfl, hnone, by rw [fill_of_not_mem hrest]⟩
    . omega
  | succ n ih =>
    rcases turn_cases slots s with ⟨hrest, _⟩ | ⟨t, hturn, hturns, hfill⟩
    . rw [turnsLeft, List.count_eq_zero.2 hrest] at hn
      cases hn
    . obtain ⟨last, hafter, hlast, htext⟩ := ih t (by omega)
      refine ⟨last, ?_, hlast, htext.trans hfill⟩
      rw [after, hturn]
      exact hafter

end Search

end Template

namespace Text

theorem count_skipBlanks {c : Char} (hb : isBlank c = false) (cs : List Char) :
    (skipBlanks cs).count c = cs.count c := by
  induction cs with
  | nil => rfl
  | cons x cs ih =>
    cases hx : isBlank x with
    | false => simp [skipBlanks, hx]
    | true =>
      have hne : x ≠ c := by
        rintro rfl
        rw [hb] at hx
        cases hx
      rw [List.count_cons_of_ne hne, ← ih]
      simp [skipBlanks, hx]

theorem count_trim {c : Char} (hb : isBlank c = false) (s : String) :
    (trim s).toList.count c = s.toList.count c := by
  rw [toList_trim, trimChars, List.count_reverse, count_skipBlanks hb, List.count_reverse,
    count_skipBlanks hb]

end Text

namespace Templates

open Template

structure FillsOnce (templates : Templates) (kind : StatementKind) : Prop where
  assembled : ∀ slots, templates.assemble kind slots =
    Text.trim (textOf slots (parts (templates.get kind)))
  verbatim : ∀ slots front name behind, parts (templates.get kind) = front ++ .slot name :: behind →
    templates.assemble kind slots =
      Text.trim (textOf slots front ++ slots.text name ++ textOf slots behind)
  /-- the percent signs of values are all there, and of the template's at most a last one -/
  percentSigns : ∀ slots, percents (templates.assemble kind slots) =
    percents (templates.get kind) % 2 +
      percents (String.join ((names (parts (templates.get kind))).map slots.text))
  finishes : ∀ slots, ∃ last,
    (Search.start (templates.get kind)).after slots ((percents (templates.get kind) + 1) / 2) =
        some last ∧
      last.turn slots = none ∧
        templates.assemble kind slots = Text.trim (String.ofList (last.written ++ last.rest))

theorem assemble_eq_trim (templates : Templates) (kind : StatementKind) (slots : Slots) :
    templates.assemble kind slots =
      Text.trim (String.ofList (fill slots none (templates.get kind).toList)) := by
  rw [assemble, Text.trim, String.toList_ofList]

theorem fillsOnce_assemble (templates : Templates) (kind : StatementKind) :
    templates.FillsOnce kind where
  assembled slots := by rw [assemble_eq_trim, ofList_fill]
  verbatim slots front name behind h := by
    rw [assemble_eq_trim, ofList_fill, h, textOf_append, textOf_cons, Part.text,
      String.append_assoc]
  percentSigns slots := by
    rw [assemble_eq_trim, ofList_fill, percents, Text.count_trim (by decide)]
    exact percents_textOf slots (templates.get kind)
  finishes slots := by
    obtain ⟨last, hafter, hlast, htext⟩ :=
      Search.after_turnsLeft slots (.start (templates.get kind))
    refine ⟨last, hafter, hlast, ?_⟩
    rw [assemble_eq_trim, htext]
    rfl

-- a value may look like a slot, and the last percent sign has no partner
example : (standard.set .select " %A%.%B%.%%.%A% 5%B").assemble .select
    [("A", "%B%"), ("B", "%A"), ("", "100%")] = "%B%.%A.100%.%B% 5%B" := by
  decide +kernel

end Templates

end SqlFilter
