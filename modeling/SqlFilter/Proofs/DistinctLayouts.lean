import SqlFilter.Proofs.TimestampText

/-!
This module contains the proof that a text is read as a point in time in one way at most. Two
layouts that have begun alike part at a character: what the one goes on with is no beginning of the
other's rest. The strict format counts as layouts that end before a fraction or an offset.
-/

namespace SqlFilter

inductive Opening where
  | ended
  | blank
  | digit
  | mark (c : Char)
deriving DecidableEq

namespace Opening

def ofChar (c : Char) : Opening :=
  if Text.isBlank c then .blank
  else if c.isDigit then .digit
  else .mark c

def ofText : List Char → Opening
  | [] => .ended
  | c :: _ => ofChar c

theorem ofChar_of_isBlank {c : Char} (h : Text.isBlank c = true) : ofChar c = .blank := by
  rw [ofChar, if_pos h]

theorem ofChar_of_isDigit {c : Char} (h : c.isDigit = true) : ofChar c = .digit := by
  rw [ofChar, Text.isBlank_of_isDigit h, if_neg Bool.false_ne_true, if_pos h]

theorem ofText_blank_or_skipBlanks (cs : List Char) :
    ofText cs = .blank ∨ Text.skipBlanks cs = cs := by
  cases cs with
  | nil => exact .inr rfl
  | cons c cs =>
    cases h : Text.isBlank c with
    | true => exact .inl (ofChar_of_isBlank h)
    | false => exact .inr (Text.skipBlanks_of_head? rfl h)

end Opening

namespace Layout

variable {width : Nat} {cs rest : List Char} {n : Nat}

theorem ofText_of_number? {ds : List Char} (hd : ds = (cs.take width).takeWhile Char.isDigit)
    (h : number? ds = some n) : Opening.ofText cs = .digit := by
  cases cs with
  | nil => simp [hd, number?] at h
  | cons c cs =>
    cases hc : c.isDigit with
    | true => exact Opening.ofChar_of_isDigit hc
    | false => cases width <;> simp [hd, hc, number?] at h

theorem ofText_of_narrow? (h : narrow? width cs = some (n, rest)) :
    Opening.ofText cs ∈ [.blank, .digit] := by
  rcases Opening.ofText_blank_or_skipBlanks cs with hb | hs
  . simp [hb]
  . obtain ⟨_, hn, _⟩ := Option.map_eq_some_iff.1 h
    rw [hs] at hn
    simp [ofText_of_number? rfl hn]

theorem ofText_of_year? {year : Int} (h : year? cs = some (year, rest)) :
    Opening.ofText cs ∈ [.blank, .digit, .mark '+', .mark '-'] := by
  rcases Opening.ofText_blank_or_skipBlanks cs with hb | hs
  . simp [hb]
  . unfold year? at h
    rw [hs] at h
    split at h
    . change Opening.ofChar '-' ∈ _
      decide
    . change Opening.ofChar '+' ∈ _
      decide
    . obtain ⟨_, hn, _⟩ := Option.map_eq_some_iff.1 h
      have := ofText_of_narrow? hn
      simp only [List.mem_cons, List.not_mem_nil, or_false] at this ⊢
      exact this.elim .inl fun h => .inr (.inl h)

/-- What the texts begin with that a layout reads, if the rests that it leaves begin in the given
ways. -/
def openings (rests : List Opening) : Layout → List Opening
  | [] => rests
  | .year :: _ => [.blank, .digit, .mark '+', .mark '-']
  | .blanks :: layout => .blank :: openings rests layout
  | .literal c :: _ => [.ofChar c]
  | _ => [.blank, .digit]

variable {rests rests' : List Opening} {layout layout' : Layout} {f g g' : Fields}
  {rest' : List Char}

theorem ofText_mem_openings (h : readFields? layout f cs = some (g, rest))
    (hr : Opening.ofText rest ∈ rests) : Opening.ofText cs ∈ openings rests layout := by
  induction layout generalizing f cs with
  | nil =>
    cases h
    exact hr
  | cons item layout ih =>
    obtain ⟨⟨f', cs'⟩, hitem, h⟩ := Option.bind_eq_some_iff.1 h
    cases item with
    | blanks =>
      cases hitem
      rcases Opening.ofText_blank_or_skipBlanks cs with hb | hs
      . simp [openings, hb]
      . rw [hs] at h
        exact .tail _ (ih h)
    | literal c =>
      cases cs with
      | nil => cases hitem
      | cons d cs =>
        rw [readItem?, Option.ite_none_right_eq_some] at hitem
        simp [openings, Opening.ofText, hitem.1]
    | year =>
      obtain ⟨_, hy, _⟩ := Option.map_eq_some_iff.1 hitem
      exact ofText_of_year? hy
    | _ =>
      obtain ⟨_, hn, _⟩ := Option.map_eq_some_iff.1 hitem
      exact ofText_of_narrow? hn

/-- Whether two layouts begin alike up to a place from which on no text of the one begins like a
text of the other. -/
def areApart (rests rests' : List Opening) : Layout → Layout → Bool
  | item :: layout, item' :: layout' =>
    item = item' && areApart rests rests' layout layout' ||
      (openings rests (item :: layout)).all fun o => o ∉ openings rests' (item' :: layout')
  | layout, layout' => (openings rests layout).all fun o => o ∉ openings rests' layout'

theorem not_both_of_openings
    (ha : ((openings rests layout).all fun o => o ∉ openings rests' layout') = true)
    (h : readFields? layout f cs = some (g, rest)) (hr : Opening.ofText rest ∈ rests)
    (h' : readFields? layout' f cs = some (g', rest')) : Opening.ofText rest' ∉ rests' := by
  intro hr'
  have := List.all_eq_true.1 ha _ (ofText_mem_openings h hr)
  exact of_decide_eq_true this (ofText_mem_openings h' hr')

theorem not_both_of_areApart (ha : areApart rests rests' layout layout' = true)
    (h : readFields? layout f cs = some (g, rest)) (hr : Opening.ofText rest ∈ rests)
    (h' : readFields? layout' f cs = some (g', rest')) : Opening.ofText rest' ∉ rests' := by
  fun_induction areApart rests rests' layout layout' generalizing f cs with
  | case1 item layout item' layout' ih =>
    rw [Bool.or_eq_true, Bool.and_eq_true] at ha
    rcases ha with ⟨hi, ha⟩ | ha
    . -- what both begin with leaves them the same fields and the same rest
      cases of_decide_eq_true hi
      obtain ⟨⟨f', cs'⟩, hitem, h⟩ := Option.bind_eq_some_iff.1 h
      rw [readFields?, hitem] at h'
      exact ih ha h h'
    . exact not_both_of_openings ha h hr h'
  | case2 => exact not_both_of_openings ha h hr h'

def internetRests : List Opening :=
  ['.', 'Z', 'z', '+', '-', '\u2212'].map Opening.ofChar

def internet : List Layout :=
  [.literal 'T', .literal 't', .blanks].map fun separator => date '-' ++ [separator] ++ clock

theorem areApart_internet : ∀ layout ∈ dateTimes ++ days, ∀ layout' ∈ internet,
    areApart [.ended] internetRests layout layout' = true := by
  decide

theorem areApart_layouts : (dateTimes ++ days).Pairwise fun layout layout' =>
    areApart [.ended] [.ended] layout layout' = true := by
  decide

theorem readFields?_cons {item : LayoutItem} (layout : Layout)
    (h : readItem? item f cs = some (g, rest)) :
    readFields? (item :: layout) f cs = readFields? layout g rest := by
  rw [readFields?, h]
  rfl

theorem readFields?_date_of_items {sep : Char} {year : Int} {month day : Nat} {cs₁ cs₂ : List Char}
    (hyear : year? cs = some (year, sep :: cs₁)) (hmonth : narrow? 2 cs₁ = some (month, sep :: cs₂))
    (hday : narrow? 2 cs₂ = some (day, rest)) :
    readFields? (date sep ++ layout) f cs =
      readFields? layout { f with year := year, month := month, day := day } rest := by
  simp [date, readFields?, readItem?, hyear, hmonth, hday]

theorem readFields?_clock_of_items {hour minute second : Nat} {cs₁ cs₂ : List Char}
    (hhour : narrow? 2 cs = some (hour, ':' :: cs₁))
    (hminute : narrow? 2 cs₁ = some (minute, ':' :: cs₂))
    (hsecond : narrow? 2 cs₂ = some (second, rest)) :
    readFields? clock f cs =
      some ({ f with hour := hour, minute := minute, second := second }, rest) := by
  simp [clock, hourMinute, readFields?, readItem?, hhour, hminute, hsecond]

theorem readFields?_of_read? {t : Timestamp} (h : read? layout cs = some t) :
    ∃ f, readFields? layout {} cs = some (f, []) := by
  unfold read? at h
  split at h
  . next f hf => exact ⟨f, hf⟩
  . cases h

theorem read?_eq_none_of_areApart {layout' : Layout}
    (ha : areApart [.ended] rests layout layout' = true)
    (h : readFields? layout' {} cs = some (g, rest)) (hr : Opening.ofText rest ∈ rests) :
    read? layout cs = none := by
  cases hread : read? layout cs with
  | none => rfl
  | some t =>
    obtain ⟨f, hf⟩ := readFields?_of_read? hread
    exact absurd hr (not_both_of_areApart ha hf (.head _) h)

end Layout

namespace Timestamp

open Layout

variable {cs rest : List Char} {width n : Nat}

theorem narrow?_of_fixed? (hw : 0 < width) (h : fixed? width cs = some (n, rest)) :
    (∃ c, cs.head? = some c ∧ c.isDigit = true) ∧ Text.skipBlanks cs = cs ∧
      narrow? width cs = some (n, rest) := by
  rw [fixed?, Option.ite_none_right_eq_some] at h
  obtain ⟨⟨hlength, hall⟩, h⟩ := h
  cases h
  have hdigits : (cs.take width ++ []).takeWhile Char.isDigit = cs.take width :=
    Text.takeWhile_digits (List.all_eq_true.1 hall) (by simp)
  rw [List.append_nil] at hdigits
  have hne : cs.take width ≠ [] := by
    rw [← List.length_pos_iff, hlength]
    exact hw
  have hhead : ∃ c, cs.head? = some c ∧ c.isDigit = true := by
    refine ⟨(cs.take width).head hne, ?_, List.all_eq_true.1 hall _ (List.head_mem hne)⟩
    rw [← List.head?_eq_some_head, List.head?_take, if_neg hw.ne']
  obtain ⟨c, hc, hd⟩ := hhead
  have hskip := Text.skipBlanks_of_head? hc (Text.isBlank_of_isDigit hd)
  refine ⟨⟨c, hc, hd⟩, hskip, ?_⟩
  rw [narrow?, hskip, hdigits, number?, List.isEmpty_eq_false_iff.2 hne, hlength]
  rfl

theorem year?_of_fixed? (h : fixed? 4 cs = some (n, rest)) : year? cs = some ((n : Int), rest) := by
  obtain ⟨⟨c, hc, hd⟩, hskip, hn⟩ := narrow?_of_fixed? (by omega) h
  unfold year?
  rw [hskip]
  split
  . cases hc
    cases hd
  . cases hc
    cases hd
  . rw [hn]
    rfl

theorem exists_of_expect? {allowed : List Char} (h : expect? allowed cs = some rest) :
    ∃ c ∈ allowed, cs = c :: rest := by
  cases cs with
  | nil => cases h
  | cons c cs =>
    rw [expect?, Option.ite_none_right_eq_some] at h
    obtain ⟨hc, h⟩ := h
    cases h
    exact ⟨c, by simpa using hc, rfl⟩

theorem ofChar_mem_internetRests {c : Char} (h : c ∈ ['.', 'Z', 'z', '+', '-', '\u2212'])
    (cs : List Char) : Opening.ofText (c :: cs) ∈ internetRests :=
  List.mem_map_of_mem h

theorem ofText_of_offset? {offset : Int} (h : offset? cs = some offset) :
    Opening.ofText cs ∈ internetRests := by
  unfold offset? at h
  split at h
  . exact ofChar_mem_internetRests (by decide) _
  . exact ofChar_mem_internetRests (by decide) _
  . next sign cs _ _ =>
    apply ofChar_mem_internetRests
    simp only [bind, Option.bind_eq_some_iff] at h
    obtain ⟨_, _, _, _, _, _, h⟩ := h
    split at h
    . split at h
      . next hs => simp [hs]
      . split at h
        . next hs => rcases hs with hs | hs <;> simp [hs]
        . cases h
    . cases h
  . cases h

theorem ofText_of_fraction? {offset : Int} (hf : fraction? cs = some (n, rest))
    (ho : offset? rest = some offset) : Opening.ofText cs ∈ internetRests := by
  unfold fraction? at hf
  split at hf
  . exact ofChar_mem_internetRests (by decide) _
  . cases hf
    exact ofText_of_offset? ho

theorem exists_separator {separator : Char} (hs : separator ∈ ['T', 't', ' '])
    (hskip : Text.skipBlanks rest = rest) : ∃ item, Layout.date '-' ++ [item] ++ clock ∈ internet ∧
      ∀ f, readItem? item f (separator :: rest) = some (f, rest) := by
  simp only [List.mem_cons, List.not_mem_nil, or_false] at hs
  rcases hs with rfl | rfl | rfl
  . exact ⟨.literal 'T', by decide, fun f => rfl⟩
  . exact ⟨.literal 't', by decide, fun f => rfl⟩
  . refine ⟨.blanks, by decide, fun f => ?_⟩
    have : Text.skipBlanks (' ' :: rest) = Text.skipBlanks rest :=
      List.dropWhile_cons_of_pos (by decide)
    rw [readItem?, this, hskip]

theorem exists_of_readInternet? {t : Timestamp} (h : readInternet? cs = some t) :
    ∃ layout ∈ internet, ∃ f rest, readFields? layout {} cs = some (f, rest) ∧
      Opening.ofText rest ∈ internetRests := by
  obtain ⟨⟨year, _⟩, hyear, h⟩ := Option.bind_eq_some_iff.1 h
  obtain ⟨_, hdash, h⟩ := Option.bind_eq_some_iff.1 h
  obtain ⟨⟨month, _⟩, hmonth, h⟩ := Option.bind_eq_some_iff.1 h
  obtain ⟨_, hdash', h⟩ := Option.bind_eq_some_iff.1 h
  obtain ⟨⟨day, _⟩, hday, h⟩ := Option.bind_eq_some_iff.1 h
  obtain ⟨_, hsep, h⟩ := Option.bind_eq_some_iff.1 h
  obtain ⟨⟨hour, _⟩, hhour, h⟩ := Option.bind_eq_some_iff.1 h
  obtain ⟨_, hcolon, h⟩ := Option.bind_eq_some_iff.1 h
  obtain ⟨⟨minute, _⟩, hminute, h⟩ := Option.bind_eq_some_iff.1 h
  obtain ⟨_, hcolon', h⟩ := Option.bind_eq_some_iff.1 h
  obtain ⟨⟨second, cs'⟩, hsecond, h⟩ := Option.bind_eq_some_iff.1 h
  obtain ⟨⟨_, _⟩, hfraction, h⟩ := Option.bind_eq_some_iff.1 h
  obtain ⟨offset, hoffset, _⟩ := Option.bind_eq_some_iff.1 h
  have one {c : Char} {cs rest : List Char} (h : expect? [c] cs = some rest) : cs = c :: rest := by
    obtain ⟨_, hc, rfl⟩ := exists_of_expect? h
    rw [List.mem_singleton.1 hc]
  cases one hdash
  cases one hdash'
  cases one hcolon
  cases one hcolon'
  obtain ⟨separator, hs, rfl⟩ := exists_of_expect? hsep
  have two {cs rest : List Char} {n : Nat} (h : fixed? 2 cs = some (n, rest)) :=
    (narrow?_of_fixed? Nat.two_pos h).2
  obtain ⟨item, hitem, hread⟩ := exists_separator hs (two hhour).1
  refine ⟨_, hitem, ⟨year, month, day, hour, minute, second⟩, cs', ?_,
    ofText_of_fraction? hfraction hoffset⟩
  rw [List.append_assoc,
    readFields?_date_of_items (year?_of_fixed? hyear) (two hmonth).2 (two hday).2,
    List.singleton_append, readFields?_cons clock (hread _),
    readFields?_clock_of_items (two hhour).2 (two hminute).2 (two hsecond).2]

theorem read?_of_readInternet? {t : Timestamp} (h : readInternet? cs = some t) :
    ∀ layout ∈ dateTimes ++ days, read? layout cs = none := by
  intro layout hm
  obtain ⟨layout', hi, f, rest, hf, hr⟩ := exists_of_readInternet? h
  exact read?_eq_none_of_areApart (areApart_internet layout hm layout' hi) hf hr

theorem readings_pairwise (cs : List Char) :
    readings.Pairwise fun read read' => read cs = none ∨ read' cs = none := by
  unfold readings
  rw [List.pairwise_cons, List.pairwise_map]
  constructor
  . intro read hm
    obtain ⟨layout, hl, rfl⟩ := List.mem_map.1 hm
    cases h : readInternet? cs with
    | none => exact .inl rfl
    | some t => exact .inr (read?_of_readInternet? h layout hl)
  . apply areApart_layouts.imp
    intro layout layout' ha
    cases h : read? layout' cs with
    | none => exact .inr rfl
    | some t =>
      obtain ⟨f, hf⟩ := readFields?_of_read? h
      exact .inl (read?_eq_none_of_areApart ha hf (.head _))

section

variable {α β : Type} {readers readers' : List (α → Option β)} {a : α}

theorem countP_isSome_le_one (h : readers.Pairwise fun f g => f a = none ∨ g a = none) :
    (readers.countP fun f => (f a).isSome) ≤ 1 := by
  induction readers with
  | nil => simp
  | cons f readers ih =>
    rw [List.pairwise_cons] at h
    rw [List.countP_cons]
    split
    . next hf =>
      have : (readers.countP fun f => (f a).isSome) = 0 := by
        rw [List.countP_eq_zero]
        intro g hg hs
        rcases h.1 g hg with hn | hn <;> simp [hn] at hf hs
      omega
    . exact ih h.2

theorem findSome?_eq_some_iff_exists (h : readers.Pairwise fun f g => f a = none ∨ g a = none)
    {b : β} : (readers.findSome? fun f => f a) = some b ↔ ∃ f ∈ readers, f a = some b := by
  constructor
  . exact List.exists_of_findSome?_eq_some
  . rintro ⟨f, hm, hf⟩
    induction readers with
    | nil => cases hm
    | cons g readers ih =>
      rw [List.pairwise_cons] at h
      rw [List.findSome?_cons]
      rcases List.mem_cons.1 hm with rfl | hm
      . rw [hf]
      . have hg : g a = none := by
          rcases h.1 f hm with hn | hn
          . exact hn
          . rw [hf] at hn
            cases hn
        rw [hg]
        exact ih h.2 hm

theorem findSome?_perm (h : readers.Pairwise fun f g => f a = none ∨ g a = none)
    (hp : readers'.Perm readers) :
    (readers'.findSome? fun f => f a) = readers.findSome? fun f => f a := by
  have h' := (hp.pairwise_iff fun hfg => hfg.symm).2 h
  ext b
  rw [findSome?_eq_some_iff_exists h, findSome?_eq_some_iff_exists h']
  simp only [hp.mem_iff]

end

/-- Whether a text has the form of a point in time with its time of day, which need not exist. -/
def HasClock (cs : List Char) : Prop :=
  (readInternet? cs).isSome ∨ ∃ layout ∈ dateTimes, ∃ f, readFields? layout {} cs = some (f, [])

theorem HasClock.read?_days (h : HasClock cs) : ∀ layout ∈ days, read? layout cs = none := by
  intro day hd
  rcases h with h | ⟨layout, hl, f, hf⟩
  . obtain ⟨t, ht⟩ := Option.isSome_iff_exists.1 h
    exact read?_of_readInternet? ht day (List.mem_append_right _ hd)
  . have hapart : ∀ day ∈ days, ∀ layout ∈ dateTimes,
        areApart [.ended] [.ended] day layout = true := by
      decide
    exact read?_eq_none_of_areApart (hapart day hd layout hl) hf (.head _)

structure ReadsOnce (text : String) : Prop where
  atMostOne : (readings.countP fun read => (read (Text.trimChars text.toList)).isSome) ≤ 1
  anyOrder : ∀ order : List (List Char → Option Timestamp), order.Perm readings →
    (order.findSome? fun read => read (Text.trimChars text.toList)) = parse? text
  keepsClock : HasClock (Text.trimChars text.toList) →
    ∀ layout ∈ days, read? layout (Text.trimChars text.toList) = none

theorem readsOnce (text : String) : ReadsOnce text where
  atMostOne := countP_isSome_le_one (readings_pairwise _)
  anyOrder _ hp := findSome?_perm (readings_pairwise _) hp
  keepsClock h := h.read?_days

-- the blank between day and time may be missing, and the fields of a day may be cut by blanks
example : (readings.map fun read => (read "2024-3-0510:20".toList).isSome) =
    [false, false, false, true, false, false, false, false, false] := by
  decide +kernel

example : (readings.map fun read => (read "+2024 3 5".toList).isSome) =
    [false, false, false, false, false, false, false, false, true] := by
  decide +kernel

end Timestamp

end SqlFilter
