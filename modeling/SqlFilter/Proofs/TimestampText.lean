import SqlFilter.Proofs.Numerals
import SqlFilter.Proofs.SafeText
import SqlFilter.Timestamp.Layout

/-!
This module contains the proof that the written forms of days and of points in time read back: of the
ways in which such a text is tried all before its own one fail, whether its year has four digits or a
sign.
-/

namespace SqlFilter

open Calendar Decimal

namespace Text

theorem isBlank_of_isDigit {c : Char} (h : c.isDigit = true) : isBlank c = false :=
  isBlank_of_isWordChar (isWordChar_of_isDigit h)

end Text

theorem Decimal.head?_padded_append (width n : Nat) (rest : List Char) :
    ∃ c, ((padded width n).toList ++ rest).head? = some c ∧ c.isDigit = true := by
  cases hp : (padded width n).toList with
  | nil => exact absurd hp (padded_ne_nil width n)
  | cons c cs =>
    refine ⟨c, rfl, ?_⟩
    exact isDigit_of_mem_padded c (by rw [hp]; exact List.mem_cons_self)

theorem Decimal.getLast?_append_padded (front : List Char) (width n : Nat) :
    ∃ c, (front ++ (padded width n).toList).getLast? = some c ∧ c.isDigit = true := by
  have hne := padded_ne_nil width n
  rw [List.getLast?_append_of_ne_nil _ hne, List.getLast?_eq_some_getLast hne]
  exact ⟨_, rfl, isDigit_of_mem_padded _ (List.getLast_mem hne)⟩

namespace Date

theorem month_lt (d : Date) : d.month < 10 ^ 2 := by
  have := d.inYear
  omega

theorem day_lt (d : Date) : d.day < 10 ^ 2 := by
  have hlast (leap : Bool) (month : Nat) : daysInMonth leap month ≤ 31 := by
    unfold daysInMonth
    split
    . split <;> omega
    all_goals omega
  have := d.inMonth.2
  have := hlast (isLeapYear d.year) d.month
  omega

theorem toList_yearText (year : Int) : ∃ c ds, (yearText year).toList = c :: ds ∧
    ((0 ≤ year ∧ year ≤ 9999) ∧ c.isDigit = true ∨ year < 0 ∧ c = '-' ∨
      9999 < year ∧ c = '+') := by
  unfold yearText
  split
  . next h =>
    cases hp : (padded 4 year.toNat).toList with
    | nil => exact absurd hp (padded_ne_nil 4 _)
    | cons c ds =>
      refine ⟨c, ds, rfl, .inl ⟨h, ?_⟩⟩
      exact isDigit_of_mem_padded c (by rw [hp]; exact List.mem_cons_self)
  . next h =>
    rw [String.toList_append]
    split
    . next hneg => exact ⟨'-', _, rfl, .inr (.inl ⟨hneg, rfl⟩)⟩
    . next hpos => exact ⟨'+', _, rfl, .inr (.inr ⟨by omega, rfl⟩)⟩

theorem toList_text_append (d : Date) (rest : List Char) :
    d.text.toList ++ rest = (yearText d.year).toList ++ ('-' :: ((padded 2 d.month).toList ++
      ('-' :: ((padded 2 d.day).toList ++ rest)))) := by
  simp [text]

end Date

namespace Timestamp

theorem toList_clockText (t : Timestamp) :
    t.clockText.toList = (padded 2 (t.minuteOfDay.val / 60)).toList ++
      (':' :: ((padded 2 (t.minuteOfDay.val % 60)).toList ++
        (':' :: ((padded 2 t.second.val).toList ++ [])))) := by
  simp [clockText]

theorem toList_text (t : Timestamp) :
    t.text.toList = t.date.text.toList ++ ' ' :: t.clockText.toList := by
  simp [text]

end Timestamp

namespace Layout

variable {width n : Nat} {rest : List Char}

theorem skipBlanks_padded :
    Text.skipBlanks ((padded width n).toList ++ rest) = (padded width n).toList ++ rest := by
  obtain ⟨c, hc, hd⟩ := head?_padded_append width n rest
  exact Text.skipBlanks_of_head? hc (Text.isBlank_of_isDigit hd)

theorem number?_padded : number? (padded width n).toList = some n := by
  have : (padded width n).toList.isEmpty = false := by
    simpa using padded_ne_nil width n
  rw [number?, this, digitsValue_padded]
  rfl

theorem narrow?_padded (hw : 0 < width) (h : n < 10 ^ width) :
    narrow? width ((padded width n).toList ++ rest) = some (n, rest) := by
  have htake : ((padded width n).toList ++ rest).take width = (padded width n).toList :=
    List.take_left' (length_padded hw h)
  have hdigits : ((padded width n).toList ++ []).takeWhile Char.isDigit =
      (padded width n).toList :=
    Text.takeWhile_digits isDigit_of_mem_padded (by simp)
  rw [List.append_nil] at hdigits
  rw [narrow?, skipBlanks_padded, htake, hdigits, number?_padded, List.drop_left]
  rfl

theorem wide?_padded (hr : ∀ c, rest.head? = some c → c.isDigit = false) :
    wide? ((padded width n).toList ++ rest) = some (n, rest) := by
  have hdrop : ((padded width n).toList ++ rest).dropWhile Char.isDigit = rest := by
    rw [List.dropWhile_append_of_pos isDigit_of_mem_padded]
    cases rest with
    | nil => rfl
    | cons c cs => rw [List.dropWhile_cons_of_neg (by simp [hr c rfl])]
  rw [wide?, Text.takeWhile_digits isDigit_of_mem_padded hr, number?_padded, hdrop]
  rfl

theorem year?_minus (cs : List Char) :
    year? ('-' :: cs) = (wide? cs).map fun (n, rest) => (-(n : Int), rest) := by
  have hskip : Text.skipBlanks ('-' :: cs) = '-' :: cs :=
    Text.skipBlanks_of_head? rfl (by decide)
  rw [year?, hskip]
  rfl

theorem year?_plus (cs : List Char) :
    year? ('+' :: cs) = (wide? cs).map fun (n, rest) => ((n : Int), rest) := by
  have hskip : Text.skipBlanks ('+' :: cs) = '+' :: cs :=
    Text.skipBlanks_of_head? rfl (by decide)
  rw [year?, hskip]
  rfl

theorem year?_padded (h : n < 10000) :
    year? ((padded 4 n).toList ++ rest) = some ((n : Int), rest) := by
  obtain ⟨c, hc, hd⟩ := head?_padded_append 4 n rest
  unfold year?
  rw [skipBlanks_padded]
  split
  . next heq =>
    rw [heq] at hc
    cases hc
    exact absurd hd (by decide)
  . next heq =>
    rw [heq] at hc
    cases hc
    exact absurd hd (by decide)
  . rw [narrow?_padded (by omega) h]
    rfl

theorem year?_yearText (year : Int) (hr : ∀ c, rest.head? = some c → c.isDigit = false) :
    year? ((Date.yearText year).toList ++ rest) = some (year, rest) := by
  unfold Date.yearText
  split
  . next h =>
    rw [year?_padded (by omega)]
    simp [h.1]
  . rw [String.toList_append, List.append_assoc]
    split
    . rw [show "-".toList = ['-'] from rfl, List.singleton_append, year?_minus, wide?_padded hr]
      simp only [Option.map_some]
      congr 2
      omega
    . rw [show "+".toList = ['+'] from rfl, List.singleton_append, year?_plus, wide?_padded hr]
      simp only [Option.map_some]
      congr 2
      omega

variable {f : Fields} {layout : Layout}

theorem readFields?_date (sep : Char) (d : Date) :
    readFields? (date sep ++ layout) f (d.text.toList ++ rest) =
      if sep = '-' then
        readFields? layout { f with year := d.year, month := d.month, day := d.day } rest
      else none := by
  rw [d.toList_text_append, date]
  simp only [List.cons_append, List.nil_append, readFields?, readItem?]
  rw [year?_yearText d.year (by rintro c ⟨⟩; decide)]
  simp only [Option.map_some, Option.bind_some]
  by_cases hs : '-' = sep
  . rw [if_pos hs, if_pos hs.symm, Option.bind_some]
    simp only
    rw [narrow?_padded (by omega) d.month_lt]
    simp only [Option.map_some, Option.bind_some]
    rw [if_pos hs, Option.bind_some]
    simp only
    rw [narrow?_padded (by omega) d.day_lt]
    simp only [Option.map_some, Option.bind_some]
  . rw [if_neg hs, if_neg (Ne.symm hs), Option.bind_none]

theorem readFields?_clock (t : Timestamp) : readFields? clock f t.clockText.toList =
    some ({ f with
      hour := t.minuteOfDay.val / 60, minute := t.minuteOfDay.val % 60, second := t.second.val },
      []) := by
  have hhour : t.minuteOfDay.val / 60 < 10 ^ 2 := by omega
  have hminute : t.minuteOfDay.val % 60 < 10 ^ 2 := by omega
  have hsecond : t.second.val < 10 ^ 2 := by omega
  rw [t.toList_clockText, clock, hourMinute]
  simp only [List.cons_append, List.nil_append, readFields?, readItem?]
  rw [narrow?_padded (by omega) hhour]
  simp only [Option.map_some, Option.bind_some, if_true]
  rw [narrow?_padded (by omega) hminute]
  simp only [Option.map_some, Option.bind_some, if_true]
  rw [narrow?_padded (by omega) hsecond]
  rfl

theorem skipBlanks_clockText (t : Timestamp) :
    Text.skipBlanks (' ' :: t.clockText.toList) = t.clockText.toList := by
  have hskip : Text.skipBlanks (' ' :: t.clockText.toList) = Text.skipBlanks t.clockText.toList :=
    List.dropWhile_cons_of_pos (by decide)
  rw [hskip, t.toList_clockText, skipBlanks_padded]

theorem timestamp?_clock (t : Timestamp) :
    (Fields.mk t.date.year t.date.month t.date.day (t.minuteOfDay.val / 60)
      (t.minuteOfDay.val % 60) t.second.val).timestamp? = some { t with nanosecond := 0 } := by
  have hhour : t.minuteOfDay.val / 60 < 24 := by omega
  have hminute : t.minuteOfDay.val % 60 < 60 := by omega
  have hparts : 60 * (t.minuteOfDay.val / 60) + t.minuteOfDay.val % 60 = t.minuteOfDay.val := by
    omega
  rw [Fields.timestamp?, Date.ofYmd?_self, Option.bind_some]
  simp only [Timestamp.ofParts?, hhour, hminute, t.second.isLt, hparts, dite_true]
  rfl

theorem read?_of_some {cs : List Char} (h : readFields? layout {} cs = some (f, [])) :
    read? layout cs = f.timestamp? := by
  rw [read?, h]

theorem read?_of_none {cs : List Char} (h : readFields? layout {} cs = none) :
    read? layout cs = none := by
  rw [read?, h]

theorem read?_text (t : Timestamp) :
    read? (date '-' ++ [.blanks] ++ clock) t.text.toList = some { t with nanosecond := 0 } := by
  rw [← timestamp?_clock t]
  apply read?_of_some
  rw [t.toList_text, List.append_assoc, readFields?_date, if_pos rfl, List.singleton_append,
    readFields?, readItem?, Option.bind_some]
  dsimp only
  rw [skipBlanks_clockText, readFields?_clock]

theorem readFields?_dateText (sep : Char) (layout : Layout) (d : Date) :
    readFields? (date sep ++ layout) {} d.text.toList =
      if sep = '-' then readFields? layout ⟨d.year, d.month, d.day, 0, 0, 0⟩ [] else none := by
  have h : readFields? (date sep ++ layout) {} (d.text.toList ++ []) = _ := readFields?_date sep d
  rwa [List.append_nil] at h

theorem read?_dateText (d : Date) : read? (date '-') d.text.toList = some (.midnight d) := by
  have h := readFields?_dateText '-' [] d
  rw [if_pos rfl, List.append_nil] at h
  rw [read?_of_some h]
  simpa [Timestamp.midnight] using timestamp?_clock (.midnight d)

theorem read?_dateText_eq_none (d : Date) :
    ∀ layout ∈ dateTimes, read? layout d.text.toList = none := by
  have hread (sep : Char) (layout : Layout) (h : ∀ f, readFields? layout f [] = none) :
      read? (date sep ++ layout) d.text.toList = none := by
    apply read?_of_none
    rw [readFields?_dateText, h, ite_self]
  intro layout hm
  simp only [dateTimes, List.mem_cons, List.not_mem_nil, or_false, List.append_assoc] at hm
  rcases hm with rfl | rfl | rfl | rfl | rfl <;> exact hread _ _ fun f => rfl

end Layout

namespace Timestamp

open Layout

theorem fixed?_padded {width n : Nat} {rest : List Char} (hw : 0 < width) (h : n < 10 ^ width) :
    fixed? width ((padded width n).toList ++ rest) = some (n, rest) := by
  have hlength := length_padded hw h
  have hall : (padded width n).toList.all Char.isDigit = true :=
    List.all_eq_true.2 isDigit_of_mem_padded
  rw [fixed?, List.take_left' hlength, List.drop_left' hlength]
  simp only [hlength, hall, and_self, if_true, digitsValue_padded]

theorem fixed?_of_sign {c : Char} (h : c.isDigit = false) (width : Nat) (cs : List Char) :
    fixed? (width + 1) (c :: cs) = none := by
  simp [fixed?, h]

theorem readInternet?_yearText {year : Int} (h : ¬(0 ≤ year ∧ year ≤ 9999)) (rest : List Char) :
    readInternet? ((Date.yearText year).toList ++ rest) = none := by
  obtain ⟨c, ds, hy, hc⟩ := Date.toList_yearText year
  have hsign : c.isDigit = false := by
    rcases hc with ⟨hyear, _⟩ | ⟨_, rfl⟩ | ⟨_, rfl⟩
    . exact absurd hyear h
    . decide
    . decide
  rw [hy, List.cons_append, readInternet?, fixed?_of_sign hsign]
  rfl

theorem fixed?_yearText {year : Int} (h : 0 ≤ year ∧ year ≤ 9999) (rest : List Char) :
    fixed? 4 ((Date.yearText year).toList ++ rest) = some (year.toNat, rest) := by
  rw [Date.yearText, if_pos h]
  exact fixed?_padded (by omega) (by omega)

theorem expect?_cons {allowed : List Char} {c : Char} (h : allowed.contains c = true)
    (rest : List Char) : expect? allowed (c :: rest) = some rest := by
  rw [expect?, if_pos h]

theorem readInternet?_dateText (d : Date) : readInternet? d.text.toList = none := by
  rw [← List.append_nil d.text.toList, d.toList_text_append]
  by_cases h : 0 ≤ d.year ∧ d.year ≤ 9999
  . have hdash (rest : List Char) : expect? ['-'] ('-' :: rest) = some rest :=
      expect?_cons rfl rest
    simp only [readInternet?, bind, fixed?_yearText h, hdash, fixed?_padded Nat.two_pos d.month_lt,
      fixed?_padded Nat.two_pos d.day_lt, Option.bind_some]
    rfl
  . exact readInternet?_yearText h _

theorem readInternet?_text (t : Timestamp) : readInternet? t.text.toList = none := by
  have hhour : t.minuteOfDay.val / 60 < 10 ^ 2 := by omega
  have hminute : t.minuteOfDay.val % 60 < 10 ^ 2 := by omega
  have hsecond : t.second.val < 10 ^ 2 := by omega
  rw [t.toList_text, t.date.toList_text_append, t.toList_clockText]
  by_cases h : 0 ≤ t.date.year ∧ t.date.year ≤ 9999
  . have hdash (rest : List Char) : expect? ['-'] ('-' :: rest) = some rest :=
      expect?_cons rfl rest
    have hblank (rest : List Char) : expect? ['T', 't', ' '] (' ' :: rest) = some rest :=
      expect?_cons rfl rest
    have hcolon (rest : List Char) : expect? [':'] (':' :: rest) = some rest :=
      expect?_cons rfl rest
    simp only [readInternet?, bind, fixed?_yearText h, hdash, hblank, hcolon,
      fixed?_padded Nat.two_pos t.date.month_lt, fixed?_padded Nat.two_pos t.date.day_lt,
      fixed?_padded Nat.two_pos hhour, fixed?_padded Nat.two_pos hminute,
      fixed?_padded Nat.two_pos hsecond, Option.bind_some]
    rfl
  . exact readInternet?_yearText h _

theorem head?_dateText (d : Date) (rest : List Char) :
    ∃ c, (d.text.toList ++ rest).head? = some c ∧ Text.isBlank c = false := by
  obtain ⟨c, ds, hy, hc⟩ := Date.toList_yearText d.year
  refine ⟨c, by rw [d.toList_text_append, hy]; rfl, ?_⟩
  rcases hc with ⟨_, hdigit⟩ | ⟨_, rfl⟩ | ⟨_, rfl⟩
  . exact Text.isBlank_of_isDigit hdigit
  . decide
  . decide

theorem parse?_dateText (d : Date) : parse? d.text = some (midnight d) := by
  have htrim : Text.trimChars d.text.toList = d.text.toList := by
    obtain ⟨first, hfirst, hfb⟩ := head?_dateText d []
    obtain ⟨last, hlast, hld⟩ := getLast?_append_padded
      (Date.yearText d.year ++ "-" ++ padded 2 d.month ++ "-").toList 2 d.day
    rw [List.append_nil] at hfirst
    rw [← String.toList_append] at hlast
    exact Text.trimChars_eq_self hfirst hfb hlast (Text.isBlank_of_isDigit hld)
  have hdateTimes : (dateTimes.map read?).findSome? (fun read => read d.text.toList) = none := by
    rw [List.findSome?_eq_none_iff]
    intro read hm
    obtain ⟨layout, hl, rfl⟩ := List.mem_map.1 hm
    exact read?_dateText_eq_none d layout hl
  rw [parse?, htrim, readings, List.findSome?_cons, readInternet?_dateText, List.map_append,
    List.findSome?_append, hdateTimes, days, List.map_cons, List.findSome?_cons, read?_dateText]
  rfl

theorem parse?_text (t : Timestamp) : parse? t.text = some { t with nanosecond := 0 } := by
  have htrim : Text.trimChars t.text.toList = t.text.toList := by
    obtain ⟨first, hfirst, hfb⟩ := head?_dateText t.date (' ' :: t.clockText.toList)
    obtain ⟨last, hlast, hld⟩ := getLast?_append_padded (t.date.text ++ " " ++
      (padded 2 (t.minuteOfDay.val / 60) ++ ":" ++ padded 2 (t.minuteOfDay.val % 60) ++ ":")).toList
        2 t.second.val
    rw [← t.toList_text] at hfirst
    rw [← String.toList_append, String.append_assoc, ← clockText] at hlast
    exact Text.trimChars_eq_self hfirst hfb hlast (Text.isBlank_of_isDigit hld)
  rw [parse?, htrim, readings, List.findSome?_cons, readInternet?_text, dateTimes,
    List.cons_append, List.map_cons, List.findSome?_cons, read?_text]

end Timestamp

end SqlFilter
