import SqlFilter.Proofs.LiteralOrder
import SqlFilter.Proofs.SingleCondition

/-!
This module contains the proof that ranges of times select the instants asked for. The bounds of a
range are bound as literals of the column, which are ordered like the instants; a range without its
begin becomes a comparison, which ends where the range would.
-/

namespace SqlFilter

open Binder Timestamp

def Schema.temporalFamily? (schema : Schema) (name : String) : Option TemporalFamily :=
  (schema.declaredType? name).bind TemporalFamily.ofDeclared?

theorem TemporalFamily.le_endOfDay_iff (family : TemporalFamily) {seconds e : Int}
    (hday : family = .date → 86400 ∣ e) :
    seconds / family.step ≤ (e + endOfDaySeconds) / family.step ↔
      seconds / family.step < (e + daySeconds) / family.step := by
  unfold endOfDaySeconds daySeconds
  cases family with
  | dateTime =>
    simp only [step, Int.ediv_one]
    omega
  | date =>
    have := hday rfl
    simp only [step]
    omega

namespace Value

theorem exists_int64 {n : Int} (hl : minUnixSeconds ≤ n) (hu : n ≤ maxUnixSeconds) :
    ∃ i, int64? n = some i ∧ i.toInt = n := by
  have hmin : Int64.minValue.toInt ≤ minUnixSeconds := by decide
  have hmax : maxUnixSeconds ≤ Int64.maxValue.toInt := by decide
  have hsome : int64? n = some (Int64.ofInt n) := by
    rw [int64?, if_pos ⟨Int.le_trans hmin hl, Int.le_trans hu hmax⟩]
  exact ⟨_, hsome, toInt_of_int64? hsome⟩

theorem exists_literal {i : Int64} (hl : minUnixSeconds ≤ i.toInt) (hu : i.toInt ≤ maxUnixSeconds)
    (family : TemporalFamily) : ∃ t : Timestamp, t.IsInstant i.toInt ∧
      (integer i).normalizeTemporal family = .text (family.literal t) := by
  obtain ⟨t, ht⟩ := exists_isInstant hl hu
  exact ⟨t, ht, normalizeTemporal_integer ht family⟩

theorem exists_literal_of_inYears {i : Int64} (h : InYears i.toInt) (family : TemporalFamily) :
    ∃ t : Timestamp, t.IsInstant i.toInt ∧
      (integer i).normalizeTemporal family = .text (family.literal t) :=
  exists_literal h.minUnixSeconds_le h.le_maxUnixSeconds family

theorem exists_moved {i : Int64} (seconds : Int) (hl : minUnixSeconds ≤ i.toInt + seconds)
    (hu : i.toInt + seconds ≤ maxUnixSeconds) (family : TemporalFamily) :
    ∃ (j : Int64) (t : Timestamp), (integer i).addSeconds? seconds = some (.integer j) ∧
      t.IsInstant (i.toInt + seconds) ∧
      (integer j).normalizeTemporal family = .text (family.literal t) := by
  obtain ⟨j, hj, hsum⟩ := exists_int64 hl hu
  rw [← hsum] at hl hu ⊢
  obtain ⟨t, ht, hliteral⟩ := exists_literal hl hu family
  refine ⟨j, t, ?_, ht, hliteral⟩
  rw [addSeconds?, hj, Option.map_some]

theorem isNull_of_isBlank_eq_false {v : Value} (h : v.isBlank = false) : v.isNull = false := by
  cases v with
  | null => cases h
  | _ => rfl

theorem isBlank_ofJson_int (n : Int) : (Value.ofJson (.int n)).isBlank = false := by
  simp only [Value.ofJson]
  split <;> rfl

end Value

namespace Operator

theorem applied_betweenTime (field low high : String) :
    betweenTime.applied field (low ++ " AND " ++ high) =
      field ++ " BETWEEN " ++ low ++ " AND " ++ high := by
  have hsql : field ++ " " ++ betweenTime.sql ++ " " = field ++ " BETWEEN " := by
    simp only [String.append_assoc]
    rfl
  rw [applied, hsql, ← String.append_assoc, ← String.append_assoc]

theorem applied_timeLess (field right : String) :
    timeLess.applied field right = field ++ " < " ++ right := by
  have hsql : field ++ " " ++ timeLess.sql ++ " " = field ++ " < " := by
    simp only [String.append_assoc]
    rfl
  rw [applied, hsql]

end Operator

namespace Compiler

variable {c : Compiler} {name sql token : String} {op : Operator} {table : BindTable}

theorem register_numbered (h : table.Numbered) (type : BindType) (v : Value) :
    Binder.register type v table =
      .ok (numberedPlaceholder table.stem (table.counter + 1), table.push v type) := by
  rw [← BindTable.placeholder_eq]
  simp only [Binder.register, h.register_eq]
  rfl

theorem normalizeFor_eq {family : TemporalFamily}
    (hf : c.schema.temporalFamily? name = some family) (v : Value) :
    c.normalizeFor (some name) v = v.normalizeTemporal family := by
  have hfamily : ((some name).bind c.schema.declaredType?).bind TemporalFamily.ofDeclared? =
      some family := hf
  rw [normalizeFor, hfamily]

section Field

variable (hcol : c.column name = .ok sql) (hop : c.operators.resolve? token = some op)

include hcol hop

theorem clauseText_timeRange (hf : op.family = .betweenTime) {low high last : Value}
    (hlow : low.isNull = false) (hhigh : high.isNull = false)
    (hlast : high.addSeconds? endOfDaySeconds = some last) (ht : table.Numbered) :
    ∃ type, c.clauseText (Condition.of (.ofName name) token (.list [low, high])).clause table =
      .ok (op.applied sql (numberedPlaceholder table.stem (table.counter + 1) ++ " AND " ++
          numberedPlaceholder table.stem (table.counter + 2)),
        (table.push (c.normalizeFor (some name) low) type).push
          (c.normalizeFor (some name) last) type) := by
  have hbounds : op.bounds (.list [low, high]) = .ok (low, high) := by
    rw [Operator.bounds_list, Operator.boundsOfList, hlow, hhigh]
    rfl
  refine ⟨c.bindType ⟨token, none, .and⟩ op (some name), ?_⟩
  rw [clauseText_column hcol hop fun _ _ => rfl, nested, operandText]
  simp only [isEmpty_of_column hcol, Bool.false_and, Bool.false_eq_true, if_false, hf]
  rw [timeRangeText, run_lift_bind, hbounds, ok_bind]
  simp only [hlast]
  rw [Operator.rangeText, run_bind, register_numbered ht, ok_bind, run_bind,
    register_numbered (ht.push _ _), ok_bind]
  rfl

theorem clauseText_time (hf : op.family = .time) {v : Value} (hv : v.isNull = false)
    (ht : table.Numbered) :
    ∃ type, c.clauseText (Condition.of (.ofName name) token (.value v)).clause table =
      .ok (op.applied sql (numberedPlaceholder table.stem (table.counter + 1)),
        table.push (c.normalizeFor (some name) v) type) := by
  refine ⟨c.bindType ⟨token, none, .and⟩ op (some name), ?_⟩
  rw [clauseText_column hcol hop fun _ _ => rfl, nested, operandText]
  simp only [isEmpty_of_column hcol, Bool.false_and, Bool.false_eq_true, if_false, hf]
  rw [timeText, if_neg (by simp [hv]), run_bind, register_numbered ht, ok_bind]
  rfl

end Field

section Decoding

variable {low high : Json} (hop : c.operators.resolve? token = some .betweenTime)

include hop

theorem conditionOfJson_betweenTime (name : String) (operand : Json) :
    c.conditionOfJson name (.array [.string token, operand]) =
      (halfOpenRange .betweenTime operand).map fun pair? =>
        let pair := pair?.getD (Operator.betweenTime.token, .ofJson operand)
        .of (.ofName name) pair.1 pair.2 := by
  have hpair : c.pairOfJson token [operand] =
      (halfOpenRange .betweenTime operand).map fun pair? =>
        pair?.getD (Operator.betweenTime.token, .ofJson operand) := by
    rw [pairOfJson, OperatorTable.resolve, hop]
    change (halfOpenRange .betweenTime operand >>= _) = _
    cases halfOpenRange .betweenTime operand with
    | error e => rfl
    | ok pair? => cases pair? <;> rfl
  unfold conditionOfJson
  dsimp only
  rw [hpair]
  cases halfOpenRange .betweenTime operand <;> rfl

theorem conditionOfJson_timeRange (name : String) (hlow : (Value.ofJson low).isBlank = false)
    (hhigh : (Value.ofJson high).isBlank = false) :
    c.conditionOfJson name (.array [.string token, .array [low, high]]) =
      .ok (.of (.ofName name) Operator.betweenTime.token
        (.list [.ofJson low, .ofJson high])) := by
  have hclosed : halfOpenRange .betweenTime (.array [low, high]) = .ok none := by
    simp [halfOpenRange, Json.bounds?, hlow, hhigh]
  rw [conditionOfJson_betweenTime hop, hclosed]
  rfl

theorem conditionOfJson_openTimeRange (name : String) (hlow : (Value.ofJson low).isBlank = true)
    (hhigh : (Value.ofJson high).isBlank = false) {next : Value}
    (hnext : (Value.ofJson high).addSeconds? daySeconds = some next) :
    c.conditionOfJson name (.array [.string token, .array [low, high]]) =
      .ok (.of (.ofName name) Operator.timeLess.token (.value next)) := by
  have hopen : halfOpenRange .betweenTime (.array [low, high]) =
      .ok (some (Operator.timeLess.token, .value next)) := by
    simp [halfOpenRange, Json.bounds?, hlow, hhigh, hnext]
  rw [conditionOfJson_betweenTime hop, hopen]
  rfl

end Decoding

theorem compileCondition_timeRange (ho : c.operators = .standard) (hs : c.softDelete = none)
    (hcol : c.column name = .ok sql)
    (hf : c.schema.temporalFamily? name = some .dateTime) {s e : Int64} (hlow : InYears s.toInt)
    (hhigh : InYears (e.toInt + 86399)) :
    (∃ low high type,
      c.compileCondition
          (.of (.ofName name) Operator.betweenTime.token (.list [.integer s, .integer e])) =
        .ok ⟨sql ++ " BETWEEN " ++ numberedPlaceholder c.config.bindStem 1 ++ " AND " ++
            numberedPlaceholder c.config.bindStem 2,
          [⟨c.config.bindStem ++ Decimal.natText 1, .text low, type⟩,
            ⟨c.config.bindStem ++ Decimal.natText 2, .text high, type⟩], c.placeholder⟩ ∧
      ∀ t : Int64, InYears t.toInt → ∃ literal,
        (Value.integer t).normalizeTemporal .dateTime = .text literal ∧
          (low ≤ literal ∧ literal ≤ high ↔
            s.toInt ≤ t.toInt ∧ t.toInt ≤ e.toInt + 86399)) ∧
    ∀ t u : Int64, InYears t.toInt → InYears u.toInt → ∃ literal literal',
      (Value.integer t).normalizeTemporal .dateTime = .text literal ∧
        (Value.integer u).normalizeTemporal .dateTime = .text literal' ∧
        (literal < literal' ↔ t.toInt < u.toInt) := by
  have hop : c.operators.resolve? Operator.betweenTime.token = some .betweenTime := by
    rw [ho, OperatorTable.standard_resolve?_token]
  obtain ⟨tlow, htlow, hlowText⟩ := Value.exists_literal_of_inYears hlow .dateTime
  obtain ⟨last, thigh, hlast, hthigh, hhighText⟩ := Value.exists_moved
    endOfDaySeconds hhigh.minUnixSeconds_le hhigh.le_maxUnixSeconds .dateTime
  have hnull (i : Int64) : (Value.integer i).isNull = false := rfl
  obtain ⟨type, htext⟩ := clauseText_timeRange hcol hop rfl (hnull s) (hnull e) hlast
    (BindTable.numbered_empty c.config.bindStem)
  rw [normalizeFor_eq hf, normalizeFor_eq hf, hlowText, hhighText] at htext
  refine ⟨⟨TemporalFamily.literal .dateTime tlow, TemporalFamily.literal .dateTime thigh, type,
    ?_, fun t ht => ?_⟩, fun t u ht hu => ?_⟩
  . rw [compileCondition_of_clauseText htext, completed_of_none hs, Operator.applied_betweenTime]
    rfl
  . obtain ⟨instant, hi, hliteral⟩ := Value.exists_literal_of_inYears ht .dateTime
    refine ⟨_, hliteral, ?_⟩
    rw [TemporalFamily.literal_le_iff _ hi htlow ht.2 hlow,
      TemporalFamily.literal_le_iff _ hthigh hi hhigh.2 ht]
    simp [TemporalFamily.step, endOfDaySeconds]
  . obtain ⟨instant, hi, hliteral⟩ := Value.exists_literal_of_inYears ht .dateTime
    obtain ⟨instant', hi', hliteral'⟩ := Value.exists_literal_of_inYears hu .dateTime
    refine ⟨_, _, hliteral, hliteral', ?_⟩
    rw [TemporalFamily.literal_lt_iff _ hi hi' ht.2 hu]
    simp [TemporalFamily.step]

theorem compileCondition_timeRange_newYear :
    ∃ low high type,
      (standard { columns := [("created", "datetime")] }).compileCondition
          (.of (.ofName "created") "BETWEEN TIME"
            (.list [.integer 1704067200, .integer 1704067200])) =
        .ok ⟨"created BETWEEN :p1 AND :p2", [⟨"p1", .text low, type⟩, ⟨"p2", .text high, type⟩],
          .named⟩ ∧
      ∀ t : Int64, InYears t.toInt → ∃ literal,
        (Value.integer t).normalizeTemporal .dateTime = .text literal ∧
          (low ≤ literal ∧ literal ≤ high ↔
            1704067200 ≤ t.toInt ∧ t.toInt ≤ 1704153599) := by
  have hcol : (standard { columns := [("created", "datetime")] }).column "created" =
      .ok "created" :=
    column_of_check rfl rfl
  obtain ⟨low, high, type, hcompile, hselects⟩ := (compileCondition_timeRange rfl rfl hcol
    (by decide +kernel) (s := 1704067200) (e := 1704067200) (by decide) (by decide)).1
  refine ⟨low, high, type, ?_, hselects⟩
  simp only [numberedPlaceholder, Decimal.natText_one, Decimal.natText_two] at hcompile
  exact hcompile

/-- Names that no column can have are refused, even if they have a declared type; and in strict mode
so are names of which the column alone is declared. -/
theorem compileCondition_timeRange_refused :
    ∃ c, Compiler.new { compiler := { strictFields := true } }
          { columns := [("created", "datetime"), ("created at", "datetime")] } = .ok c ∧
      c.operators = .standard ∧ c.softDelete = none ∧
      c.schema.temporalFamily? "x.created" = some .dateTime ∧
      c.schema.temporalFamily? "created at" = some .dateTime ∧
      InYears 0 ∧ InYears (0 + 86399) ∧
      c.compileCondition (.of (.ofName "x.created") "BETWEEN TIME"
        (.list [.integer 0, .integer 0])) = .error (.strictField "x.created") ∧
      c.compileCondition (.of (.ofName "created at") "BETWEEN TIME"
        (.list [.integer 0, .integer 0])) = .error (.identifier (.badCharacters "created at")) :=
  ⟨_, rfl, rfl, rfl, by decide +kernel, by decide +kernel, by decide, by decide, rfl, rfl⟩

section Maps

variable (ho : c.operators = .standard) (hop : c.operators.resolve? token = some .betweenTime)
  (hk : WhereMap.isReserved name = false) (hcol : c.column name = .ok sql)
  {family : TemporalFamily} (hf : c.schema.temporalFamily? name = some family) {low high : Json}

include ho hop hk hcol hf

theorem compile_timeRange (hlow : (Value.ofJson low).isBlank = false)
    (hhigh : (Value.ofJson high).isBlank = false) {last : Value}
    (hlast : (Value.ofJson high).addSeconds? endOfDaySeconds = some last) :
    ∃ type, c.compile (.map [(name, .array [.string token, .array [low, high]])]) =
      c.completed ("( " ++ (sql ++ " BETWEEN " ++ numberedPlaceholder c.config.bindStem 1 ++
          " AND " ++ numberedPlaceholder c.config.bindStem 2) ++ " )")
        (((BindTable.empty c.config.bindStem).push
          ((Value.ofJson low).normalizeTemporal family) type).push
            (last.normalizeTemporal family) type) := by
  have hown : c.operators.resolve? Operator.betweenTime.token = some .betweenTime := by
    rw [ho, OperatorTable.standard_resolve?_token]
  have hcheck := check_of_column hcol
  obtain ⟨type, htext⟩ := clauseText_timeRange hcol hown rfl
    (Value.isNull_of_isBlank_eq_false hlow) (Value.isNull_of_isBlank_eq_false hhigh) hlast
    (BindTable.numbered_empty c.config.bindStem)
  rw [normalizeFor_eq hf, normalizeFor_eq hf, Operator.applied_betweenTime] at htext
  refine ⟨type, compile_of_clauseText ⟨hcheck, hk⟩
    (conditionOfJson_timeRange hop name hlow hhigh) ?_ (by simp) htext⟩
  apply Condition.isSimple_of_check hcheck
  rintro items connective ⟨⟩

theorem compile_openTimeRange (hlow : (Value.ofJson low).isBlank = true)
    (hhigh : (Value.ofJson high).isBlank = false) {next : Value}
    (hnext : (Value.ofJson high).addSeconds? daySeconds = some next) (hnull : next.isNull = false) :
    ∃ type, c.compile (.map [(name, .array [.string token, .array [low, high]])]) =
      c.completed ("( " ++ (sql ++ " < " ++ numberedPlaceholder c.config.bindStem 1) ++ " )")
        ((BindTable.empty c.config.bindStem).push (next.normalizeTemporal family) type) := by
  have hown : c.operators.resolve? Operator.timeLess.token = some .timeLess := by
    rw [ho, OperatorTable.standard_resolve?_token]
  have hcheck := check_of_column hcol
  obtain ⟨type, htext⟩ := clauseText_time hcol hown rfl hnull
    (BindTable.numbered_empty c.config.bindStem)
  rw [normalizeFor_eq hf, Operator.applied_timeLess] at htext
  refine ⟨type, compile_of_clauseText ⟨hcheck, hk⟩
    (conditionOfJson_openTimeRange hop name hlow hhigh hnext) ?_ (by simp) htext⟩
  apply Condition.isSimple_of_check hcheck
  rintro items connective ⟨⟩

theorem compile_timeRange_end (s : Int) {e : Int} (he : InYears (e + 86400))
    (hday : family = .date → 86400 ∣ e) :
    ∃ upper before type type',
      c.compile (.map [(name, .array [.string token, .array [.int s, .int e]])]) =
        c.completed ("( " ++ (sql ++ " BETWEEN " ++ numberedPlaceholder c.config.bindStem 1 ++
            " AND " ++ numberedPlaceholder c.config.bindStem 2) ++ " )")
          (((BindTable.empty c.config.bindStem).push
            ((Value.ofJson (.int s)).normalizeTemporal family) type).push (.text upper) type) ∧
      c.compile (.map [(name, .array [.string token, .array [.string "", .int e]])]) =
        c.completed ("( " ++ (sql ++ " < " ++ numberedPlaceholder c.config.bindStem 1) ++ " )")
          ((BindTable.empty c.config.bindStem).push (.text before) type') ∧
      ∀ t : Int64, InYears t.toInt → ∃ literal,
        (Value.integer t).normalizeTemporal family = .text literal ∧
          (literal ≤ upper ↔ literal < before) := by
  obtain ⟨hmin, hmax⟩ : minUnixSeconds + 86400 ≤ e ∧ e + 86400 ≤ lastOfYears := by
    unfold InYears firstOfYears lastOfYears at he
    unfold minUnixSeconds lastOfYears
    omega
  have hlastOfYears : lastOfYears ≤ maxUnixSeconds := by decide
  obtain ⟨i, hi, rfl⟩ := Value.exists_int64 (n := e) (by omega) (by omega)
  have hvalue : Value.ofJson (.int i.toInt) = .integer i := by
    rw [Value.ofJson, hi]
  obtain ⟨last, tlast, hlast, htlast, hlastText⟩ := Value.exists_moved (i := i)
    endOfDaySeconds (by unfold endOfDaySeconds; omega)
    (by unfold endOfDaySeconds; omega) family
  obtain ⟨next, tnext, hnext, htnext, hnextText⟩ := Value.exists_moved (i := i)
    daySeconds he.minUnixSeconds_le he.le_maxUnixSeconds family
  rw [← hvalue] at hlast hnext
  obtain ⟨type, hclosed⟩ := compile_timeRange ho hop hk hcol hf (Value.isBlank_ofJson_int s)
    (Value.isBlank_ofJson_int i.toInt) hlast
  have hblank : (Value.ofJson (.string "")).isBlank = true := rfl
  obtain ⟨type', hopen⟩ := compile_openTimeRange ho hop hk hcol hf hblank
    (Value.isBlank_ofJson_int i.toInt) hnext rfl
  rw [hlastText] at hclosed
  rw [hnextText] at hopen
  refine ⟨_, _, type, type', hclosed, hopen, fun t ht => ?_⟩
  obtain ⟨instant, hinstant, hliteral⟩ := Value.exists_literal_of_inYears ht family
  refine ⟨_, hliteral, ?_⟩
  rw [TemporalFamily.literal_le_iff _ htlast hinstant (by unfold endOfDaySeconds; omega) ht,
    TemporalFamily.literal_lt_iff _ hinstant htnext ht.2 he]
  exact family.le_endOfDay_iff hday

end Maps

theorem compile_timeRange_end_newYear :
    ∃ low upper before type type',
      (standard { columns := [("day", "date")] }).compile
          (.map [("day", .array [.string "between time", .array [.int 0, .int 1704067200]])]) =
        .ok ⟨"( day BETWEEN :p1 AND :p2 )", [⟨"p1", low, type⟩, ⟨"p2", .text upper, type⟩],
          .named⟩ ∧
      (standard { columns := [("day", "date")] }).compile
          (.map [("day", .array [.string "between time", .array [.string "", .int 1704067200]])]) =
        .ok ⟨"( day < :p1 )", [⟨"p1", .text before, type'⟩], .named⟩ ∧
      ∀ t : Int64, InYears t.toInt → ∃ literal,
        (Value.integer t).normalizeTemporal .date = .text literal ∧
          (literal ≤ upper ↔ literal < before) := by
  have hcol : (standard { columns := [("day", "date")] }).column "day" = .ok "day" :=
    column_of_check rfl rfl
  have hop : OperatorTable.standard.resolve? "between time" = some .betweenTime := by
    decide +kernel
  have hf : Schema.temporalFamily? { columns := [("day", "date")] } "day" = some .date := by
    decide +kernel
  obtain ⟨upper, before, type, type', hclosed, hopen, hsame⟩ :=
    compile_timeRange_end rfl hop rfl hcol hf 0 (e := 1704067200) (by decide) (by decide)
  rw [completed_of_none rfl] at hclosed hopen
  simp only [numberedPlaceholder, BindTable.push, BindTable.generated, BindTable.empty,
    Decimal.natText_one, Decimal.natText_two] at hclosed hopen
  exact ⟨_, upper, before, type, type', hclosed, hopen, hsame⟩

/-- On a column of days an end at noon is in the next day for the range, and before it for the
comparison. Reserved keys and refused names have no range at all. -/
theorem compile_timeRange_end_noon :
    ((standard { columns := [("day", "date")] }).schema.temporalFamily? "day" = some .date ∧
      InYears (1704110400 + 86400) ∧ InYears 1704153600 ∧
      ((standard { columns := [("day", "date")] }).compile (.map [("day", .array
        [.string "between time", .array [.int 1704067200, .int 1704110400]])])).toOption.map
          (fun compiled => (compiled.sql, compiled.binds.map fun bind => bind.value.text?)) =
        some ("( day BETWEEN :p1 AND :p2 )", [some "2024-01-01", some "2024-01-02"]) ∧
      ((standard { columns := [("day", "date")] }).compile (.map [("day", .array
        [.string "between time", .array [.string "", .int 1704110400]])])).toOption.map
          (fun compiled => (compiled.sql, compiled.binds.map fun bind => bind.value.text?)) =
        some ("( day < :p1 )", [some "2024-01-02"]) ∧
      ((Value.integer 1704153600).normalizeTemporal .date).text? = some "2024-01-02") ∧
    ((standard { columns := [("_seen", "datetime")] }).schema.temporalFamily? "_seen" =
        some .dateTime ∧
      ((standard { columns := [("_seen", "datetime")] }).compile (.map [("_seen", .array
        [.string "between time", .array [.string "", .int 0]])])).toOption.map Compiled.sql =
        some "") ∧
    (standard { columns := [("created at", "datetime")] }).schema.temporalFamily? "created at" =
        some .dateTime ∧
      (standard { columns := [("created at", "datetime")] }).compile (.map [("created at", .array
        [.string "between time", .array [.string "", .int 0]])]) =
        .error (.identifier (.badCharacters "created at")) := by
  refine ⟨⟨by decide +kernel, by decide, by decide, by decide +kernel, by decide +kernel,
    by decide +kernel⟩, ⟨by decide +kernel, by decide +kernel⟩, by decide +kernel, rfl⟩

end Compiler

end SqlFilter
