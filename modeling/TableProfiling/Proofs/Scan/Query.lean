import TableProfiling.Proofs.Scan.Identifier
import TableProfiling.Proofs.Scan.Literal

namespace TableProfiling

namespace Scan

-- A name in backticks has no backtick in it.
theorem quoteIdentifier_eq_ok (h : quoteIdentifier name = .ok q) :
    q = "`" ++ name ++ "`" ∧ '`' ∉ name.toList := by
  have ⟨hn, hq⟩ := quoteIdentifier_eq_ok_iff.mp h
  exact ⟨hq, fun hc => (hn.harmless _ hc).unquoted <| by simp⟩

end Scan

namespace Filter

-- A window after the sign that compares it: the first digits are the interval, and the word after
-- them is the unit.
def readWindow (cs : List Char) : Option (IntervalUnit × UInt32) :=
  let cs := cs.dropWhile (!·.isDigit)
  let interval := Nat.ofDigitChars 10 (cs.takeWhile Char.isDigit) 0
  let unit := (cs.dropWhile Char.isDigit).tail.takeWhile Char.isAlpha
  (IntervalUnit.ofName? (.ofList unit)).map (·, .ofNat interval)

-- The two ends of a range, which are apart from each other by a word.
def readRange (cs : List Char) : Option (Int64 × Int64) := do
  let (first, rest) ← readNumber cs
  match first, rest with
  | .integer first _, ' ' :: 'A' :: 'N' :: 'D' :: ' ' :: cs =>
    match ← readNumber cs with
    | (.integer last _, []) => return (.ofInt first, .ofInt last)
    | _ => none
  | _, _ => none

-- The filter of a column, from its condition.
def readCondition (column : String) : List Char → Option Filter
  | '>' :: '=' :: ' ' :: cs => (readWindow cs).map fun (unit, n) => timeWindow column unit n
  | 'I' :: 'N' :: ' ' :: '(' :: cs => (readList cs).map (values column)
  | 'B' :: 'E' :: 'T' :: 'W' :: 'E' :: 'E' :: 'N' :: ' ' :: cs =>
    (readRange cs).map fun (first, last) => integerRange column first last
  | _ => none

-- The filter of a condition in a query. The column stands between backticks.
def ofSql? (s : String) : Option Filter :=
  match s.toList with
  | '`' :: cs =>
    let column := cs.takeWhile (· ≠ '`')
    match cs.dropWhile (· ≠ '`') with
    | '`' :: ' ' :: cs => readCondition (.ofList column) cs
    | _ => none
  | _ => none

-- The text of a window: before its number there are no digits, and behind its unit there is a
-- parenthesis.
def ShowsWindow (unit : IntervalUnit) (n : UInt32) (cs : List Char) : Prop :=
  ∃ start stop, start.all (!·.isDigit) = true ∧
    cs = start ++ (Nat.toDigits 10 n.toNat ++ ' ' :: (unit.name.toList ++ ')' :: stop))

theorem bound_hour (n : UInt32) :
    (bound .hour n).toList = "TIMESTAMP_SUB(CURRENT_TIMESTAMP(), INTERVAL ".toList ++
      (Nat.toDigits 10 n.toNat ++ ' ' :: (IntervalUnit.hour.name.toList ++ [')'])) := by
  have stop : " HOUR)".toList = ' ' :: (IntervalUnit.hour.name.toList ++ [')']) := by decide
  unfold bound
  rw [String.toList_append, String.toList_append, List.append_assoc, stop]
  simp only [toString, Nat.toList_repr]

theorem bound_date (h : unit ≠ .hour) (n : UInt32) :
    (bound unit n).toList = "DATE_SUB(CURRENT_DATE(), INTERVAL ".toList ++
      (Nat.toDigits 10 n.toNat ++ ' ' :: (unit.name.toList ++ [')'])) := by
  have marks : " ".toList = [' '] ∧ ")".toList = [')'] := by decide
  unfold bound
  cases unit
  case hour => contradiction
  all_goals
    simp only [String.toList_append, List.append_assoc, marks, toString, Nat.toList_repr]
    rfl

theorem showsWindow_bound (unit : IntervalUnit) (n : UInt32) :
    ShowsWindow unit n (bound unit n).toList := by
  by_cases h : unit = .hour
  case pos =>
    rw [h, bound_hour]
    exact ⟨_, _, by decide, rfl⟩
  case neg =>
    rw [bound_date h]
    exact ⟨_, _, by decide, rfl⟩

theorem ShowsWindow.enclose (h : ShowsWindow unit n s.toList)
    (hn : name.toList.all (!·.isDigit) = true) :
    ShowsWindow unit n (name ++ s ++ ")").toList := by
  have ⟨start, stop, hs, ht⟩ := h
  refine ⟨name.toList ++ start, stop ++ [')'], ?_, ?_⟩
  · rw [List.all_append, hn, hs]
    rfl
  · simp [ht]

theorem showsWindow_columnBound (column : String) (unit : IntervalUnit) (n : UInt32) :
    ShowsWindow unit n (columnBound column unit n).toList := by
  have h := showsWindow_bound unit n
  rw [columnBound]
  split
  case isTrue => exact h.enclose (by decide)
  split
  case isTrue  => exact h.enclose (by decide)
  case isFalse => exact h

theorem readWindow_of_shows (h : ShowsWindow unit n cs) : readWindow cs = some (unit, n) := by
  obtain ⟨start, stop, hs, rfl⟩ := h
  have digits := Json.Reader.IsDigits.toDigits n.toNat
  have letters : unit.name.toList.all Char.isAlpha = true := by cases unit <;> decide
  have first : ∀ c ∈ (Nat.toDigits 10 n.toNat ++ ' ' :: (unit.name.toList ++ ')' :: stop)).head?,
      (!c.isDigit) = false := by
    have ⟨d, ds, hd⟩ := List.exists_cons_of_ne_nil digits.ne_nil
    simpa [hd] using digits.digit d <| hd ▸ .head _
  rw [readWindow, dropWhile_append (List.all_eq_true.mp hs) first,
    takeWhile_append digits.digit (by simp), dropWhile_append digits.digit (by simp),
    List.tail_cons, takeWhile_append (List.all_eq_true.mp letters) (by simp),
    Nat.ofDigitChars_ten_toDigits, String.ofList_toList, IntervalUnit.ofName?_name,
    UInt32.ofNat_toNat]
  rfl

theorem readNumber_integer (n : Int64) (h : Json.Reader.EndsNumber rest) :
    ∃ fits, readNumber (integerChars n.toInt ++ rest) = some (.integer n.toInt fits, rest) :=
  ⟨⟨n.le_toInt, Int.lt_trans n.toInt_lt (by decide)⟩, readNumber_append (.integer n.toInt _) h⟩

theorem readRange_integers (first last : Int64) :
    readRange (integerChars first.toInt ++ (" AND ".toList ++ integerChars last.toInt)) =
      some (first, last) := by
  have he : Json.Reader.EndsNumber (" AND ".toList ++ integerChars last.toInt) := by
    rintro c ⟨⟩
    decide
  have ⟨_, hf⟩ := readNumber_integer first he
  have ⟨_, hl⟩ := readNumber_integer last Json.Reader.endsNumber_nil
  rw [List.append_nil] at hl
  rw [readRange, hf]
  simp [hl]

-- The values that a filter lists.
def listed : Filter → List Json.Value
  | values _ vs => vs
  | _ => []

theorem exists_condition_iff (f : Filter) :
    (∃ t, f.condition = .ok t) ↔ ∀ v ∈ f.listed, HasLiteral v := by
  cases f
  case values column vs =>
    simp only [condition, listed, ←exists_literal_iff, ←Outcome.list_mapM_ok_iff,
      Outcome.bind_eq_ok_iff]
    constructor
    case mp =>
      rintro ⟨_, ts, h, _⟩
      exact ⟨ts, h⟩
    case mpr =>
      rintro ⟨ts, h⟩
      exact ⟨_, ts, h, rfl⟩
  all_goals simp [condition, listed]

theorem readCondition_condition {f : Filter} (h : f.condition = .ok t) :
    readCondition f.column t.toList = some f := by
  cases f
  case timeWindow name unit n =>
    cases h
    have text : (">= " ++ columnBound name unit n).toList =
        '>' :: '=' :: ' ' :: (columnBound name unit n).toList := by
      simp
    rw [text, readCondition, readWindow_of_shows <| showsWindow_columnBound name unit n]
    rfl
  case values name vs =>
    have ⟨ts, hl, ht⟩ := Outcome.bind_eq_ok_iff.mp h
    cases ht
    have text : ("IN (" ++ ", ".intercalate ts ++ ")").toList =
        'I' :: 'N' :: ' ' :: '(' :: listChars ts := by
      simp [listChars]
    rw [text, readCondition, readList_literals hl]
    rfl
  case integerRange name first last =>
    cases h
    have text :
        ("BETWEEN " ++ integerText first.toInt ++ " AND " ++ integerText last.toInt).toList =
        'B' :: 'E' :: 'T' :: 'W' :: 'E' :: 'E' :: 'N' :: ' ' ::
          (integerChars first.toInt ++ (" AND ".toList ++ integerChars last.toInt)) := by
      simp [integerText]
    rw [text, readCondition, readRange_integers]
    rfl

theorem sql_eq_ok_iff {f : Filter} : f.sql = .ok s ↔
    ∃ q t, Scan.quoteIdentifier f.column = .ok q ∧ f.condition = .ok t ∧ q ++ " " ++ t = s := by
  simp only [sql, Outcome.bind_eq_ok_iff, Outcome.mapError_eq_ok_iff]
  constructor
  · rintro ⟨q, hq, t, ht, ⟨⟩⟩
    exact ⟨q, t, hq, ht, rfl⟩
  · rintro ⟨q, t, hq, ht, rfl⟩
    exact ⟨q, hq, t, ht, rfl⟩

theorem ofSql?_sql {f : Filter} (h : f.sql = .ok s) : ofSql? s = some f := by
  have ⟨q, t, hq, ht, hs⟩ := sql_eq_ok_iff.mp h
  have ⟨hq, hn⟩ := Scan.quoteIdentifier_eq_ok hq
  have text : s.toList = '`' :: (f.column.toList ++ '`' :: ' ' :: t.toList) := by
    simp [←hs, hq]
  have inside : ∀ c ∈ f.column.toList, decide (c ≠ '`') = true := by
    simpa using fun c hc => ne_of_mem_of_not_mem hc hn
  have outside : ∀ c ∈ ('`' :: ' ' :: t.toList).head?, decide (c ≠ '`') = false := by
    simp
  rw [ofSql?, text]
  simp only [takeWhile_append inside outside, dropWhile_append inside outside,
    String.ofList_toList]
  exact readCondition_condition ht

-- A query tells its filter: the filter is read back from the query, so that no other one has the
-- same query.
theorem sql_unambiguous :
    (∀ f : Filter, (∃ s, f.sql = .ok s) ↔
      (∃ q, Scan.quoteIdentifier f.column = .ok q) ∧ ∀ v ∈ f.listed, HasLiteral v) ∧
    (∀ (f : Filter) (s : String), f.sql = .ok s → ofSql? s = some f) ∧
    ∀ (f g : Filter) (s : String), f.sql = .ok s → g.sql = .ok s → f = g := by
  refine ⟨fun f => ?_, fun f s => ofSql?_sql, fun f g s hf hg => ?_⟩
  · rw [←exists_condition_iff]
    constructor
    · rintro ⟨s, h⟩
      have ⟨q, t, hq, ht, _⟩ := sql_eq_ok_iff.mp h
      exact ⟨⟨q, hq⟩, t, ht⟩
    · rintro ⟨⟨q, hq⟩, t, ht⟩
      exact ⟨_, sql_eq_ok_iff.mpr ⟨q, t, hq, ht, rfl⟩⟩
  · exact Option.some.inj <| (ofSql?_sql hf).symm.trans <| ofSql?_sql hg

theorem sql_unambiguous_quoted :
    let f := values "a.b"
      [.string "x', 'y", .string "'", .number (.integer (-7) (by decide)), .bool true]
    let s := "`a.b` IN ('x'', ''y', '''', -7, TRUE)"
    f.sql = .ok s ∧ ofSql? s = some f ∧ ∀ g : Filter, g.sql = .ok s → g = f := by
  intro f s
  have hq : Scan.quoteIdentifier "a.b" = .ok "`a.b`" := rfl
  have ht : f.condition = .ok "IN ('x'', ''y', '''', -7, TRUE)" := rfl
  have h : f.sql = .ok s := sql_eq_ok_iff.mpr ⟨_, _, hq, ht, rfl⟩
  exact ⟨h, sql_unambiguous.right.left f s h, fun g hg => sql_unambiguous.right.right g f s hg h⟩

end Filter
end TableProfiling
