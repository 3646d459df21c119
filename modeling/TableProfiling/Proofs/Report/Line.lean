import Mathlib.Algebra.Ring.Nat
import TableProfiling.Proofs.Text.Lines
import TableProfiling.Report.LineBreak

namespace TableProfiling.Report

inductive Line
  | profile (table : String)
  | tableHeading
  | tableMetric (name : String) (m : Metric)
  | columnsHeading
  | columnHeading (name : String)
  | columnMetric (name : String) (m : Metric)
  | blank
  | testsHeading
  | tableTestHeading
  | tableTest (name : String) (v : Validation)
  | columnTestHeading
  | columnTest (column name : String) (v : Validation)

namespace Line

def text : Line → String
  | profile table => "Profile for: " ++ table
  | tableHeading => "Table Profile results:"
  | tableMetric name m => "\t" ++ name ++ ": " ++ m.text
  | columnsHeading => "Column Profile results:"
  | columnHeading name => "\tColumn [" ++ name ++ "]:"
  | columnMetric name m => "\t\t" ++ name ++ ": " ++ m.text
  | blank => ""
  | testsHeading => "Test results:"
  | tableTestHeading => "\tTable Tests results:"
  | tableTest name v => "\t\t" ++ name ++ ": " ++ outcome v
  | columnTestHeading => "\tColumn Tests results:"
  | columnTest column name v => "\t\t[" ++ column ++ "] - " ++ name ++ ": " ++ outcome v

-- The names and values of a record that a line shows.
def shown : Line → List String
  | profile table => [table]
  | tableMetric name m | columnMetric name m => [name, m.text]
  | columnHeading name => [name]
  | tableTest name v => [name, v.computed.text, v.expected.text]
  | columnTest column name v => [column, name, v.computed.text, v.expected.text]
  | _ => []

def ofColumn (c : ColumnProfile) : List Line :=
  columnHeading c.column :: c.results.entries.map fun (name, m) => columnMetric name m

def ofProfile (p : TableProfile) : List Line :=
  [profile p.name, tableHeading]
    ++ p.results.entries.map (fun (name, m) => tableMetric name m)
    ++ columnsHeading :: p.columns.flatMap ofColumn

def ofTableTest (t : TableTest) : List Line :=
  tableTestHeading :: t.expression.map (tableTest t.name)

def ofColumnTest (t : ColumnTest) : List Line :=
  t.expression.map (columnTest t.column t.name)

def ofGroup (g : ColumnTestGroup) : List Line :=
  columnTestHeading :: g.tests.flatMap ofColumnTest

def ofTests (t : TestResults) : List Line :=
  [blank, testsHeading] ++ t.tableTests.flatMap ofTableTest ++ t.columnTests.flatMap ofGroup

def ofRecord (c : Config) (r : Record) : List Line :=
  ofProfile r.profile ++ ((shownTests c r).map ofTests).getD []

end Line

variable {c : Config} {r : Record}

theorem columnLines_eq : columnLines = fun c => (Line.ofColumn c).map Line.text := by
  funext c
  simp [columnLines, metricLines, metricLine, Line.ofColumn, Line.text]

theorem profileLines_eq : profileLines p = (Line.ofProfile p).map Line.text := by
  simp [profileLines, columnLines_eq, metricLines, metricLine, Line.ofProfile, Line.text,
    List.map_flatMap]

theorem tableTestLines_eq : tableTestLines = fun t => (Line.ofTableTest t).map Line.text := by
  funext t
  simp [tableTestLines, Line.ofTableTest, Line.text]

theorem columnTestLines_eq : columnTestLines = fun t => (Line.ofColumnTest t).map Line.text := by
  funext t
  simp [columnTestLines, Line.ofColumnTest, Line.text]

theorem groupLines_eq : groupLines = fun g => (Line.ofGroup g).map Line.text := by
  funext g
  simp [groupLines, columnTestLines_eq, Line.ofGroup, Line.text, List.map_flatMap]

theorem testLines_eq : testLines t = (Line.ofTests t).map Line.text := by
  simp [testLines, tableTestLines_eq, groupLines_eq, Line.ofTests, Line.text, List.map_flatMap]

theorem lines_eq : lines c r = (Line.ofRecord c r).map Line.text := by
  cases h : shownTests c r <;>
    simp [lines, Line.ofRecord, h, profileLines_eq, testLines_eq]

theorem hasBreak_eq_false_iff : hasBreak s = false ↔ '\n' ∉ s.toList ∧ '\r' ∉ s.toList := by
  simp [hasBreak]
  grind

@[simp]
theorem hasBreak_append : hasBreak (s ++ t) = (hasBreak s || hasBreak t) := by
  simp [hasBreak]

theorem hasBreak_name (o : Comparison) : hasBreak o.name = false := by
  cases o <;> decide

theorem hasBreak_outcome :
    hasBreak (outcome v) = (hasBreak v.computed.text || hasBreak v.expected.text) := by
  have flag : hasBreak (if v.valid then "true" else "false") = false := by
    cases v.valid <;> decide
  have literals : ∀ s ∈ [", (Real) ", " <", "> ", " (expected)"], hasBreak s = false := by
    decide
  simp only [outcome, hasBreak_append, flag, hasBreak_name]
  simp [literals]

theorem Line.hasBreak_text (l : Line) : hasBreak l.text = l.shown.any hasBreak := by
  have literals : ∀ s ∈ ["Profile for: ", "\t", ": ", "\tColumn [", "]:", "\t\t", "\t\t[", "] - "],
      hasBreak s = false := by
    decide
  cases l <;> simp [text, shown, hasBreak_outcome, literals, Bool.or_assoc]
  all_goals rfl

-- None of the names and values that some lines show has a line break.
def Unbroken (ls : List Line) : Prop :=
  ∀ l ∈ ls, ∀ s ∈ l.shown, hasBreak s = false

namespace Unbroken

@[simp]
theorem nil : Unbroken [] := by
  simp [Unbroken]

@[simp]
theorem cons_iff : Unbroken (l :: ls) ↔ (∀ s ∈ l.shown, hasBreak s = false) ∧ Unbroken ls := by
  simp [Unbroken]

@[simp]
theorem append_iff : Unbroken (ls₁ ++ ls₂) ↔ Unbroken ls₁ ∧ Unbroken ls₂ := by
  simp [Unbroken, or_imp, forall_and]

@[simp]
theorem map_iff {xs : List α} {f : α → Line} :
    Unbroken (xs.map f) ↔ ∀ x ∈ xs, ∀ s ∈ (f x).shown, hasBreak s = false := by
  simp [Unbroken]

@[simp]
theorem flatMap_iff {xs : List α} {f : α → List Line} :
    Unbroken (xs.flatMap f) ↔ ∀ x ∈ xs, Unbroken (f x) := by
  simp only [Unbroken, List.mem_flatMap]
  grind

theorem text (h : Unbroken ls) (hl : l ∈ ls) : hasBreak l.text = false := by
  simp [Line.hasBreak_text]
  exact h l hl

end Unbroken

@[simp]
theorem metricBreaks_eq_nil_iff :
    metricBreaks label rs = [] ↔
      ∀ e ∈ rs.entries, hasBreak e.1 = false ∧ hasBreak e.2.text = false := by
  simp [metricBreaks, entryBreaks]

theorem columnBreaks_eq_nil_iff : columnBreaks cp = [] ↔ Unbroken (Line.ofColumn cp) := by
  simp [columnBreaks, Line.ofColumn, Line.shown]

theorem profileBreaks_eq_nil_iff : profileBreaks p = [] ↔ Unbroken (Line.ofProfile p) := by
  simp [profileBreaks, columnBreaks_eq_nil_iff, Line.ofProfile, Line.shown]

-- The name of a test without validations is not shown, yet its breaks are reported.
theorem unbroken_tableTest (h : tableTestBreaks t = []) : Unbroken (Line.ofTableTest t) := by
  simp [tableTestBreaks, validationBreaks] at h
  simp [Line.ofTableTest, Line.shown, h]
  exact h.right

theorem unbroken_columnTest (h : columnTestBreaks t = []) : Unbroken (Line.ofColumnTest t) := by
  simp [columnTestBreaks, validationBreaks] at h
  simp [Line.ofColumnTest, Line.shown, h]
  exact h.right

theorem unbroken_tests (h : testBreaks t = []) : Unbroken (Line.ofTests t) := by
  simp only [testBreaks, List.append_eq_nil_iff, List.flatMap_eq_nil_iff, List.mem_flatMap] at h
  have ⟨tables, columns⟩ := h
  simp only [Line.ofTests, Unbroken.append_iff, Unbroken.flatMap_iff]
  refine ⟨⟨by simp [Line.shown], fun t ht => unbroken_tableTest (tables t ht)⟩, ?_⟩
  intro g hg
  simp [Line.ofGroup, Line.shown]
  exact fun t ht => unbroken_columnTest <| columns t ⟨g, hg, ht⟩

theorem unbroken_record (h : lineBreaks c r = []) : Unbroken (Line.ofRecord c r) := by
  simp only [lineBreaks, List.append_eq_nil_iff, profileBreaks_eq_nil_iff] at h
  simp only [Line.ofRecord, Unbroken.append_iff, h.left, true_and]
  cases ht : shownTests c r
  case none   => simp
  case some t => exact unbroken_tests <| by simpa [ht] using h.right

theorem terminated_append : terminated (ls₁ ++ ls₂) = terminated ls₁ ++ terminated ls₂ := by
  simp [terminated]

theorem terminated_eq_intercalate (h : ls ≠ []) : terminated ls = "\n".intercalate ls ++ "\n" := by
  induction ls
  case nil => contradiction
  case cons l ls hi =>
    cases ls
    case nil         => simp [terminated]
    case cons l' ls' =>
      have hi := hi <| by simp
      simp [terminated] at hi ⊢
      simp [hi, String.append_assoc]

theorem textLines_terminated {ls : List String} (h : ∀ l ∈ ls, '\n' ∉ l.toList) :
    textLines (terminated ls ++ s) = ls ++ textLines s := by
  induction ls
  case nil => simp [terminated]
  case cons l ls hi =>
    have hl : '\n' ∉ l.toList := h l (by simp)
    have hi := hi fun l' hl' => h l' (by simp [hl'])
    calc
      textLines (terminated (l :: ls) ++ s)
      _ = textLines (l ++ "\n" ++ (terminated ls ++ s)) := by simp [terminated, String.append_assoc]
      _ = l :: textLines (terminated ls ++ s)            := textLines_append hl
      _ = l :: ls ++ textLines s                         := by simp [hi]

-- How many lines a record takes.
def lineCount (c : Config) (r : Record) : Nat :=
  3 + r.profile.results.size + (r.profile.columns.map fun c => 1 + c.results.size).sum +
    match shownTests c r with
    | none => 0
    | some t =>
      2 + (t.tableTests.map fun t => 1 + t.expression.length).sum
        + (t.columnTests.map fun g => 1 + (g.tests.map fun t => t.expression.length).sum).sum

theorem Line.length_ofProfile (p : TableProfile) :
    (ofProfile p).length =
      3 + p.results.size + (p.columns.map fun c => 1 + c.results.size).sum := by
  simp [ofProfile, ofColumn, Metric.Results.size, Nat.add_comm 1]
  omega

theorem Line.length_ofTests (t : TestResults) :
    (ofTests t).length =
      2 + (t.tableTests.map fun t => 1 + t.expression.length).sum
        + (t.columnTests.map fun g => 1 + (g.tests.map fun t => t.expression.length).sum).sum := by
  simp [ofTests, ofTableTest, ofGroup, ofColumnTest, Nat.add_comm 1]
  omega

theorem Line.length_ofRecord : (ofRecord c r).length = lineCount c r := by
  cases h : shownTests c r <;> simp [ofRecord, lineCount, h, length_ofProfile, length_ofTests]

theorem lines_unbroken (h : lineBreaks c r = []) (hl : l ∈ lines c r) :
    '\n' ∉ l.toList ∧ '\r' ∉ l.toList := by
  rw [lines_eq, List.mem_map] at hl
  have ⟨_, hl, ht⟩ := hl
  exact hasBreak_eq_false_iff.mp <| ht ▸ (unbroken_record h).text hl

theorem lines_ne_nil : lines c r ≠ [] := by
  simp [lines, profileLines]

theorem mem_terminated (h : x ∈ (terminated ls).toList) : x = '\n' ∨ ∃ l ∈ ls, x ∈ l.toList := by
  simp [terminated, String.toList_join] at h
  grind

-- Where no name or value of a record is reported, its block reads as the lines that it was made of.
theorem block_unbroken (c : Config) (r : Record) (h : lineBreaks c r = []) :
    '\r' ∉ (block c r).toList ∧
    ∃ body, block c r = body ++ "\n" ∧
      textLines body = (Line.ofRecord c r).map Line.text ∧
      (textLines body).length = lineCount c r := by
  constructor
  case left =>
    intro hr
    cases mem_terminated hr
    case inl h => contradiction
    case inr h =>
      have ⟨l, hl, hr⟩ := h
      exact (lines_unbroken ‹_› hl).right hr
  case right =>
    have hl : textLines ("\n".intercalate (lines c r)) = (Line.ofRecord c r).map Line.text := by
      rw [textLines_intercalate (fun l hl => (lines_unbroken h hl).left) lines_ne_nil, lines_eq]
    refine ⟨_, terminated_eq_intercalate lines_ne_nil, hl, ?_⟩
    rw [hl, List.length_map, Line.length_ofRecord]

theorem block_unbroken_tested :
    let v : Validation := .evaluate (.long 3) .ge (.long 1)
    let r : Record := {
      profile := {
        name := "db.users", results := ⟨[("rowCount", .long 3)]⟩
        columns := [⟨"age", ⟨[("min", .long 18), ("note", .string "")]⟩⟩, ⟨"", .empty⟩] }
      tests := some {
        tableTests := [⟨"rows", [v]⟩], columnTests := [⟨[⟨"age", "", [v, v]⟩, ⟨"b", "", []⟩]⟩] } }
    lineBreaks {} r = [] ∧ '\r' ∉ (block {} r).toList ∧
    ∃ body, block {} r = body ++ "\n" ∧
      textLines body = [
        "Profile for: db.users", "Table Profile results:", "\trowCount: 3",
        "Column Profile results:", "\tColumn [age]:", "\t\tmin: 18", "\t\tnote: ", "\tColumn []:",
        "", "Test results:",
        "\tTable Tests results:", "\t\trows: true, (Real) 3 <ge> 1 (expected)",
        "\tColumn Tests results:", "\t\t[age] - : true, (Real) 3 <ge> 1 (expected)",
        "\t\t[age] - : true, (Real) 3 <ge> 1 (expected)"] ∧
      (textLines body).length = 15 := by
  intro v r
  have h : lineBreaks {} r = [] := by decide
  exact ⟨h, block_unbroken {} r h⟩

end TableProfiling.Report
