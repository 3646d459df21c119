import TableProfiling.Proofs.Report.Line

namespace TableProfiling.Report

def metricText (indent : String) (e : String × Metric) : String :=
  indent ++ e.1 ++ ": " ++ e.2.text ++ "\n"

def columnText (c : ColumnProfile) : String :=
  "\tColumn [" ++ c.column ++ "]:\n" ++ .join (c.results.entries.map (metricText "\t\t"))

def tableTestText (t : TableTest) : String :=
  "\tTable Tests results:\n" ++
    .join (t.expression.map fun v => "\t\t" ++ t.name ++ ": " ++ outcome v ++ "\n")

def columnTestText (t : ColumnTest) : String :=
  .join (t.expression.map fun v =>
    "\t\t[" ++ t.column ++ "] - " ++ t.name ++ ": " ++ outcome v ++ "\n")

def groupText (g : ColumnTestGroup) : String :=
  "\tColumn Tests results:\n" ++ .join (g.tests.map columnTestText)

-- The section of the tests below its heading.
def testBody (t : TestResults) : String :=
  .join (t.tableTests.map tableTestText) ++ .join (t.columnTests.map groupText)

-- The section of the tests. It depends on whether there are any results, not on how many.
def testSection : Option TestResults → String
  | none   => ""
  | some t => "\nTest results:\n" ++ testBody t

theorem terminated_cons : terminated (l :: ls) = l ++ "\n" ++ terminated ls := by
  simp [terminated]

theorem terminated_map {xs : List α} {f : α → String} :
    terminated (xs.map f) = .join (xs.map (f · ++ "\n")) := by
  simp [terminated, Function.comp_def]

theorem terminated_flatMap {xs : List α} {f : α → List String} :
    terminated (xs.flatMap f) = .join (xs.map fun x => terminated (f x)) := by
  induction xs
  case nil => rfl
  case cons x xs hi => simp [terminated_append, hi]

theorem terminated_columnLines (c : ColumnProfile) : terminated (columnLines c) = columnText c := by
  have heading : "]:" ++ "\n" = "]:\n" := by decide
  rw [columnLines, terminated_cons, metricLines, terminated_map, columnText, ←heading,
    String.append_assoc, String.append_assoc, String.append_assoc, String.append_assoc]
  rfl

theorem terminated_tableTestLines (t : TableTest) :
    terminated (tableTestLines t) = tableTestText t := by
  have heading : "\tTable Tests results:" ++ "\n" = "\tTable Tests results:\n" := by decide
  rw [tableTestLines, terminated_cons, terminated_map, heading]
  rfl

theorem terminated_columnTestLines (t : ColumnTest) :
    terminated (columnTestLines t) = columnTestText t := by
  rw [columnTestLines, terminated_map]
  rfl

theorem terminated_groupLines (g : ColumnTestGroup) : terminated (groupLines g) = groupText g := by
  have heading : "\tColumn Tests results:" ++ "\n" = "\tColumn Tests results:\n" := by decide
  rw [groupLines, terminated_cons, terminated_flatMap, heading]
  simp only [terminated_columnTestLines]
  rfl

theorem terminated_testLines (t : TestResults) :
    terminated (testLines t) = "\nTest results:\n" ++ testBody t := by
  have heading : "" ++ "\n" ++ ("Test results:" ++ "\n") = "\nTest results:\n" := by decide
  rw [testLines, List.cons_append, List.cons_append, terminated_cons, terminated_cons,
    terminated_append, terminated_flatMap, terminated_flatMap, ←String.append_assoc, heading]
  simp only [terminated_tableTestLines, terminated_groupLines]
  rfl

def profilesOnly : Config where
  includeTests := false

-- How the blocks of a record and of its extensions are composed.
structure Composed (r : Record) : Prop where
  tested   : block {} r = block profilesOnly r ++ testSection r.tests
  untested : ∀ tests, block profilesOnly { r with tests } = block profilesOnly r
  extended : ∀ c, block profilesOnly { r with profile := r.profile.withColumn c } =
    block profilesOnly r ++ columnText c

theorem block_eq (c : Config) (r : Record) :
    block c r = terminated (profileLines r.profile) ++ testSection (shownTests c r) := by
  rw [block, lines, terminated_append]
  cases shownTests c r
  case none   => rfl
  case some t =>
    rw [Option.map_some, Option.getD_some, terminated_testLines]
    rfl

theorem block_profilesOnly (r : Record) :
    block profilesOnly r = terminated (profileLines r.profile) := by
  rw [block_eq]
  exact String.append_empty

theorem profileLines_withColumn (p : TableProfile) (c : ColumnProfile) :
    profileLines (p.withColumn c) = profileLines p ++ columnLines c := by
  simp [profileLines, TableProfile.withColumn]

theorem composed (r : Record) : Composed r where
  tested   := by
    rw [block_profilesOnly, block_eq]
    rfl
  untested := by
    intro tests
    rw [block_profilesOnly, block_profilesOnly]
  extended := by
    intro c
    rw [block_profilesOnly, block_profilesOnly, profileLines_withColumn, terminated_append,
      terminated_columnLines]

-- A block is that of the profiles alone and then the section of the tests, a column is a part at
-- the end of the profiles, and the tests of a section are parts that can be put together.
theorem block_composed :
    (∀ r, Composed r) ∧
    testSection none = "" ∧
    (∀ t, testSection (some t) = "\nTest results:\n" ++ testBody t) ∧
    (∀ ts us, testSection (some { tableTests := ts ++ us }) = "\nTest results:\n" ++
      (testBody { tableTests := ts } ++ testBody { tableTests := us })) ∧
    ∀ gs hs, testSection (some { columnTests := gs ++ hs }) = "\nTest results:\n" ++
      (testBody { columnTests := gs } ++ testBody { columnTests := hs }) := by
  refine ⟨composed, rfl, fun _ => rfl, fun ts us => ?_, fun gs hs => ?_⟩ <;>
    simp [testSection, testBody]

end TableProfiling.Report
