import TableProfiling.Proofs.Report.Parts
import TableProfiling.Proofs.Text.Escape

namespace TableProfiling.Report

inductive Place
  | tableName (name : String)
  | tableMetric (name : String) (m : Metric)
  | column (name : String)
  | columnMetric (column name : String) (m : Metric)
  | tableTest (t : TableTest)
  | tableValues (t : TableTest)
  | columnTest (t : ColumnTest)
  | columnValues (t : ColumnTest)

namespace Place

def compared (vs : List Validation) : List String :=
  vs.flatMap fun v => [v.computed.text, v.expected.text]

-- The names and values at a place.
def held : Place → List String
  | tableName name | column name => [name]
  | tableMetric name m | columnMetric _ name m => [name, m.text]
  | tableTest t => [t.name]
  | columnTest t => [t.column, t.name]
  | tableValues t => compared t.expression
  | columnValues t => compared t.expression

def breaks (p : Place) : Bool :=
  p.held.any hasBreak

-- How the list names a place.
def text : Place → String
  | tableName _ => "table name"
  | tableMetric name _ => named "table metric" name
  | column name => named "column" name
  | columnMetric c name _ => named "column" c ++ " " ++ named "metric" name
  | tableTest t => named "table test" t.name
  | tableValues t => named "table test" t.name ++ " validation"
  | columnTest t => named (named "column test" t.name ++ " on") t.column
  | columnValues t => named (named "column test" t.name ++ " on") t.column ++ " validation"

def ofColumn (c : ColumnProfile) : List Place :=
  column c.column :: c.results.entries.map fun (name, m) => columnMetric c.column name m

def ofProfile (p : TableProfile) : List Place :=
  tableName p.name :: p.results.entries.map (fun (name, m) => tableMetric name m)
    ++ p.columns.flatMap ofColumn

def ofTableTest (t : TableTest) : List Place :=
  [tableTest t, tableValues t]

def ofColumnTest (t : ColumnTest) : List Place :=
  [columnTest t, columnValues t]

def ofTests (t : TestResults) : List Place :=
  t.tableTests.flatMap ofTableTest
    ++ (t.columnTests.flatMap ColumnTestGroup.tests).flatMap ofColumnTest

def ofRecord (c : Config) (r : Record) : List Place :=
  ofProfile r.profile ++ ((shownTests c r).map ofTests).getD []

end Place

-- Those of some places that break, by their names.
def breaking (ps : List Place) : List String :=
  (ps.filter Place.breaks).map Place.text

theorem breaking_append : breaking (ps ++ qs) = breaking ps ++ breaking qs := by
  simp [breaking]

theorem breaking_cons :
    breaking (p :: ps) = (if p.breaks then [p.text] else []) ++ breaking ps := by
  by_cases h : p.breaks <;> simp [breaking, h]

theorem breaking_flatMap {xs : List α} {f : α → List Place} :
    breaking (xs.flatMap f) = xs.flatMap fun x => breaking (f x) := by
  induction xs
  case nil          => rfl
  case cons x xs hi => rw [List.flatMap_cons, List.flatMap_cons, breaking_append, hi]

theorem Place.breaks_of_held {p : Place} (h : p.held = [s]) : p.breaks = hasBreak s := by
  simp [breaks, h]

theorem any_compared : (Place.compared vs).any hasBreak = vs.any validationBreaks := by
  simp [Place.compared, List.any_flatMap]
  rfl

theorem metricBreaks_eq {label : String → String} (place : String → Metric → Place)
    (text : ∀ name m, (place name m).text = label name)
    (held : ∀ name m, (place name m).held = [name, m.text]) (r : Metric.Results) :
    metricBreaks label r = breaking (r.entries.map fun (name, m) => place name m) := by
  have breaks : (fun e : String × Metric => (place e.1 e.2).breaks) = entryBreaks := by
    funext e
    simp [Place.breaks, held, entryBreaks]
  simp [metricBreaks, breaking, List.filter_map, Function.comp_def, breaks, text]

theorem columnBreaks_eq : columnBreaks = fun c => breaking (Place.ofColumn c) := by
  funext c
  rw [Place.ofColumn, breaking_cons, Place.breaks_of_held (p := .column c.column) rfl,
    ←metricBreaks_eq (.columnMetric c.column) (fun _ _ => rfl) (fun _ _ => rfl)]
  rfl

theorem profileBreaks_eq : profileBreaks = fun p => breaking (Place.ofProfile p) := by
  funext p
  rw [Place.ofProfile, breaking_append, breaking_cons, breaking_flatMap,
    Place.breaks_of_held (p := .tableName p.name) rfl,
    ←metricBreaks_eq .tableMetric (fun _ _ => rfl) (fun _ _ => rfl), ←columnBreaks_eq]
  rfl

theorem tableTestBreaks_eq : tableTestBreaks = fun t => breaking (Place.ofTableTest t) := by
  funext t
  have name : (Place.tableTest t).breaks = hasBreak t.name := Place.breaks_of_held rfl
  have values : (Place.tableValues t).breaks = t.expression.any validationBreaks := any_compared
  rw [Place.ofTableTest, breaking_cons, breaking_cons, name, values]
  exact congrArg _ <| (List.append_nil _).symm

theorem columnTestBreaks_eq : columnTestBreaks = fun t => breaking (Place.ofColumnTest t) := by
  funext t
  have names : (Place.columnTest t).breaks = (hasBreak t.column || hasBreak t.name) := by
    simp [Place.breaks, Place.held]
  have values : (Place.columnValues t).breaks = t.expression.any validationBreaks := any_compared
  rw [Place.ofColumnTest, breaking_cons, breaking_cons, names, values]
  exact congrArg _ <| (List.append_nil _).symm

theorem testBreaks_eq : testBreaks = fun t => breaking (Place.ofTests t) := by
  funext t
  rw [testBreaks, Place.ofTests, breaking_append, breaking_flatMap, breaking_flatMap,
    tableTestBreaks_eq, columnTestBreaks_eq]

theorem lineBreaks_eq (c : Config) (r : Record) :
    lineBreaks c r = breaking (Place.ofRecord c r) := by
  rw [lineBreaks, Place.ofRecord, breaking_append, ←congrFun profileBreaks_eq]
  cases shownTests c r
  case none   => rfl
  case some t => exact congrArg _ <| congrFun testBreaks_eq t

-- A column is named if its name breaks, and then each of its metrics of which the name or the value
-- does.
def columnEntries (c : ColumnProfile) : List String :=
  (if hasBreak c.column then [named "column" c.column] else []) ++
    (c.results.entries.filter fun e => hasBreak e.1 || hasBreak e.2.text).map fun e =>
      named "column" c.column ++ " " ++ named "metric" e.1

def testEntries (tests : Option TestResults) : List String :=
  breaking <| (tests.map Place.ofTests).getD []

-- How the lists of a record and of its extensions are arranged.
structure Arranged (r : Record) : Prop where
  unbroken : ∀ c, ∀ e ∈ lineBreaks c r, '\n' ∉ e.toList ∧ '\r' ∉ e.toList
  initial  : lineBreaks profilesOnly r <+: lineBreaks {} r
  untested : lineBreaks profilesOnly r = lineBreaks {} { r with tests := none }
  tested   : ∀ c, lineBreaks c r = lineBreaks profilesOnly r ++ testEntries (shownTests c r)
  extended : ∀ c col, lineBreaks c { r with profile := r.profile.withColumn col } =
    lineBreaks profilesOnly r ++ columnEntries col ++ testEntries (shownTests c r)

theorem hasBreak_escaped (s : String) : hasBreak (escaped s) = false :=
  hasBreak_eq_false_iff.mpr ⟨not_mem_escaped (.inl rfl) s, not_mem_escaped (.inr rfl) s⟩

theorem hasBreak_named (thing name : String) : hasBreak (named thing name) = hasBreak thing := by
  have literals : ∀ s ∈ [" '", "'"], hasBreak s = false := by decide
  simp [named, hasBreak_escaped, literals]

theorem Place.hasBreak_text (p : Place) : hasBreak p.text = false := by
  have literals : ∀ s ∈ ["table name", "table metric", "column", " ", "metric", "table test",
      " validation", "column test", " on"], hasBreak s = false := by
    decide
  cases p <;> simp [text, hasBreak_named, literals]

theorem breaking_unbroken (h : e ∈ breaking ps) : '\n' ∉ e.toList ∧ '\r' ∉ e.toList := by
  obtain ⟨p, _, rfl⟩ := List.mem_map.mp h
  exact hasBreak_eq_false_iff.mp p.hasBreak_text

theorem columnEntries_eq (c : ColumnProfile) : columnEntries c = breaking (Place.ofColumn c) := by
  rw [Place.ofColumn, breaking_cons, Place.breaks_of_held (p := .column c.column) rfl,
    ←metricBreaks_eq (.columnMetric c.column) (fun _ _ => rfl) (fun _ _ => rfl)]
  rfl

theorem lineBreaks_parts (c : Config) (r : Record) :
    lineBreaks c r = breaking (Place.ofProfile r.profile) ++ testEntries (shownTests c r) := by
  rw [lineBreaks_eq, Place.ofRecord, breaking_append]
  rfl

theorem lineBreaks_profilesOnly (r : Record) :
    lineBreaks profilesOnly r = breaking (Place.ofProfile r.profile) := by
  rw [lineBreaks_parts]
  exact List.append_nil _

theorem Place.ofProfile_withColumn (p : TableProfile) (c : ColumnProfile) :
    ofProfile (p.withColumn c) = ofProfile p ++ ofColumn c := by
  simp [ofProfile, TableProfile.withColumn]

-- The list has parts as a block has: one for each column, and one for the tests at its end.
theorem lineBreaks_arranged (r : Record) : Arranged r where
  unbroken c e he := breaking_unbroken <| lineBreaks_eq c r ▸ he
  initial := by
    rw [lineBreaks_profilesOnly, lineBreaks_parts]
    exact List.prefix_append ..
  untested := by
    rw [lineBreaks_profilesOnly, lineBreaks_parts]
    exact (List.append_nil _).symm
  tested c := by
    rw [lineBreaks_profilesOnly, lineBreaks_parts]
  extended c col := by
    rw [lineBreaks_profilesOnly, lineBreaks_parts, Place.ofProfile_withColumn, breaking_append,
      columnEntries_eq]
    rfl

end TableProfiling.Report
