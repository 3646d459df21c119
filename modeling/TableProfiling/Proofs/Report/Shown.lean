import TableProfiling.Proofs.Report.Place

namespace TableProfiling.Report

variable {c : Config} {r : Record}

def Place.isShown : Place → Bool
  | tableTest t => !t.expression.isEmpty
  | columnTest t => !t.expression.isEmpty
  | _ => true

-- A block has carriage returns, or more line feeds than its lines end with.
def Broken (c : Config) (r : Record) : Prop :=
  '\r' ∈ (block c r).toList ∨ lineCount c r < (block c r).toList.count '\n'

instance : Decidable (Broken c r) :=
  inferInstanceAs (Decidable (_ ∨ _))

theorem count_terminated :
    (terminated ls).toList.count '\n' = ls.length + (ls.map (·.toList.count '\n')).sum := by
  induction ls
  case nil          => rfl
  case cons l ls hi =>
    rw [terminated_cons, String.toList_append, String.toList_append, List.count_append,
      List.count_append, hi, List.map_cons, List.sum_cons, List.length_cons]
    have : "\n".toList.count '\n' = 1 := rfl
    omega

theorem length_lt_count_iff :
    ls.length < (terminated ls).toList.count '\n' ↔ ∃ l ∈ ls, '\n' ∈ l.toList := by
  rw [count_terminated, Nat.lt_add_right_iff_pos, List.sum_pos_iff_exists_pos_nat]
  simp [List.count_pos_iff]

theorem return_mem_terminated_iff :
    '\r' ∈ (terminated ls).toList ↔ ∃ l ∈ ls, '\r' ∈ l.toList := by
  simp [terminated, String.toList_join]

theorem hasBreak_iff : hasBreak s = true ↔ '\r' ∈ s.toList ∨ '\n' ∈ s.toList := by
  rw [←Bool.not_eq_false, hasBreak_eq_false_iff]
  grind

theorem broken_iff_lines : Broken c r ↔ ∃ l ∈ lines c r, hasBreak l = true := by
  have count : lineCount c r = (lines c r).length := by
    rw [lines_eq, List.length_map, Line.length_ofRecord]
  rw [Broken, count, block, length_lt_count_iff, return_mem_terminated_iff]
  simp only [hasBreak_iff, and_or_left, exists_or]

def Line.Show (ls : List Line) (s : String) : Prop :=
  ∃ l ∈ ls, s ∈ l.shown

def Place.Show (ps : List Place) (s : String) : Prop :=
  ∃ p ∈ ps, p.isShown = true ∧ s ∈ p.held

section

variable {l : Line} {ls ms : List Line} {p : Place} {ps qs : List Place}

@[simp]
theorem Line.not_show_nil : ¬Show [] s := by
  simp [Show]

@[simp]
theorem Line.show_cons : Show (l :: ls) s ↔ s ∈ l.shown ∨ Show ls s := by
  simp [Show]

@[simp]
theorem Line.show_append : Show (ls ++ ms) s ↔ Show ls s ∨ Show ms s := by
  simp [Show, or_and_right, exists_or]

@[simp]
theorem Line.show_map {xs : List α} {f : α → Line} :
    Show (xs.map f) s ↔ ∃ x ∈ xs, s ∈ (f x).shown := by
  simp [Show]

@[simp]
theorem Line.show_flatMap {xs : List α} {f : α → List Line} :
    Show (xs.flatMap f) s ↔ ∃ x ∈ xs, Show (f x) s := by
  simp only [Show, List.mem_flatMap]
  grind

@[simp]
theorem Place.not_show_nil : ¬Show [] s := by
  simp [Show]

@[simp]
theorem Place.show_cons : Show (p :: ps) s ↔ (p.isShown = true ∧ s ∈ p.held) ∨ Show ps s := by
  simp [Show]

@[simp]
theorem Place.show_append : Show (ps ++ qs) s ↔ Show ps s ∨ Show qs s := by
  simp [Show, or_and_right, exists_or]

@[simp]
theorem Place.show_map {xs : List α} {f : α → Place} :
    Show (xs.map f) s ↔ ∃ x ∈ xs, (f x).isShown = true ∧ s ∈ (f x).held := by
  simp [Show]

@[simp]
theorem Place.show_flatMap {xs : List α} {f : α → List Place} :
    Show (xs.flatMap f) s ↔ ∃ x ∈ xs, Show (f x) s := by
  simp only [Show, List.mem_flatMap]
  grind

end

theorem broken_iff_show :
    Broken c r ↔ ∃ s, Line.Show (Line.ofRecord c r) s ∧ hasBreak s = true := by
  simp only [broken_iff_lines, lines_eq, Line.Show, List.mem_map]
  constructor
  case mp =>
    rintro ⟨_, ⟨l, hl, rfl⟩, hb⟩
    rw [Line.hasBreak_text, List.any_eq_true] at hb
    obtain ⟨s, hs, hb⟩ := hb
    exact ⟨s, ⟨l, hl, hs⟩, hb⟩
  case mpr =>
    rintro ⟨s, ⟨l, hl, hs⟩, hb⟩
    refine ⟨l.text, ⟨l, hl, rfl⟩, ?_⟩
    rw [Line.hasBreak_text]
    exact List.any_eq_true.mpr ⟨s, hs, hb⟩

theorem show_column_iff (col : ColumnProfile) :
    Line.Show (Line.ofColumn col) s ↔ Place.Show (Place.ofColumn col) s := by
  simp [Line.ofColumn, Line.shown, Place.ofColumn, Place.isShown, Place.held]

theorem show_profile_iff (p : TableProfile) :
    Line.Show (Line.ofProfile p) s ↔ Place.Show (Place.ofProfile p) s := by
  simp [Line.ofProfile, Line.shown, Place.ofProfile, Place.isShown, Place.held, show_column_iff]

-- Every line of a test shows the name, and the list of its validations shows whether there is one.
theorem exists_mem_or_iff {xs : List α} {P : Prop} {Q : α → Prop} :
    (∃ x ∈ xs, P ∨ Q x) ↔ (xs ≠ [] ∧ P) ∨ ∃ x ∈ xs, Q x := by
  rw [←List.isEmpty_eq_false_iff, List.isEmpty_eq_false_iff_exists_mem]
  simp only [and_or_left, exists_or, exists_and_right]

theorem show_tableTest_iff (t : TableTest) :
    Line.Show (Line.ofTableTest t) s ↔ Place.Show (Place.ofTableTest t) s := by
  simp [Line.ofTableTest, Line.shown, Place.ofTableTest, Place.isShown, Place.held, Place.compared,
    exists_mem_or_iff]

theorem show_columnTest_iff (t : ColumnTest) :
    Line.Show (Line.ofColumnTest t) s ↔ Place.Show (Place.ofColumnTest t) s := by
  have names (v : Validation) : s ∈ [t.column, t.name, v.computed.text, v.expected.text] ↔
      (s = t.column ∨ s = t.name) ∨ s = v.computed.text ∨ s = v.expected.text := by
    simp [or_assoc]
  simp only [Line.ofColumnTest, Line.show_map, Line.shown, names, exists_mem_or_iff]
  simp [Place.ofColumnTest, Place.isShown, Place.held, Place.compared]

theorem show_tests_iff (t : TestResults) :
    Line.Show (Line.ofTests t) s ↔ Place.Show (Place.ofTests t) s := by
  rw [Line.ofTests, Place.ofTests, List.flatMap_assoc]
  simp [Line.shown, Line.ofGroup, show_tableTest_iff, show_columnTest_iff]

theorem show_record_iff : Line.Show (Line.ofRecord c r) s ↔ Place.Show (Place.ofRecord c r) s := by
  rw [Line.ofRecord, Place.ofRecord, Line.show_append, Place.show_append, show_profile_iff]
  cases shownTests c r
  case none   => simp
  case some t => exact or_congr_right <| show_tests_iff t

-- A text stands within another one.
def Within (s t : String) : Prop :=
  s.toList <:+: t.toList

theorem Within.refl (s : String) : Within s s :=
  List.infix_rfl

theorem Within.append_left (h : Within s t) (u : String) : Within s (t ++ u) := by
  rw [Within, String.toList_append]
  exact h.trans <| List.prefix_append .. |>.isInfix

theorem Within.append_right (h : Within s u) (t : String) : Within s (t ++ u) := by
  rw [Within, String.toList_append]
  exact h.trans <| List.suffix_append .. |>.isInfix

theorem within_outcome (h : s = v.computed.text ∨ s = v.expected.text) : Within s (outcome v) := by
  unfold outcome
  grind [Within.refl, Within.append_left, Within.append_right]

theorem Line.within_text {l : Line} (h : s ∈ l.shown) : Within s l.text := by
  cases l <;> simp only [shown, List.mem_cons, List.not_mem_nil, or_false] at h <;>
    simp only [text] <;>
    grind [within_outcome, Within.refl, Within.append_left, Within.append_right]

theorem broken_iff_breaks :
    Broken c r ↔ ∃ p ∈ Place.ofRecord c r, p.isShown = true ∧ p.breaks = true := by
  simp only [broken_iff_show, show_record_iff, Place.Show, Place.breaks, List.any_eq_true]
  grind

theorem lineBreaks_ne_nil_iff :
    lineBreaks c r ≠ [] ↔ ∃ p ∈ Place.ofRecord c r, p.breaks = true := by
  simp [lineBreaks_eq, breaking]

-- The list has those places that break, and what is held at one of them stands in a line of the block
-- unless it is the name of a test without validations. So the block is broken as well, but for lists
-- that have such names alone.
theorem lineBreaks_shown (c : Config) (r : Record) :
    lineBreaks c r = breaking (Place.ofRecord c r) ∧
    (∀ p ∈ Place.ofRecord c r, p.isShown = true → ∀ s ∈ p.held, ∃ l ∈ lines c r, Within s l) ∧
    (lineBreaks c r ≠ [] ↔
      Broken c r ∨ ∃ p ∈ Place.ofRecord c r, p.isShown = false ∧ p.breaks = true) := by
  refine ⟨lineBreaks_eq c r, fun p hp shown s hs => ?_, ?_⟩
  · obtain ⟨l, hl, hs⟩ := show_record_iff.mpr ⟨p, hp, shown, hs⟩
    exact ⟨l.text, lines_eq ▸ List.mem_map_of_mem hl, l.within_text hs⟩
  · rw [lineBreaks_ne_nil_iff, broken_iff_breaks]
    grind

theorem lineBreaks_shown_validated :
    let r : Record := {
      profile := { name := "t", results := .empty }
      tests := some { tableTests := [⟨"a\nb", [.evaluate (.long 3) .ge (.long 1)]⟩] } }
    lineBreaks {} r = ["table test 'a\\nb'"] ∧ Broken {} r := by
  intro r
  have listed : lineBreaks {} r = ["table test 'a\\nb'"] := by decide +kernel
  have ⟨_, _, broken⟩ := lineBreaks_shown {} r
  exact ⟨listed, broken.mp (listed ▸ nofun) |>.resolve_right <| by decide⟩

-- The name of a test that has not been validated is in no line of the block.
theorem not_broken_of_lineBreaks :
    ¬∀ (c : Config) (r : Record), lineBreaks c r ≠ [] → Broken c r := by
  intro h
  have broken := h {} {
    profile := { name := "t", results := .empty }
    tests := some { tableTests := [⟨"a\nb", []⟩] } } (by decide)
  exact absurd broken <| by decide

end TableProfiling.Report
