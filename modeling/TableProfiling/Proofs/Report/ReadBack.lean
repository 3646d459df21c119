import TableProfiling.Proofs.Report.Run
import TableProfiling.Proofs.Text.Occurrences

namespace TableProfiling

-- What follows a certain beginning of a text.
def afterStart? (start s : String) : Option String :=
  if start.toList <+: s.toList then some (.ofList (s.toList.drop start.toList.length)) else none

namespace Report

-- The table whose block a line begins.
def Line.table? : Line → Option String
  | profile table => some table
  | _ => none

theorem Line.afterStart?_text (l : Line) : afterStart? "Profile for: " l.text = l.table? := by
  cases l <;> simp [text, table?, afterStart?]

-- Whether a line neither begins a block nor separates parts of it.
def Line.isInner : Line → Bool
  | profile _ | blank => false
  | _ => true

theorem Line.text_ne_empty (h : isInner l) : l.text ≠ "" := by
  cases l <;> simp [isInner, text] at h ⊢

theorem Line.filterMap_table? {ls : List Line} (h : ls.all isInner) : ls.filterMap table? = [] := by
  simp only [List.all_eq_true] at h
  simp only [List.filterMap_eq_nil_iff]
  intro l hl
  cases l <;> first | rfl | cases h _ hl

theorem Line.ofProfile_ne_nil : ofProfile p ≠ [] := by
  simp [ofProfile]

theorem Line.ofTests_ne_nil : ofTests t ≠ [] := by
  simp [ofTests]

theorem Line.all_isInner_ofProfile : (ofProfile p).tail.all isInner := by
  simp [ofProfile, ofColumn, isInner]

theorem Line.all_isInner_ofTests : (ofTests t).tail.all isInner := by
  simp [ofTests, ofTableTest, ofGroup, ofColumnTest, isInner]

theorem Line.tables_ofRecord : (ofRecord c r).filterMap table? = [r.name] := by
  have profile : (ofProfile r.profile).filterMap table? = [r.name] :=
    congrArg (r.name :: ·) <| filterMap_table? all_isInner_ofProfile
  have tests (t) : (ofTests t).filterMap table? = [] := by
    have inner := filterMap_table? <| all_isInner_ofTests (t := t)
    exact inner
  cases h : shownTests c r <;> simp [ofRecord, h, profile, tests]

-- The text of some lines, with a line feed after each of them.
def Line.chars (ls : List Line) : List Char :=
  (terminated (ls.map text)).toList

@[simp]
theorem Line.chars_cons : chars (l :: ls) = l.text.toList ++ '\n' :: chars ls := by
  simp [chars, terminated]

theorem Line.chars_append : chars (ls₁ ++ ls₂) = chars ls₁ ++ chars ls₂ := by
  simp [chars, terminated_append]

-- How a block begins.
def header : List Char :=
  "Profile for: ".toList

-- What is found between two blocks: the end of a line, an empty line and the beginning of a block.
def separator : List Char :=
  '\n' :: '\n' :: header

theorem occurrences_separator (hl : '\n' ∉ l) :
    occurrences separator (l ++ '\n' :: s) =
      (if ('\n' :: header) <+: s then 1 else 0) + occurrences separator s :=
  occurrences_line hl

-- An inner line does not begin with a line feed.
theorem not_prefix_chars (hu : hasBreak l.text = false) (hi : l.isInner) :
    ¬('\n' :: p) <+: Line.chars (l :: ls) ++ s := by
  have ⟨hl, _⟩ := hasBreak_eq_false_iff.mp hu
  have hn := Line.text_ne_empty hi
  intro h
  simp at h
  cases hs : l.text.toList
  case nil => simp_all
  case cons x xs =>
    rw [hs, List.cons_append, List.cons_prefix_cons] at h
    simp [hs] at hl
    exact hl.left h.left

-- No separator is found in a row of inner lines, or in one line before them, but one may begin at
-- their end.
theorem occurrences_inner (hn : ls ≠ []) (hu : Unbroken ls) (hi : ls.tail.all Line.isInner) :
    occurrences separator (Line.chars ls ++ s) =
      (if ('\n' :: header) <+: s then 1 else 0) + occurrences separator s := by
  induction ls
  case nil => contradiction
  case cons l ls h =>
    have hl := hasBreak_eq_false_iff.mp (hu.text <| .head _) |>.left
    cases ls
    case nil => simpa [Line.chars, terminated] using occurrences_separator hl
    case cons l' ls =>
      simp only [List.tail_cons, List.all_cons, Bool.and_eq_true] at hi
      have hu' := Unbroken.cons_iff.mp hu |>.right
      have hb := hu'.text <| .head _
      rw [Line.chars_cons, List.append_assoc, List.cons_append, occurrences_separator hl,
        if_neg <| not_prefix_chars hb hi.left, Nat.zero_add]
      exact h (by simp) hu' hi.right

theorem block_toList : (block c r).toList = Line.chars (Line.ofRecord c r) := by
  rw [block, lines_eq, Line.chars]

theorem not_prefix_tests : ¬('\n' :: header) <+: Line.chars (Line.ofTests t) ++ s := by
  have hh : header = 'P' :: "rofile for: ".toList := rfl
  have ht : "Test results:".toList = 'T' :: "est results:".toList := rfl
  simp only [Line.ofTests, List.cons_append, Line.chars_cons, Line.text, hh, ht]
  simp [List.cons_prefix_cons]

-- The empty line before the tests does not look as if a block followed it.
theorem occurrences_block (h : lineBreaks c r = []) :
    occurrences separator ((block c r).toList ++ s) =
      (if ('\n' :: header) <+: s then 1 else 0) + occurrences separator s := by
  have hu := unbroken_record h
  rw [block_toList]
  cases ht : shownTests c r <;> simp only [Line.ofRecord, ht] at hu ⊢
  case none =>
    have profile := Unbroken.append_iff.mp hu |>.left
    simpa using occurrences_inner Line.ofProfile_ne_nil profile Line.all_isInner_ofProfile
  case some t =>
    have profile := Unbroken.append_iff.mp hu |>.left
    have tests := Unbroken.append_iff.mp hu |>.right
    simp only [Option.map_some, Option.getD_some, Line.chars_append, List.append_assoc]
    rw [occurrences_inner Line.ofProfile_ne_nil profile Line.all_isInner_ofProfile,
      if_neg not_prefix_tests, Nat.zero_add,
      occurrences_inner Line.ofTests_ne_nil tests Line.all_isInner_ofTests]

theorem joined_singleton : joined c [r] ++ "\n]" = block c r ++ "\n]" := by
  simp [joined]

theorem joined_cons_cons :
    joined c (r :: r' :: rs) ++ "\n]" = block c r ++ ("\n" ++ (joined c (r' :: rs) ++ "\n]")) := by
  simp [joined, String.append_assoc]

theorem header_prefix_block : header <+: (block c r).toList ++ s := by
  simp only [block_toList, Line.ofRecord, Line.ofProfile, List.cons_append, Line.chars_cons,
    Line.text, String.toList_append, List.append_assoc]
  exact List.prefix_append ..

theorem header_prefix_joined : header <+: (joined c (r :: rs) ++ "\n]").toList := by
  cases rs
  case nil  => rw [joined_singleton, String.toList_append]; exact header_prefix_block
  case cons => rw [joined_cons_cons, String.toList_append]; exact header_prefix_block

theorem not_prefix_of_header (h : header <+: s) : ¬('\n' :: header) <+: s := by
  have hh : header = 'P' :: "rofile for: ".toList := rfl
  have ⟨t, ht⟩ := h
  rw [←ht, hh, List.cons_append, List.cons_prefix_cons]
  exact fun h => absurd h.left <| by decide

theorem occurrences_joined (h : ∀ r ∈ rs, lineBreaks c r = []) :
    occurrences separator (joined c rs ++ "\n]").toList = rs.length - 1 := by
  induction rs
  case nil => simp [joined]; decide
  case cons r rs hi =>
    have hr := h r <| .head _
    cases rs
    case nil =>
      rw [joined_singleton, String.toList_append, occurrences_block hr, List.length_singleton]
      decide
    case cons r' rs =>
      have hi := hi fun r hm => h r <| .tail _ hm
      have hp : header <+: (joined c (r' :: rs) ++ "\n]").toList := header_prefix_joined
      have hs : ("\n" ++ (joined c (r' :: rs) ++ "\n]")).toList =
          [] ++ '\n' :: (joined c (r' :: rs) ++ "\n]").toList := by
        simp
      rw [joined_cons_cons, String.toList_append, occurrences_block hr, hs,
        occurrences_separator (by simp), if_neg <| not_prefix_of_header hp, hi]
      rw [List.nil_append, if_pos <| List.cons_prefix_cons.mpr ⟨rfl, hp⟩]
      simp only [List.length_cons]
      omega

theorem tables_block (h : lineBreaks c r = []) :
    (textLines (block c r ++ s)).filterMap (afterStart? "Profile for: ") =
      r.name :: (textLines s).filterMap (afterStart? "Profile for: ") := by
  have hl : ∀ l ∈ lines c r, '\n' ∉ l.toList := fun l hl => (lines_unbroken h hl).left
  have hn : afterStart? "Profile for: " ∘ Line.text = Line.table? := funext Line.afterStart?_text
  rw [block, textLines_terminated hl, lines_eq, List.filterMap_append, List.filterMap_map, hn,
    Line.tables_ofRecord, List.singleton_append]

theorem tables_joined (h : ∀ r ∈ rs, lineBreaks c r = []) :
    (textLines (joined c rs ++ "\n]")).filterMap (afterStart? "Profile for: ") =
      rs.map Record.name := by
  have hm : (textLines "\n]").filterMap (afterStart? "Profile for: ") = [] := by
    rw [textLines_eq]
    decide
  induction rs
  case nil => simpa [joined] using hm
  case cons r rs hi =>
    have hr := h r <| .head _
    cases rs
    case nil => rw [joined_singleton, tables_block hr, hm]; rfl
    case cons r' rs =>
      have hi := hi fun r hm => h r <| .tail _ hm
      have hs : textLines ("\n" ++ (joined c (r' :: rs) ++ "\n]")) =
          "" :: textLines (joined c (r' :: rs) ++ "\n]") := by
        simpa using textLines_append (l := "") (s := joined c (r' :: rs) ++ "\n]") (by simp)
      have he : afterStart? "Profile for: " "" = none := by decide
      rw [joined_cons_cons, tables_block hr, hs, List.filterMap_cons_none he, hi]
      rfl

theorem accepted_writes : accepted (rs.map .write ++ [.close]) = rs := by
  rw [accepted_of_mem (by simp), List.filterMap_map]
  exact List.filterMap_some

open Storage in
-- The tables that have been written are read from the file, in their order and as often as they
-- have been written.
theorem report_tables {c : FileConfig} {s : Store} {k : Sink × Channel}
    (ho : (c.openSink s).result = .ok k) (hf : IsFile k.2) (rs : List Record)
    (h : ∀ r ∈ rs, lineBreaks ⟨c.includeTests⟩ r = []) :
    let k' := after Channel.writer (rs.map .write ++ [.close]) k
    ∃ text : String, k'.2.store.get? k.2.location = some (.file text.toUTF8) ∧
      (textLines text).filterMap (afterStart? "Profile for: ") = rs.map Record.name ∧
      occurrences "\n\nProfile for: ".toList text.toList = rs.length - 1 ∧
      k'.1.tally.records = rs.map Record.name := by
  have F := faithful_file k.2.location
  have completed := openSink_gathering ho hf |>.run F (rs.map .write ++ [.close]) |>.right (by simp)
  rw [accepted_writes] at completed
  exact ⟨_, completed.text, tables_joined h, occurrences_joined h, completed.records⟩

open Storage in
theorem report_tables_repeated :
    let l : Location := ["tmp", "work", "report.txt"]
    let k : Sink × Channel :=
      ({ path := "report.txt", config := {} }, .ofFile (Store.fresh.put l (.file .empty)) l)
    let r₁ : Record := { profile := { name := "t", results := .empty }, tests := some {} }
    let r₂ : Record := {
      profile := { name := "t", results := ⟨[("", .string "Profile for: u")]⟩ }
      tests := some { tableTests := [⟨"Profile for: v", []⟩] } }
    (FileConfig.openSink ⟨"report.txt", true⟩ .fresh).result = .ok k ∧ IsFile k.2 ∧
    (∀ r ∈ [r₁, r₂, r₁], lineBreaks {} r = []) ∧
    let k' := after Channel.writer ([r₁, r₂, r₁].map .write ++ [.close]) k
    ∃ text : String, k'.2.store.get? k.2.location = some (.file text.toUTF8) ∧
      (textLines text).filterMap (afterStart? "Profile for: ") = ["t", "t", "t"] ∧
      occurrences "\n\nProfile for: ".toList text.toList = 2 ∧
      k'.1.tally.records = ["t", "t", "t"] := by
  intro l k r₁ r₂
  have ho : (FileConfig.openSink ⟨"report.txt", true⟩ .fresh).result = .ok k := rfl
  have hf : IsFile k.2 := ⟨_, rfl⟩
  have h : ∀ r ∈ [r₁, r₂, r₁], lineBreaks {} r = [] := by decide
  exact ⟨ho, hf, h, report_tables ho hf [r₁, r₂, r₁] h⟩

end Report
end TableProfiling
