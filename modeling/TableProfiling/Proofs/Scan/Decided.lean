import Mathlib.Logic.Function.Basic
import TableProfiling.Proofs.Log.Picked
import TableProfiling.Proofs.Scan.Resolution

namespace TableProfiling.Scan

open Log

variable {log : Log.Config} {t : Table} {o : Option Override} {p : Declaration} {v : Verdict}

def decisionMessages : List String :=
  ["Partitioning disabled by override", "Table is not partitioned",
    "Declared partition not used by this dialect", "Resolved partition details"]

-- The entries that tell how resolutions were decided.
def decisions (es : List Log.Entry) : List Log.Entry :=
  picked decisionMessages es

-- The entries that tell that only the first column of a declaration counts.
def columnNotes (es : List Log.Entry) : List Log.Entry :=
  picked ["Multiple partition columns declared, using the first one"] es

-- A descriptor as the log shows it.
def described (table : String) (d : Descriptor) : List (String × String) :=
  [("table", table), ("column", d.column), ("interval_type", shown PartitionKind.label d.kind),
    ("interval_unit", shown IntervalUnit.label d.unit),
    ("interval", shown (fun n => toString n.toNat) d.interval)]

-- The options of a resolution are derived from the first of several columns.
structure PicksFirst (t : Table) (o : Option Override) (p : Declaration) : Prop where
  dialect  : t.dialect = .bigQuery
  declared : t.declaration = some p
  several  : 1 < p.columns.length
  derived  : ∃ base, (Strategy.ofDialect t.dialect).defaults t.declaration = .ok (some base) ∧
    (base.kind = some .timeUnit ∨ base.kind = some .integerRange)
  accepted : ∀ x ∈ o, x.enabled ∧ ∃ options, Options.ofOverride x = .ok options

-- The log of a resolution, as far as it is about decisions and columns.
structure Decided (log : Log.Config) (t : Table) (o : Option Override) (es : List Log.Entry) :
    Prop where
  unwanted     : ¬log.partitionDetails → decisions es = []
  failed       : ∀ f, resolveWith t o = .error f → decisions es = []
  unrestricted : log.partitionDetails → resolveWith t o = .ok none →
    ∃ message fields, decisions es = [.event log.level message fields] ∧
      message ∈ decisionMessages ∧ message ≠ "Resolved partition details"
  resolved     : log.partitionDetails → ∀ d, resolveWith t o = .ok (some d) →
    decisions es = [.event log.level "Resolved partition details" (described t.name d)] ∧
    ∀ d', described t.name d' = described t.name d ↔
      d'.column = d.column ∧ d'.kind = d.kind ∧ d'.unit = d.unit ∧ d'.interval = d.interval
  noted        : ∀ p, PicksFirst t o p → columnNotes es =
    [.event .warn "Multiple partition columns declared, using the first one"
      [("table", t.name), ("columns", quotedList p.columns)]]
  unnoted      : (¬∃ p, PicksFirst t o p) → columnNotes es = []

theorem picked_resolutionEntries (messages : List String) (log : Log.Config) (t : Table)
    (o : Option Override) : picked messages (resolutionEntries log t o) =
      picked messages (if (verdict t o).consultsDeclaration then
        columnWarnings t.name (.ofDialect t.dialect) t.declaration else []) ++
      picked messages ((verdict t o).entries log t.name) := by
  simp [resolutionEntries]

-- A failure decides nothing, and a success is nothing but a decision.
theorem decisions_entries (log : Log.Config) (table : String) (v : Verdict) :
    decisions (v.entries log table) =
      match v.result table with
      | .ok _    => v.entries log table
      | .error _ => [] := by
  cases v <;>
    simp [decisions, decisionMessages, Verdict.entries, Verdict.result, picked_partition]

theorem decisions_resolutionEntries (log : Log.Config) (t : Table) (o : Option Override) :
    decisions (resolutionEntries log t o) =
      match resolveWith t o with
      | .ok _    => (verdict t o).entries log t.name
      | .error _ => [] := by
  have columns : decisions (if (verdict t o).consultsDeclaration then
      columnWarnings t.name (.ofDialect t.dialect) t.declaration else []) = [] := by
    simp only [columnWarnings]
    repeat' split
    all_goals simp [decisions, decisionMessages]
  rw [decisions] at columns
  rw [decisions, picked_resolutionEntries, columns, List.nil_append]
  exact decisions_entries log t.name _

theorem entries_of_none (h : v.result table = .ok none) (log : Log.Config) :
    ∃ message fields, v.entries log table = log.partition message fields ∧
      message ∈ decisionMessages ∧ message ≠ "Resolved partition details" := by
  cases v <;> simp [Verdict.result] at h
  all_goals exact ⟨_, _, rfl, by simp [decisionMessages], by simp⟩

theorem entries_of_some (h : v.result table = .ok (some d)) (log : Log.Config) :
    v.entries log table = log.partition "Resolved partition details" (described table d) := by
  cases v <;> simp [Verdict.result] at h
  case resolved => rw [h]; rfl

theorem shown_injective {text : α → String} (h : text.Injective) : (shown text).Injective := by
  intro x y hxy
  cases x <;> cases y
  case none.none     => rfl
  case some.some x y => simpa [shown, h.eq_iff] using hxy
  all_goals simp [shown, ←String.toList_inj] at hxy

-- What the log shows of a descriptor is no less than what its entry is about.
theorem described_eq_iff : described table d' = described table d ↔
    d'.column = d.column ∧ d'.kind = d.kind ∧ d'.unit = d.unit ∧ d'.interval = d.interval := by
  have kind : PartitionKind.label.Injective := by
    intro x y
    cases x <;> cases y <;> decide
  have unit : IntervalUnit.label.Injective := by
    intro x y
    cases x <;> cases y <;> decide
  have interval : Function.Injective fun n : UInt32 => toString n.toNat := by
    intro m n h
    have digits := congrArg (Nat.ofDigitChars 10 ·.toList 0) h
    simpa [Nat.ofDigitChars_ten_toDigits, UInt32.toNat_inj] using digits
  simp only [described, List.cons.injEq, Prod.mk.injEq, true_and, and_true,
    shown_injective kind |>.eq_iff, shown_injective unit |>.eq_iff,
    shown_injective interval |>.eq_iff]

theorem columnNotes_entries (log : Log.Config) (table : String) (v : Verdict) :
    columnNotes (v.entries log table) = [] := by
  cases v <;> simp [columnNotes, Verdict.entries, picked_partition]

theorem columnNotes_resolutionEntries (log : Log.Config) (t : Table) (o : Option Override) :
    columnNotes (resolutionEntries log t o) = if (verdict t o).consultsDeclaration then
        columnWarnings t.name (.ofDialect t.dialect) t.declaration else [] := by
  have other := columnNotes_entries log t.name (verdict t o)
  rw [columnNotes] at other
  rw [columnNotes, picked_resolutionEntries, other, List.append_nil]
  simp only [columnWarnings]
  repeat' split
  all_goals simp

theorem judge_consults (h : t.declaration = some p) (overrides : Option Options) :
    (judge t overrides).consultsDeclaration := by
  fun_cases judge t overrides
  case case1 unpartitioned => simp [h] at unpartitioned
  all_goals rfl

-- Where there is a declaration, only the override may keep a resolution from looking at it.
theorem verdict_consults_iff (h : t.declaration = some p) :
    (verdict t o).consultsDeclaration ↔
      ∀ x ∈ o, x.enabled ∧ ∃ options, Options.ofOverride x = .ok options := by
  cases o
  case none => simp [verdict, judge_consults h]
  case some x =>
    cases enabled : x.enabled
    case false => simp [verdict, enabled, Verdict.consultsDeclaration]
    case true =>
      cases accepted : Options.ofOverride x
      case error => simp [verdict, enabled, accepted, Verdict.consultsDeclaration]
      case ok    => simp [verdict, enabled, accepted, judge_consults h]

theorem namesFirstOfSeveral_iff (h : t.inUse = some p) : namesFirstOfSeveral p ↔
    1 < p.columns.length ∧
    ∃ base, (Strategy.ofDialect t.dialect).defaults t.declaration = .ok (some base) ∧
      (base.kind = some .timeUnit ∨ base.kind = some .integerRange) := by
  have derived (several : 1 < p.columns.length) :
      (Strategy.ofDialect t.dialect).defaults t.declaration = .ok (some p.defaults) := by
    have names : p.NamesColumn := .inr <| List.length_pos_iff.mp <| Nat.zero_lt_of_lt several
    rw [Strategy.defaults, used_ofDialect, h]
    simp only [declaredOptions_eq_ok_iff.mpr ⟨names, rfl⟩]
    rfl
  have kinds : p.kind ≠ .ingestionTime ↔
      p.defaults.kind = some .timeUnit ∨ p.defaults.kind = some .integerRange := by
    simp only [Declaration.defaults]
    cases p.kind <;> decide
  simp only [namesFirstOfSeveral, Bool.and_eq_true, decide_eq_true_eq, kinds]
  constructor
  case mp =>
    rintro ⟨kind, several⟩
    exact ⟨several, _, derived several, kind⟩
  case mpr =>
    rintro ⟨several, base, hb, kind⟩
    rw [derived several] at hb
    cases hb
    exact ⟨kind, several⟩

theorem picksFirst_iff :
    PicksFirst t o p ↔ t.inUse = some p ∧ namesFirstOfSeveral p ∧
      (verdict t o).consultsDeclaration := by
  constructor
  case mp =>
    rintro ⟨dialect, declared, several, derived, accepted⟩
    have used := Table.inUse_eq_some_iff.mpr ⟨dialect, declared⟩
    exact ⟨used, namesFirstOfSeveral_iff used |>.mpr ⟨several, derived⟩,
      verdict_consults_iff declared |>.mpr accepted⟩
  case mpr =>
    rintro ⟨used, first, consulted⟩
    obtain ⟨dialect, declared⟩ := Table.inUse_eq_some_iff.mp used
    obtain ⟨several, derived⟩ := namesFirstOfSeveral_iff used |>.mp first
    exact {
      dialect, declared, several, derived
      accepted := verdict_consults_iff declared |>.mp consulted }

-- A resolution that succeeds leaves one entry, which tells what was decided; a warning about
-- columns that do not count is apart from it.
theorem decided_resolution (log : Log.Config) (t : Table) (o : Option Override) :
    Decided log t o (resolutionEntries log t o) where
  unwanted h := by
    rw [decisions_resolutionEntries]
    rcases hr : resolveWith t o with f | _ | d
    case error => rfl
    case ok.none =>
      obtain ⟨message, fields, entries, -⟩ := entries_of_none hr log
      exact entries.trans <| if_neg h
    case ok.some => exact entries_of_some hr log |>.trans <| if_neg h
  failed f h := by rw [decisions_resolutionEntries, h]
  unrestricted wanted h := by
    obtain ⟨message, fields, entries, decision⟩ := entries_of_none h log
    refine ⟨message, fields, ?_, decision⟩
    rw [decisions_resolutionEntries, h, entries, Log.Config.partition, if_pos wanted]
  resolved wanted d h := by
    refine ⟨?_, fun d' => described_eq_iff⟩
    rw [decisions_resolutionEntries, h, entries_of_some h, Log.Config.partition, if_pos wanted]
  noted p h := by
    obtain ⟨used, first, consulted⟩ := picksFirst_iff.mp h
    rw [columnNotes_resolutionEntries, if_pos consulted, columnWarnings, used_ofDialect, used]
    simp [first]
  unnoted h := by
    rw [columnNotes_resolutionEntries]
    split
    case isFalse => rfl
    case isTrue consulted =>
      rw [columnWarnings, used_ofDialect]
      split
      case h_2 => rfl
      case h_1 p used => exact if_neg fun first => h ⟨p, picksFirst_iff.mpr ⟨used, first, consulted⟩⟩

-- The entry shows the hours that the override asks for, not the days that the declaration implies.
theorem decided_resolution_columns :
    let t : Table :=
      { name := "t", dialect := .bigQuery, declaration := some ⟨["a", "b"], .timeUnit, none⟩ }
    let o : Override := { unit := some "HOUR", interval := some 6 }
    let es := resolutionEntries .balanced t (some o)
    decisions es = [.event .debug "Resolved partition details" [("table", "t"), ("column", "a"),
      ("interval_type", "Some(TimeUnit)"), ("interval_unit", "Some(Hour)"),
      ("interval", "Some(6)")]] ∧
    columnNotes es = [.event .warn "Multiple partition columns declared, using the first one"
      [("table", "t"), ("columns", "[\"a\", \"b\"]")]] := by
  intro t o es
  have decided := decided_resolution .balanced t (some o)
  have first : PicksFirst t (some o) ⟨["a", "b"], .timeUnit, none⟩ := {
    dialect  := rfl
    declared := rfl
    several  := by decide
    derived  := ⟨_, rfl, .inl rfl⟩
    accepted := by
      rintro _ ⟨⟩
      exact ⟨rfl, _, rfl⟩ }
  have columns : quotedList ["a", "b"] = "[\"a\", \"b\"]" := by decide +kernel
  exact ⟨decided.resolved rfl _ rfl |>.left, decided.noted _ first |>.trans <| by rw [columns]⟩

end TableProfiling.Scan
