import TableProfiling.Proofs.Scan.Strategy
import TableProfiling.Scan.Resolution

namespace TableProfiling

open Outcome

namespace Scan

variable {t : Table} {p : Option Declaration} {o : Option Override} {options : Options}

-- The options that a declaration in use and the options of a user come to.
def combined (p : Option Declaration) (overrides : Option Options) :
    Except PartitionFault (Option Options) := do
  return Option.merge Options.merge (← p.mapM declaredOptions) overrides

-- The options that a declaration in use and an override come to.
def chosen (p : Option Declaration) (o : Option Override) :
    Except PartitionFault (Option Options) := do
  if o.any (!·.enabled) then return none
  combined p (← o.mapM Options.ofOverride)

-- A verdict without the log is nothing else than a choice and what is made of it. There are four
-- cases, for each of a declaration in use and the options of a user may be missing.
theorem judge_result (t : Table) (overrides : Option Options) :
    (judge t overrides).result t.name =
      (combined t.inUse overrides >>= (·.mapM Options.descriptor)).mapError
        (.partition t.name) := by
  simp only [judge, Strategy.defaults, used_ofDialect, combined]
  cases hp : t.inUse
  case none =>
    cases overrides <;> simp
    case none         => split <;> rfl
    case some options => cases options.descriptor <;> rfl
  case some p =>
    have ⟨_, hd⟩ := Table.inUse_eq_some_iff.mp hp
    cases hb : declaredOptions p <;> cases overrides <;> simp [hd, hb]
    case ok.none base           => cases base.descriptor <;> rfl
    case ok.some base overrides => cases (base.merge overrides).descriptor <;> rfl
    all_goals rfl

theorem resolveWith_eq (t : Table) (o : Option Override) :
    resolveWith t o =
      (chosen t.inUse o >>= (·.mapM Options.descriptor)).mapError (.partition t.name) := by
  cases o
  case none => exact judge_result t none
  case some o =>
    simp only [resolveWith, verdict, chosen]
    cases ho : o.enabled
    case false => simp [ho]; rfl
    case true =>
      cases h : Options.ofOverride o
      case error fault => simp [h, ho]; rfl
      case ok overrides => simp [h, ho]; exact judge_result t (some overrides)

theorem resolveWith_eq_some_iff :
    resolveWith t o = .ok (some d) ↔
      ∃ options, chosen t.inUse o = .ok (some options) ∧ options.descriptor = .ok d := by
  rw [resolveWith_eq, mapError_eq_ok_iff, bind_eq_ok_iff]
  constructor
  case mp =>
    intro ⟨_, hc, hd⟩
    have ⟨options, ho, hd⟩ := mapM_eq_ok_some_iff.mp hd
    exact ⟨options, ho ▸ hc, hd⟩
  case mpr =>
    intro ⟨options, hc, hd⟩
    exact ⟨_, hc, mapM_eq_ok_some_iff.mpr ⟨options, rfl, hd⟩⟩

theorem resolveWith_error (h : resolveWith t o = .error f) :
    ∃ fault, f = .partition t.name fault := by
  rw [resolveWith_eq, mapError_eq_error_iff] at h
  have ⟨fault, _, hf⟩ := h
  exact ⟨fault, hf.symm⟩

-- The three ways in which options are chosen.
inductive Choice : Option Declaration → Option Override → Options → Prop
  | declared {d : Declaration} (names : d.NamesColumn) : Choice (some d) none d.defaults
  | merged {d : Declaration} {o : Override}
      (enabled : o.enabled) (accepted : o.Acceptable) (names : d.NamesColumn) :
      Choice (some d) (some o) (d.defaults.merge o.options)
  | overridden {o : Override} (enabled : o.enabled) (accepted : o.Acceptable) :
      Choice none (some o) o.options

theorem combined_none (overrides : Option Options) : combined none overrides = .ok overrides := by
  cases overrides <;> rfl

theorem combined_some_eq_ok_iff {d : Declaration} {overrides result : Option Options} :
    combined (some d) overrides = .ok result ↔
      d.NamesColumn ∧ result = some (overrides.elim d.defaults d.defaults.merge) := by
  simp only [combined, Option.mapM_some, bind_eq_ok_iff, map_eq_ok_iff, declaredOptions_eq_ok_iff]
  cases overrides <;> simp [pure, Except.pure, eq_comm]

theorem chosen_disabled {o : Override} (h : o.enabled = false) : chosen p (some o) = .ok none := by
  simp [chosen, h]; rfl

theorem chosen_none : chosen p none = combined p none :=
  rfl

theorem chosen_enabled_eq_ok_iff {o : Override} {result : Option Options} (h : o.enabled) :
    chosen p (some o) = .ok result ↔ o.Acceptable ∧ combined p (some o.options) = .ok result := by
  simp [chosen, h, bind_eq_ok_iff, Options.ofOverride_eq_ok_iff, and_assoc]

theorem chosen_empty (d : Declaration) : chosen (some d) (some {}) = chosen (some d) none := by
  have h : Options.ofOverride {} = .ok {} := rfl
  simp [chosen, h, combined]
  cases declaredOptions d <;> simp [Options.merge_empty]

theorem chosen_eq_none_iff :
    chosen p o = .ok none ↔ (∃ x, o = some x ∧ x.enabled = false) ∨ o = none ∧ p = none := by
  cases o
  case none =>
    cases p
    case none   => simp [chosen_none, combined_none]
    case some d => simp [chosen_none, combined_some_eq_ok_iff]
  case some o =>
    cases h : o.enabled
    case false => simp [chosen_disabled h, h]
    case true =>
      cases p
      case none   => simp [chosen_enabled_eq_ok_iff h, combined_none, h]
      case some d => simp [chosen_enabled_eq_ok_iff h, combined_some_eq_ok_iff, h]

theorem chosen_eq_some_iff : chosen p o = .ok (some options) ↔ Choice p o options := by
  constructor
  case mp =>
    intro h
    cases o
    case none =>
      cases p
      case none   => simp [chosen_none, combined_none] at h
      case some d =>
        have ⟨names, ho⟩ := combined_some_eq_ok_iff.mp h
        cases ho
        exact .declared names
    case some o =>
      cases enabled : o.enabled
      case false => simp [chosen_disabled enabled] at h
      case true =>
        have ⟨accepted, h⟩ := chosen_enabled_eq_ok_iff enabled |>.mp h
        cases p
        case none =>
          cases combined_none _ ▸ h
          exact .overridden enabled accepted
        case some d =>
          have ⟨names, ho⟩ := combined_some_eq_ok_iff.mp h
          cases ho
          exact .merged enabled accepted names
  case mpr =>
    intro h
    cases h
    case declared names => exact combined_some_eq_ok_iff.mpr ⟨names, rfl⟩
    case merged enabled accepted names =>
      apply chosen_enabled_eq_ok_iff enabled |>.mpr
      exact ⟨accepted, combined_some_eq_ok_iff.mpr ⟨names, rfl⟩⟩
    case overridden enabled accepted =>
      exact chosen_enabled_eq_ok_iff enabled |>.mpr ⟨accepted, combined_none _⟩

-- A descriptor says all about the options that it has been made of.
theorem resolved_iff :
    resolveWith t o = .ok (some d) ↔
      d.enabled = true ∧ Choice t.inUse o d.options ∧ d.options.Complete := by
  simp only [resolveWith_eq_some_iff, chosen_eq_some_iff, Options.descriptor_eq_ok_iff]
  constructor
  case mp =>
    rintro ⟨_, choice, complete, enabled, rfl⟩
    exact ⟨enabled, choice, complete⟩
  case mpr =>
    intro ⟨enabled, choice, complete⟩
    exact ⟨_, choice, complete, enabled, rfl⟩

-- Nothing restricts the scan of a table: that is asked for, or there is no override and no
-- declaration that the dialect makes use of.
def Unrestricted (t : Table) (o : Option Override) : Prop :=
  (∃ x, o = some x ∧ x.enabled = false) ∨ o = none ∧ (t.declaration = none ∨ t.dialect ≠ .bigQuery)

theorem not_unrestricted {o : Override} (h : o.enabled) : ¬Unrestricted t (some o) := by
  simp [Unrestricted, h]

theorem resolveWith_eq_none_iff : resolveWith t o = .ok none ↔ Unrestricted t o := by
  rw [Unrestricted, ←Table.inUse_eq_none_iff, ←chosen_eq_none_iff]
  simp [resolveWith_eq, mapError_eq_ok_iff, bind_eq_ok_iff, mapM_eq_ok_none_iff]

theorem resolveWith_cases (t : Table) (o : Option Override) :
    Unrestricted t o ∨ (∃ d, resolveWith t o = .ok (some d)) ∨
      ∃ fault, resolveWith t o = .error (.partition t.name fault) := by
  cases h : resolveWith t o
  case error f =>
    have ⟨fault, hf⟩ := resolveWith_error h
    exact .inr <| .inr ⟨fault, hf ▸ rfl⟩
  case ok d =>
    cases d
    case none   => exact .inl <| resolveWith_eq_none_iff.mp h
    case some d => exact .inr <| .inl ⟨d, rfl⟩

-- Beside a declaration in use, no override and one that sets nothing come to the same.
theorem resolveWith_empty {d : Declaration} (h : t.inUse = some d) :
    resolveWith t (some {}) = resolveWith t none := by
  rw [resolveWith_eq, resolveWith_eq, h, chosen_empty]

-- A resolution looks at nothing else of a table than at its name and the declaration in use.
theorem resolveWith_congr {t₁ t₂ : Table} (hn : t₁.name = t₂.name) (hu : t₁.inUse = t₂.inUse) :
    resolveWith t₁ o = resolveWith t₂ o := by
  rw [resolveWith_eq, resolveWith_eq, hn, hu]

-- A restriction is never lost on the way: what is wrong about it ends in a failure.
theorem resolveWith_unrestricted_iff (t : Table) (o : Option Override) :
    (resolveWith t o = .ok none ↔ Unrestricted t o) ∧
    (Unrestricted t o ∨ (∃ d, resolveWith t o = .ok (some d)) ∨
      ∃ fault, resolveWith t o = .error (.partition t.name fault)) :=
  ⟨resolveWith_eq_none_iff, resolveWith_cases t o⟩

-- A resolution gives a descriptor exactly under some condition, and then the one of given options.
-- Otherwise it fails.
structure Resolves (t : Table) (o : Option Override) (condition : Prop) (options : Options) :
    Prop where
  succeeds_iff : (∃ d, resolveWith t o = .ok (some d)) ↔ condition
  descriptor   : ∀ d, resolveWith t o = .ok (some d) → d.enabled = true ∧ d.options = options
  fails_iff    : (∃ fault, resolveWith t o = .error (.partition t.name fault)) ↔ ¬condition

theorem Resolves.of_choice {condition : Prop} (hn : ¬Unrestricted t o)
    (h : ∀ options',
      Choice t.inUse o options' ∧ options'.Complete ↔ condition ∧ options' = options) :
    Resolves t o condition options := by
  have succeeds : (∃ d, resolveWith t o = .ok (some d)) ↔ condition := by
    simp only [resolveWith_eq_some_iff, chosen_eq_some_iff]
    constructor
    case mp =>
      intro ⟨_, options', hc, hd⟩
      have ⟨complete, _⟩ := Options.descriptor_eq_ok_iff.mp hd
      exact (h options').mp ⟨hc, complete⟩ |>.left
    case mpr =>
      intro hc
      have ⟨choice, complete⟩ := (h options).mpr ⟨hc, rfl⟩
      have ⟨d, hd⟩ := complete.exists_descriptor
      exact ⟨d, options, choice, hd⟩
  refine ⟨succeeds, ?descriptor, ?fails⟩
  case descriptor =>
    intro d hd
    have ⟨options', hc, hd⟩ := resolveWith_eq_some_iff.mp hd
    have ⟨complete, he, ho⟩ := Options.descriptor_eq_ok_iff.mp hd
    have ⟨_, h⟩ := (h options').mp ⟨chosen_eq_some_iff.mp hc, complete⟩
    exact ⟨he, ho.trans h⟩
  case fails =>
    rw [←succeeds]
    constructor
    case mp =>
      intro ⟨_, hf⟩ ⟨_, hd⟩
      cases hf.symm.trans hd
    case mpr => exact resolveWith_cases t o |>.resolve_left hn |>.resolve_left

end Scan
end TableProfiling
