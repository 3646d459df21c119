import Mathlib.Data.List.Induction
import TableProfiling.Proofs.Scan.Options

namespace TableProfiling.Scan.Options

open Outcome

-- The last setting of an option among layers, of which the lowest one comes first.
def lastSet (option : Options → Option α) (layers : List Options) : Option α :=
  (layers.filterMap option).getLast?

-- What layers come to where none of them hides another one. Values are left out.
def stacked (layers : List Options) : Options where
  column := lastSet column layers
  kind := lastSet kind layers
  unit := lastSet unit layers
  interval := lastSet interval layers
  rangeStart := lastSet rangeStart layers
  rangeEnd := lastSet rangeEnd layers

-- The options that overlays over a base come to, and the layers from which their intervals are
-- taken. Without any overlay that has values these are all of the layers; otherwise they are those
-- over the last such overlay, which counts for the kind of the partition too. An empty list counts
-- as values here.
inductive Layered (base : Options) : List Options → Options → List Options → Prop
  | plain {overlays : List Options} (unvalued : ∀ x ∈ overlays, x.values = none) :
      Layered base overlays
        { stacked (base :: overlays) with values := base.values }
        (base :: overlays)
  | valued {before after : List Options} {o : Options}
      (valued : o.values ≠ none) (unvalued : ∀ x ∈ after, x.values = none) :
      Layered base (before ++ o :: after)
        { stacked after with
          column := lastSet column (base :: (before ++ o :: after))
          kind := lastSet kind (o :: after) <|> some .columnValue
          values := o.values }
        after

variable {base m o : Options} {layers overlays intervals : List Options}

section

variable {option : Options → Option α}

theorem lastSet_append (layers : List Options) :
    lastSet option (layers ++ [o]) = (option o <|> lastSet option layers) := by
  rw [lastSet, List.filterMap_append, List.getLast?_append]
  cases h : option o <;> simp [h, lastSet]

theorem lastSet_singleton : lastSet option [o] = option o := by
  rw [←List.nil_append [o], lastSet_append]
  simp [lastSet]

theorem lastSet_cons_append :
    lastSet option (base :: (layers ++ [o])) = (option o <|> lastSet option (base :: layers)) :=
  lastSet_append (base :: layers)

theorem lastSet_isSome_iff :
    (lastSet option layers).isSome ↔ ∃ o ∈ layers, (option o).isSome := by
  simp [lastSet, Option.isSome_iff_ne_none]

end

theorem hasInterval_stacked :
    (stacked layers).hasInterval = true ↔ ∃ o ∈ layers, o.hasInterval = true := by
  simp only [hasInterval, stacked, Bool.or_eq_true, lastSet_isSome_iff]
  grind

namespace Layered

theorem column_eq (h : Layered base overlays m intervals) :
    m.column = lastSet column (base :: overlays) := by
  cases h <;> rfl

theorem hasInterval_iff (h : Layered base overlays m intervals) :
    m.hasInterval = true ↔ ∃ x ∈ intervals, x.hasInterval = true := by
  rw [←hasInterval_stacked]
  cases h <;> rfl

theorem merge_valued (h : Layered base overlays m intervals) (hv : o.values ≠ none) :
    Layered base (overlays ++ [o]) (m.merge o) [] := by
  have ⟨vs, hvs⟩ := Option.ne_none_iff_exists'.mp hv
  have top : Layered base (overlays ++ [o]) _ [] := .valued hv <| List.forall_mem_nil _
  rw [lastSet_cons_append, ←h.column_eq, hvs] at top
  rw [merge_of_values hvs]
  simpa [stacked, lastSet] using top

theorem merge_unvalued (h : Layered base overlays m intervals) (hv : o.values = none) :
    Layered base (overlays ++ [o]) (m.merge o) (intervals ++ [o]) := by
  rw [merge_of_no_values hv]
  cases h
  case plain unvalued =>
    have all : ∀ x ∈ overlays ++ [o], x.values = none := by simp_all [or_imp]
    have top : Layered base (overlays ++ [o]) _ (base :: (overlays ++ [o])) := .plain all
    simp only [stacked, lastSet_cons_append] at top
    exact top
  case valued before v valued unvalued =>
    have all : ∀ x ∈ intervals ++ [o], x.values = none := by simp_all [or_imp]
    have top : Layered base (before ++ v :: (intervals ++ [o])) _ (intervals ++ [o]) :=
      .valued valued all
    have split : before ++ v :: (intervals ++ [o]) = before ++ v :: intervals ++ [o] := by simp
    have kind : ((o.kind <|> lastSet kind (v :: intervals)) <|> some .columnValue) =
        (o.kind <|> lastSet kind (v :: intervals) <|> some .columnValue) := by
      cases o.kind <;> rfl
    simp only [split, stacked, lastSet_append, lastSet_cons_append, kind] at top
    exact top

end Layered

theorem exists_layered (base : Options) (overlays : List Options) :
    ∃ intervals, Layered base overlays (overlays.foldl merge base) intervals := by
  -- The overlay that is merged last decides how those below it are seen.
  induction overlays using List.reverseRecOn
  case nil =>
    have plain : Layered base [] _ [base] := .plain <| List.forall_mem_nil _
    simp only [stacked, lastSet_singleton] at plain
    exact ⟨_, plain⟩
  case append_singleton overlays o hi =>
    have ⟨intervals, h⟩ := hi
    rw [List.foldl_append]
    by_cases hv : o.values = none
    case pos => exact ⟨_, h.merge_unvalued hv⟩
    case neg => exact ⟨_, h.merge_valued hv⟩

theorem columnName_error (h : o.columnName = .error fault) : fault = .noColumn := by
  simp only [columnName] at h
  split at h
  case h_2 => exact Except.error.inj h.symm
  case h_1 =>
    split at h
    case isTrue  => exact Except.error.inj h.symm
    case isFalse => cases h

theorem checkRange_error (h : o.checkRange = .error fault) : fault ≠ .valuesWithInterval := by
  simp only [checkRange] at h
  split at h
  case isFalse => cases h
  case isTrue =>
    split at h
    case h_2 => cases h; simp
    case h_1 =>
      split at h
      case isTrue  => cases h; simp
      case isFalse => cases h

-- No other check of options finds fault with values beside an interval.
theorem descriptor_eq_valuesWithInterval_iff :
    o.descriptor = .error .valuesWithInterval ↔ o.values ≠ none ∧ o.hasInterval = true := by
  have clash : o.checkExclusive = .error .valuesWithInterval ↔
      o.values ≠ none ∧ o.hasInterval = true := by
    simp [checkExclusive, Option.isSome_iff_ne_none]
  rw [←clash]
  constructor
  case mpr =>
    intro h
    rw [descriptor, h]
    rfl
  case mp =>
    intro h
    simp only [descriptor, bind_eq_error_iff] at h
    obtain h | ⟨_, _, h | ⟨_, _, h | ⟨_, _, h⟩⟩⟩ := h
    · exact h
    · cases columnName_error h
    · exact absurd rfl <| checkRange_error h
    · cases h

-- Whatever is merged, an interval only clashes with values if it is set over them.
theorem foldl_merge_layered (base : Options) (overlays : List Options) :
    ∃ intervals, Layered base overlays (overlays.foldl merge base) intervals ∧
      ((overlays.foldl merge base).descriptor = .error .valuesWithInterval ↔
        (overlays.foldl merge base).values ≠ none ∧ ∃ x ∈ intervals, x.hasInterval = true) := by
  have ⟨intervals, h⟩ := exists_layered base overlays
  refine ⟨intervals, h, ?_⟩
  rw [descriptor_eq_valuesWithInterval_iff, h.hasInterval_iff]

end TableProfiling.Scan.Options
