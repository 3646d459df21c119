import Mathlib.Order.Compare
import TableProfiling.Proofs.Metric.Compare

namespace TableProfiling

-- The comparison that says the same of metrics that have changed places.
def Comparison.converse : Comparison → Comparison
  | eq => eq
  | ne => ne
  | lt => gt
  | le => ge
  | gt => lt
  | ge => le

theorem Binary64.compare?_swap (x y : Binary64) : y.compare? x = (x.compare? y).map .swap := by
  rw [compare?, compare?, Bool.or_comm]
  split
  case isTrue  => rfl
  case isFalse => exact congrArg some Std.OrientedOrd.eq_swap

namespace Metric

variable {a b : Metric}

inductive Kind
  | null
  | bool
  | long
  | double
  | string
  deriving DecidableEq

def kind : Metric → Kind
  | null => .null
  | bool _ => .bool
  | long _ => .long
  | double _ => .double
  | string _ => .string

def Kind.isNumeric (k : Kind) : Bool :=
  k = long || k = double

def isNaN : Metric → Bool
  | double x => x.isNaN
  | _ => false

-- What comparisons say about two metrics, be it in one order or in the other.
structure Coherent (a b : Metric) : Prop where
  swap         : b.compare? a = (a.compare? b).map .swap
  incomparable : a.compare? b = none ↔
    (a.kind ≠ b.kind ∧ ¬(a.kind.isNumeric ∧ b.kind.isNumeric)) ∨
      (a.isNull ∨ b.isNull) ∨ a.isNaN ∨ b.isNaN
  ne           : Comparison.ne.holds a b ↔ ¬Comparison.eq.holds a b
  gt           : Comparison.lt.holds a b ↔ Comparison.gt.holds b a
  ge           : Comparison.le.holds a b ↔ Comparison.ge.holds b a
  exclusive    : a.compare? b ≠ none →
    ∃! c, c ∈ [Comparison.lt, Comparison.eq, Comparison.gt] ∧ c.holds a b
  le_or        : a.compare? b ≠ none →
    (Comparison.le.holds a b ↔ Comparison.lt.holds a b ∨ Comparison.eq.holds a b)
  ge_or        : a.compare? b ≠ none →
    (Comparison.ge.holds a b ↔ Comparison.gt.holds a b ∨ Comparison.eq.holds a b)
  apart        : a.compare? b = none → ∀ c : Comparison, c.holds a b ↔ c = .ne
  converse     : ∀ c : Comparison,
    (Validation.evaluate a c b).valid = (Validation.evaluate b c.converse a).valid

theorem compare?_swap (a b : Metric) : b.compare? a = (a.compare? b).map .swap := by
  cases a <;> cases b
  case bool.bool     => exact congrArg some Std.OrientedOrd.eq_swap
  case long.long     => exact congrArg some Std.OrientedOrd.eq_swap
  case string.string => exact congrArg some Std.OrientedOrd.eq_swap
  case double.double | long.double | double.long => exact Binary64.compare?_swap _ _
  all_goals rfl

theorem compare?_eq_none_iff :
    a.compare? b = none ↔
      (a.kind ≠ b.kind ∧ ¬(a.kind.isNumeric ∧ b.kind.isNumeric)) ∨
        (a.isNull ∨ b.isNull) ∨ a.isNaN ∨ b.isNaN := by
  -- An integer stays a number when it is rounded.
  have number (n : Int64) := Binary64.not_isNaN_ofInt <| natAbs_toInt_lt n
  cases a <;> cases b <;>
    simp [compare?, toBinary64?, number, kind, Kind.isNumeric, isNull, isNaN]

theorem accepts_converse (c : Comparison) (o : Ordering) :
    c.converse.accepts o.swap = c.accepts o := by
  cases c <;> cases o <;> rfl

-- Of these three, an order satisfies the one that says just what it is.
theorem existsUnique_accepts (o : Ordering) :
    ∃! c, c ∈ [Comparison.lt, Comparison.eq, Comparison.gt] ∧ c.accepts o := by
  cases o
  case lt => exact ⟨.lt, by decide, fun c => by cases c <;> simp [Comparison.accepts]⟩
  case eq => exact ⟨.eq, by decide, fun c => by cases c <;> simp [Comparison.accepts]⟩
  case gt => exact ⟨.gt, by decide, fun c => by cases c <;> simp [Comparison.accepts]⟩

theorem converse_eq_ne_iff {c : Comparison} : c.converse = .ne ↔ c = .ne := by
  cases c <;> decide

theorem holds_converse (c : Comparison) (a b : Metric) : c.converse.holds b a = c.holds a b := by
  cases h : a.compare? b
  case none =>
    have h' : b.compare? a = none := by rw [compare?_swap a b, h, Option.map_none]
    rw [Bool.eq_iff_iff, holds_of_apart h, holds_of_apart h', converse_eq_ne_iff]
  case some o =>
    have h' : b.compare? a = some o.swap := by rw [compare?_swap a b, h, Option.map_some]
    rw [holds_of_ordered h, holds_of_ordered h', accepts_converse]

theorem exists_ordered (h : a.compare? b ≠ none) :
    ∃ o, ∀ c : Comparison, c.holds a b = c.accepts o := by
  have ⟨o, ho⟩ := Option.ne_none_iff_exists'.mp h
  exact ⟨o, holds_of_ordered ho⟩

-- Metrics that change places change the order that they are in. Whether they are in one at all is
-- decided by their kinds, unless one of them is nothing or not a number.
theorem coherent (a b : Metric) : Coherent a b where
  swap         := compare?_swap a b
  incomparable := compare?_eq_none_iff
  gt           := by rw [←holds_converse .lt]; rfl
  ge           := by rw [←holds_converse .le]; rfl
  apart        := holds_of_apart
  converse c   := (holds_converse c a b).symm
  ne           := by
    cases h : a.compare? b
    case none   => simp [holds_of_apart h]
    case some o => cases o <;> simp [holds_of_ordered h, Comparison.accepts]
  exclusive h  := by
    obtain ⟨o, ho⟩ := exists_ordered h
    simpa only [ho] using existsUnique_accepts o
  le_or h      := by
    obtain ⟨o, ho⟩ := exists_ordered h
    simp only [ho]
    cases o <;> decide
  ge_or h      := by
    obtain ⟨o, ho⟩ := exists_ordered h
    simp only [ho]
    cases o <;> decide

end Metric
end TableProfiling
