import Mathlib.Data.Int.Order.Basic
import Mathlib.Order.Compare
import TableProfiling.Proofs.Metric.Compare
import TableProfiling.Proofs.Number.Order

namespace TableProfiling
namespace Metric

variable {a b c x : Metric} {u v w : Int}

-- Two different integers which both are equal to a double.
structure Blurs (x a b : Metric) : Prop where
  double : ∃ y, x = .double y
  longs  : ∃ n m, a = .long n ∧ b = .long m ∧ n ≠ m
  left   : Comparison.eq.holds a x
  right  : Comparison.eq.holds b x

-- What two comparisons in a row say about the ends. A law fails exactly where a double blurs the
-- integers that it is about.
structure Chained (a b c : Metric) : Prop where
  le    : Comparison.le.holds a b → Comparison.le.holds b c →
    (Comparison.le.holds a c ↔ ¬(Blurs b a c ∧ Comparison.lt.holds c a))
  lt_le : Comparison.lt.holds a b → Comparison.le.holds b c →
    (Comparison.lt.holds a c ↔ ¬Blurs c a b)
  le_lt : Comparison.le.holds a b → Comparison.lt.holds b c →
    (Comparison.lt.holds a c ↔ ¬Blurs a b c)
  eq    : Comparison.eq.holds a b → Comparison.eq.holds b c →
    (Comparison.eq.holds a c ↔ ¬Blurs b a c)

theorem Chained.of_comparable
    (h : (∃ o, a.compare? b = some o) → (∃ o, b.compare? c = some o) → Chained a b c) :
    Chained a b c where
  le hab hbc    := h (comparable_of_holds hab nofun) (comparable_of_holds hbc nofun) |>.le hab hbc
  lt_le hab hbc := h (comparable_of_holds hab nofun) (comparable_of_holds hbc nofun) |>.lt_le hab hbc
  le_lt hab hbc := h (comparable_of_holds hab nofun) (comparable_of_holds hbc nofun) |>.le_lt hab hbc
  eq hab hbc    := h (comparable_of_holds hab nofun) (comparable_of_holds hbc nofun) |>.eq hab hbc

theorem Chained.of_trans [Ord α] [Std.TransOrd α] {f : α → Metric} {p q r : α}
    (hf : ∀ p q, (f p).compare? (f q) = some (compare p q)) (hd : ∀ p y, f p ≠ double y) :
    Chained (f p) (f q) (f r) := by
  have sharp (p q r) : ¬Blurs (f p) (f q) (f r) := fun h => hd p _ h.double.choose_spec
  constructor <;> simp only [holds_le_iff, holds_lt_iff, holds_eq_iff, hf, sharp, false_and,
    not_false_eq_true, iff_true, Option.some_inj, exists_eq_left']
  case le    => exact Std.TransCmp.isLE_trans
  case lt_le => exact Std.TransCmp.lt_of_lt_of_isLE
  case le_lt => exact Std.TransCmp.lt_of_isLE_of_lt
  case eq    => exact Std.TransCmp.eq_trans

-- Integers that a double may blur are told apart when they meet.
def Exceeds (a b : Metric) : Prop :=
  ∃ n m, a = .long n ∧ b = .long m ∧ m.toInt < n.toInt

@[simp]
theorem exceeds_longs_iff {n m : Int64} : Exceeds (long n) (long m) ↔ m.toInt < n.toInt := by
  simp [Exceeds]

@[simp]
theorem not_exceeds_double {y : Binary64} : ¬Exceeds a (double y) := by
  simp [Exceeds]

@[simp]
theorem double_not_exceeds {y : Binary64} : ¬Exceeds (double y) b := by
  simp [Exceeds]

-- An integer in between is on one side or the other.
theorem Exceeds.or_exceeds (n : Int64) (h : Exceeds a c) :
    Exceeds a (long n) ∨ Exceeds (long n) c := by
  obtain ⟨k, m, rfl, rfl, hm⟩ := h
  simp only [exceeds_longs_iff]
  omega

-- Numbers are in the order of their values, and where these agree, in the order of the integers.
structure Placed (o : Ordering) (a b : Metric) (u v : Int) : Prop where
  lt : o = .lt ↔ u < v ∨ u = v ∧ Exceeds b a
  gt : o = .gt ↔ v < u ∨ u = v ∧ Exceeds a b

theorem placed_longs {n m : Int64} (hu : (long n).value? = some u) (hv : (long m).value? = some v) :
    Placed (compare n.toInt m.toInt) (long n) (long m) u v := by
  have hn := natAbs_toInt_lt n
  have hm := natAbs_toInt_lt m
  obtain rfl := Option.some.inj <| value?_long n |>.symm.trans hu
  obtain rfl := Option.some.inj <| value?_long m |>.symm.trans hv
  have up := Binary64.value_ofInt_mono hn hm
  have down := Binary64.value_ofInt_mono hm hn
  constructor <;> simp only [exceeds_longs_iff, compare_lt_iff_lt, compare_gt_iff_gt] <;> omega

theorem placed (ha : a.value? = some u) (hb : b.value? = some v) :
    ∃ o, a.compare? b = some o ∧ Placed o a b u v := by
  rcases long_or_double ha with ⟨n, rfl⟩ | ⟨y, rfl⟩
  case inr =>
    refine ⟨_, compare?_values ha hb <| .inl ⟨y, rfl⟩, ?_, ?_⟩
    · simp [compare_lt_iff_lt]
    · simp [compare_gt_iff_gt]
  rcases long_or_double hb with ⟨m, rfl⟩ | ⟨y, rfl⟩
  case inl => exact ⟨_, rfl, placed_longs ha hb⟩
  case inr =>
    refine ⟨_, compare?_values ha hb <| .inr ⟨y, rfl⟩, ?_, ?_⟩
    · simp [compare_lt_iff_lt]
    · simp [compare_gt_iff_gt]

theorem holds_lt_iff_of_values (ha : a.value? = some u) (hb : b.value? = some v) :
    Comparison.lt.holds a b ↔ u < v ∨ u = v ∧ Exceeds b a := by
  obtain ⟨o, ho, h⟩ := placed ha hb
  rw [holds_lt_iff, ho, Option.some_inj, h.lt]

theorem holds_le_iff_of_values (ha : a.value? = some u) (hb : b.value? = some v) :
    Comparison.le.holds a b ↔ u < v ∨ u = v ∧ ¬Exceeds a b := by
  obtain ⟨o, ho, h⟩ := placed ha hb
  have notAbove : o.isLE ↔ ¬o = .gt := by cases o <;> decide
  rw [holds_le_iff, ho]
  simp only [Option.some_inj, exists_eq_left', notAbove, h.gt]
  grind

theorem holds_eq_iff_of_values (ha : a.value? = some u) (hb : b.value? = some v) :
    Comparison.eq.holds a b ↔ u = v ∧ ¬Exceeds a b ∧ ¬Exceeds b a := by
  obtain ⟨o, ho, h⟩ := placed ha hb
  have neither : o = .eq ↔ ¬o = .lt ∧ ¬o = .gt := by cases o <;> decide
  rw [holds_eq_iff, ho, Option.some_inj, neither, h.lt, h.gt]
  grind

theorem blurs_iff_of_values (hx : x.value? = some w) (ha : a.value? = some u)
    (hb : b.value? = some v) :
    Blurs x a b ↔ (∃ y, x = double y) ∧ u = w ∧ v = w ∧ (Exceeds a b ∨ Exceeds b a) := by
  constructor
  case mp =>
    rintro ⟨double, ⟨n, m, rfl, rfl, hn⟩, left, right⟩
    have apart : n.toInt ≠ m.toInt := fun h => hn <| Int64.toInt_inj.mp h
    have hu := holds_eq_iff_of_values ha hx |>.mp left
    have hv := holds_eq_iff_of_values hb hx |>.mp right
    refine ⟨double, hu.left, hv.left, ?_⟩
    simp only [exceeds_longs_iff]
    omega
  case mpr =>
    rintro ⟨⟨y, rfl⟩, rfl, rfl, h⟩
    exact {
      double := ⟨y, rfl⟩
      longs  := by
        rcases h with ⟨n, m, rfl, rfl, hn⟩ | ⟨n, m, rfl, rfl, hn⟩
        · exact ⟨n, m, rfl, rfl, fun h => by simp [h] at hn⟩
        · exact ⟨m, n, rfl, rfl, fun h => by simp [h] at hn⟩
      left   := holds_eq_iff_of_values ha hx |>.mpr (by simp)
      right  := holds_eq_iff_of_values hb hx |>.mpr (by simp) }

-- A double takes no part in what sets integers apart. An integer does: of two others, one lies on
-- either side of it.
theorem double_or_separates (hx : x.value? = some w) :
    (∃ y, x = double y) ∧ (∀ a, ¬Exceeds a x ∧ ¬Exceeds x a) ∨
    (¬∃ y, x = double y) ∧ ∀ a b, Exceeds a b → Exceeds a x ∨ Exceeds x b := by
  rcases long_or_double hx with ⟨n, rfl⟩ | ⟨y, rfl⟩
  case inl => exact .inr ⟨by simp, fun _ _ => Exceeds.or_exceeds n⟩
  case inr => exact .inl ⟨⟨y, rfl⟩, by simp⟩

-- Only where all three values agree there is something to show. It depends on the metric that may
-- blur the others.
theorem Chained.of_values (ha : a.value? = some u) (hb : b.value? = some v)
    (hc : c.value? = some w) : Chained a b c := by
  constructor
  case le =>
    rw [holds_le_iff_of_values ha hb, holds_le_iff_of_values hb hc, holds_le_iff_of_values ha hc,
      holds_lt_iff_of_values hc ha, blurs_iff_of_values hb ha hc]
    intro hab hbc
    rcases double_or_separates hb with ⟨double, apart⟩ | ⟨long, sides⟩
    case inl => grind
    case inr => grind
  case lt_le =>
    rw [holds_lt_iff_of_values ha hb, holds_le_iff_of_values hb hc, holds_lt_iff_of_values ha hc,
      blurs_iff_of_values hc ha hb]
    intro hab hbc
    rcases double_or_separates hc with ⟨double, apart⟩ | ⟨long, sides⟩
    case inl => grind
    case inr => grind
  case le_lt =>
    rw [holds_le_iff_of_values ha hb, holds_lt_iff_of_values hb hc, holds_lt_iff_of_values ha hc,
      blurs_iff_of_values ha hb hc]
    intro hab hbc
    rcases double_or_separates ha with ⟨double, apart⟩ | ⟨long, sides⟩
    case inl => grind
    case inr => grind
  case eq =>
    rw [holds_eq_iff_of_values ha hb, holds_eq_iff_of_values hb hc, holds_eq_iff_of_values ha hc,
      blurs_iff_of_values hb ha hc]
    intro hab hbc
    rcases double_or_separates hb with ⟨double, apart⟩ | ⟨long, sides⟩
    case inl => grind
    case inr => grind

-- Different integers may be rounded to the same double. A chain that passes through this double, or
-- ends there, loses what sets them apart; no other one does.
theorem holds_chained (a b c : Metric) : Chained a b c := by
  apply Chained.of_comparable
  intro hab hbc
  cases alike_of_comparable hab <;> cases alike_of_comparable hbc
  case bools.bools =>
    exact Chained.of_trans (f := bool) (fun _ _ => rfl) nofun
  case strings.strings =>
    exact Chained.of_trans (f := string) (fun _ _ => rfl) nofun
  case numbers.numbers ha _ hb hc =>
    exact Chained.of_values ha.choose_spec hb.choose_spec hc.choose_spec
  case bools.numbers h _ | strings.numbers h _ | numbers.bools _ h | numbers.strings _ h =>
    exact nomatch h.choose_spec

-- Below `2 ^ 53`, then a double of that value, and then the integer above it, which is rounded.
theorem holds_chained_mixed :
    let n : Metric := .long 9007199254740991
    let m : Metric := .long 9007199254740993
    let x : Metric := .double ⟨0x4340000000000000⟩
    Comparison.lt.holds n x ∧ Comparison.le.holds x m ∧ Comparison.lt.holds n m := by
  intro n m x
  have below : Comparison.lt.holds n x := by decide +kernel
  have above : Comparison.le.holds x m := by decide +kernel
  have sharp : ¬Blurs m n x := fun h => Metric.noConfusion h.double.choose_spec
  exact ⟨below, above, holds_chained n x m |>.lt_le below above |>.mpr sharp⟩

-- The integer above `2 ^ 53` is rounded to `2 ^ 53`, so that no law holds without exceptions.
theorem not_holds_trans :
    let n : Metric := .long 9007199254740992
    let m : Metric := .long 9007199254740993
    let x : Metric := .double ⟨0x4340000000000000⟩
    (Comparison.le.holds m x ∧ Comparison.le.holds x n ∧ ¬Comparison.le.holds m n) ∧
    (Comparison.lt.holds n m ∧ Comparison.le.holds m x ∧ ¬Comparison.lt.holds n x) ∧
    (Comparison.le.holds x n ∧ Comparison.lt.holds n m ∧ ¬Comparison.lt.holds x m) ∧
    (Comparison.eq.holds n x ∧ Comparison.eq.holds x m ∧ ¬Comparison.eq.holds n m) := by
  decide +kernel

-- Integers that need no rounding are never blurred, so that the order is transitive among them and
-- the doubles.
theorem not_blurs_of_natAbs_le {n m : Int64} (hn : n.toInt.natAbs ≤ 2 ^ 53)
    (hm : m.toInt.natAbs ≤ 2 ^ 53) : ¬Blurs x (long n) (long m) := by
  rintro ⟨⟨y, rfl⟩, ⟨_, _, ⟨⟩, ⟨⟩, apart⟩, left, right⟩
  cases alike_of_comparable <| comparable_of_holds left nofun
  case numbers _ hx =>
    obtain ⟨w, hx⟩ := hx
    have hu := holds_eq_iff_of_values (value?_long n) hx |>.mp left |>.left
    have hv := holds_eq_iff_of_values (value?_long m) hx |>.mp right |>.left
    rw [Binary64.value_ofInt_exact hn] at hu
    rw [Binary64.value_ofInt_exact hm] at hv
    have units : (Binary64.scaled 1 : Int) ≠ 0 := by
      exact_mod_cast Nat.ne_of_gt Binary64.scaled_pos
    have same := Int.eq_of_mul_eq_mul_right units <| hu.trans hv.symm
    exact apart <| Int64.toInt_inj.mp same

end Metric
end TableProfiling
