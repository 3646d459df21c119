import TableProfiling.Metric.Validation
import TableProfiling.Proofs.Number.Nearest

namespace TableProfiling

theorem natAbs_toInt_lt (n : Int64) : n.toInt.natAbs < 2 ^ 64 := by
  have := n.toInt_lt
  have := n.le_toInt
  omega

theorem Binary64.not_isNaN_ofInt (h : n.natAbs < 2 ^ 64) : (ofInt n).isNaN = false := by
  have finite := isFinite_ofInt h
  simp only [isFinite, isNaN, decide_eq_true_eq, decide_eq_false_iff_not] at *
  omega

namespace Metric

variable {a b : Metric} {u v : Int}

theorem holds_of_ordered (h : a.compare? b = some o) (c : Comparison) :
    c.holds a b = c.accepts o := by
  rw [Comparison.holds, h]

-- Incomparable metrics are only said to differ.
theorem holds_of_apart (h : a.compare? b = none) (c : Comparison) : c.holds a b ↔ c = .ne := by
  rw [Comparison.holds, h, decide_eq_true_iff]

theorem holds_eq_iff : Comparison.eq.holds a b ↔ a.compare? b = some .eq := by
  cases h : a.compare? b
  case none   => simp [holds_of_apart h]
  case some o => simp [holds_of_ordered h, Comparison.accepts]

theorem holds_lt_iff : Comparison.lt.holds a b ↔ a.compare? b = some .lt := by
  cases h : a.compare? b
  case none   => simp [holds_of_apart h]
  case some o => simp [holds_of_ordered h, Comparison.accepts]

theorem holds_le_iff : Comparison.le.holds a b ↔ ∃ o, a.compare? b = some o ∧ o.isLE := by
  cases h : a.compare? b
  case none   => simp [holds_of_apart h]
  case some o => cases o <;> simp [holds_of_ordered h, Comparison.accepts]

theorem comparable_of_holds {r : Comparison} (h : r.holds a b) (hr : r ≠ .ne) :
    ∃ o, a.compare? b = some o := by
  cases ho : a.compare? b
  case none   => exact absurd (holds_of_apart ho r |>.mp h) hr
  case some o => exact ⟨o, rfl⟩

-- The value of a number, after it was rounded.
def value? (m : Metric) : Option Int :=
  m.toBinary64?.filter (!·.isNaN) |>.map (·.value)

theorem value?_eq_some_iff :
    a.value? = some u ↔ ∃ y, a.toBinary64? = some y ∧ y.isNaN = false ∧ y.value = u := by
  simp [value?, and_assoc]

theorem value?_long (n : Int64) : (long n).value? = some (Binary64.ofInt n.toInt).value :=
  value?_eq_some_iff.mpr ⟨_, rfl, Binary64.not_isNaN_ofInt <| natAbs_toInt_lt n, rfl⟩

theorem value?_double {x : Binary64} (h : x.isNaN = false) : (double x).value? = some x.value :=
  value?_eq_some_iff.mpr ⟨x, rfl, h, rfl⟩

theorem long_or_double (h : a.value? = some u) : (∃ n, a = long n) ∨ ∃ y, a = double y := by
  cases a
  case long n   => exact .inl ⟨n, rfl⟩
  case double y => exact .inr ⟨y, rfl⟩
  all_goals cases h

-- Only two integers are compared without being rounded.
theorem compare?_values (ha : a.value? = some u) (hb : b.value? = some v)
    (h : (∃ y, a = double y) ∨ ∃ y, b = double y) : a.compare? b = some (compare u v) := by
  obtain ⟨p, hp, np, rfl⟩ := value?_eq_some_iff.mp ha
  obtain ⟨q, hq, nq, rfl⟩ := value?_eq_some_iff.mp hb
  have rounded : a.compare? b = a.toBinary64?.bind fun p => b.toBinary64?.bind p.compare? := by
    rcases h with ⟨y, rfl⟩ | ⟨y, rfl⟩
    case inl => cases b <;> rfl
    case inr => cases a <;> rfl
  rw [rounded, hp, hq]
  simp [Binary64.compare?, np, nq]

-- What is comparable is of one kind.
inductive Alike : Metric → Metric → Prop
  | bools (p q : Bool) : Alike (bool p) (bool q)
  | strings (s t : String) : Alike (string s) (string t)
  | numbers {a b : Metric} (ha : ∃ u, a.value? = some u) (hb : ∃ v, b.value? = some v) : Alike a b

theorem alike_of_comparable (h : ∃ o, a.compare? b = some o) : Alike a b := by
  obtain ⟨o, h⟩ := h
  revert h
  fun_cases compare? a b
  case case1 p q => exact fun _ => .bools p q
  case case2 n m => exact fun _ => .numbers ⟨_, value?_long n⟩ ⟨_, value?_long m⟩
  case case3 s t => exact fun _ => .strings s t
  case case4 =>
    intro h
    obtain ⟨p, hp, q, hq, h⟩ : ∃ p, a.toBinary64? = some p ∧ ∃ q, b.toBinary64? = some q ∧
        p.compare? q = some o := by
      simpa [Option.bind_eq_some_iff] using h
    have numbers : ¬(p.isNaN ∨ q.isNaN) := by
      rw [←Binary64.compare?_eq_none_iff, h]
      exact Option.some_ne_none o
    simp only [not_or, Bool.not_eq_true] at numbers
    exact .numbers ⟨_, value?_eq_some_iff.mpr ⟨p, hp, numbers.left, rfl⟩⟩
      ⟨_, value?_eq_some_iff.mpr ⟨q, hq, numbers.right, rfl⟩⟩

end Metric
end TableProfiling
