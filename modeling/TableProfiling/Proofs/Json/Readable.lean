import TableProfiling.Proofs.Json.Grammar
import TableProfiling.Proofs.Number.Range

namespace TableProfiling.Json

open Outcome

namespace Reader.Literal

variable {l : Literal} {n n' : Int} {x y : Binary64}

-- An integer as it is written. Minus zero is none, as an integer has no sign if it is zero.
structure Denotes (l : Literal) (n : Int) : Prop where
  fraction : l.fraction = none
  exponent : l.exponent = none
  value    : n = if l.negative then -(Nat.ofDigitChars 10 l.whole 0 : Int)
    else Nat.ofDigitChars 10 l.whole 0
  unsigned : n = 0 → l.negative = false

-- A number, correctly rounded to a finite double.
structure ReadsAs (l : Literal) (x : Binary64) : Prop where
  finite   : x.isFinite
  negative : x.isNegative = l.negative
  nearest  : Binary64.IsNearest l.decimal.numerator l.decimal.denominator x.magnitude

theorem Denotes.unique (h : l.Denotes n) (h' : l.Denotes n') : n = n' :=
  h.value.trans h'.value.symm

theorem ReadsAs.unique (h : l.ReadsAs x) (h' : l.ReadsAs y) : x = y := by
  have magnitude := h.nearest.unique l.decimal.denominator_pos h'.nearest
  rw [←x.ofMagnitude_magnitude, ←y.ofMagnitude_magnitude, magnitude, h.negative, h'.negative]

-- A number is taken for the integer that it denotes, unless this does not fit.
theorem integer?_cases (l : Literal) :
    (∃ n fits, l.integer? = some (.integer n fits) ∧ l.Denotes n) ∨
    (l.integer? = none ∧ ∀ n, l.Denotes n → n < -0x8000000000000000 ∨ 0x10000000000000000 ≤ n) := by
  by_cases h : l.fraction = none ∧ l.exponent = none
  case neg =>
    exact .inr ⟨if_neg h, fun n hn => absurd ⟨hn.fraction, hn.exponent⟩ h⟩
  case pos =>
    rw [integer?, if_pos h]
    cases hs : l.negative
    case true =>
      by_cases fits : 0 < Nat.ofDigitChars 10 l.whole 0 ∧
          Nat.ofDigitChars 10 l.whole 0 ≤ 0x8000000000000000
      case pos =>
        refine .inl ⟨-(Nat.ofDigitChars 10 l.whole 0 : Int), _, dif_pos fits,
          h.left, h.right, ?_, fun hn => ?_⟩
        · rw [hs]; rfl
        · omega
      case neg =>
        refine .inr ⟨dif_neg fits, fun n hn => ?_⟩
        have value := hn.value
        have signed : n ≠ 0 := fun h0 => Bool.noConfusion <| hs.symm.trans <| hn.unsigned h0
        rw [hs, if_pos rfl] at value
        omega
    case false =>
      by_cases fits : Nat.ofDigitChars 10 l.whole 0 < 0x10000000000000000
      case pos =>
        refine .inl ⟨_, _, dif_pos fits, h.left, h.right, ?_, fun _ => hs⟩
        rw [hs]; rfl
      case neg =>
        refine .inr ⟨dif_neg fits, fun n hn => ?_⟩
        have value := hn.value
        rw [hs, if_neg Bool.false_ne_true] at value
        omega

theorem Denotes.decimal (h : l.Denotes n) : l.decimal = ⟨n.natAbs, 0⟩ := by
  have value : (Nat.ofDigitChars 10 l.whole 0) = n.natAbs := by
    have := h.value
    split at this <;> omega
  simp [Literal.decimal, h.fraction, h.exponent, value]

theorem Denotes.inRange (h : l.Denotes n) (small : n.natAbs < 2 ^ 64) : l.decimal.InRange := by
  rw [Decimal.inRange_iff, h.decimal]
  simp only [Decimal.numerator, Decimal.denominator, Int.toNat_zero, Int.neg_zero, tenTo_zero,
    Nat.mul_one]
  exact Binary64.nearestMagnitude_lt small

-- An integer that is too large is rounded as any other number is.
theorem Denotes.readsAs_ofInt (h : l.Denotes n) (hn : 0 ≤ n) (fits : n < 0x10000000000000000) :
    l.ReadsAs (.ofInt n) := by
  have small : n.natAbs < 2 ^ 64 := by omega
  have magnitude : Binary64.nearestMagnitude n.natAbs 1 < Binary64.signBit :=
    Nat.lt_trans (Binary64.nearestMagnitude_lt small) (by decide)
  refine ⟨Binary64.isFinite_ofInt small, ?negative, ?nearest⟩
  case negative =>
    have sign : l.negative = decide (n < 0) := by
      have := h.value
      have := h.unsigned
      cases hs : l.negative <;> simp_all
    rw [Binary64.ofInt, Binary64.isNegative_ofMagnitude magnitude, sign]
  case nearest =>
    rw [Binary64.ofInt, Binary64.magnitude_ofMagnitude magnitude, h.decimal]
    simp only [Decimal.numerator, Decimal.denominator, Int.toNat_zero, Int.neg_zero, tenTo_zero,
      Nat.mul_one]
    exact Binary64.nearestMagnitude_isNearest Nat.one_pos

theorem double?_eq (h : l.decimal.InRange) :
    ∃ x finite, l.double? = some (.double x finite) ∧ l.ReadsAs x := by
  have below := Decimal.magnitude_lt_iff.mpr h
  have magnitude := Nat.lt_trans below (show Binary64.infiniteMagnitude < Binary64.signBit by decide)
  have same := Binary64.magnitude_ofMagnitude magnitude l.negative
  have finite : (Binary64.ofMagnitude l.negative l.decimal.magnitude).isFinite := by
    rw [Binary64.isFinite, same]
    exact decide_eq_true below
  refine ⟨_, finite, ?_, finite, Binary64.isNegative_ofMagnitude magnitude _, ?_⟩
  · rw [double?, Decimal.toBinary64?, if_pos below]
    exact dif_pos finite
  · exact same.symm ▸ Decimal.magnitude_isNearest h

theorem ReadsAs.inRange (h : l.ReadsAs x) : l.decimal.InRange := by
  have rounded := Binary64.nearestMagnitude_isNearest (a := l.decimal.numerator)
    l.decimal.denominator_pos
  rw [Decimal.inRange_iff, ←h.nearest.unique l.decimal.denominator_pos rounded]
  exact of_decide_eq_true h.finite

theorem doc_of_not_inRange (h : ¬l.decimal.InRange) : l.doc = .unreadable := by
  have double : l.double? = none := by
    rw [double?, Decimal.toBinary64?, if_neg <| Decimal.magnitude_lt_iff.not.mpr h]
  rcases l.integer?_cases with ⟨n, fits, _, denotes⟩ | ⟨none, _⟩
  case inl => exact absurd (denotes.inRange <| by omega) h
  case inr =>
    rw [doc, none, double]
    rfl

-- The value of a number that is in range.
theorem doc_cases (h : l.decimal.InRange) :
    (∃ n fits, l.doc = .number (.integer n fits) ∧ l.Denotes n) ∨
    ∃ x finite, l.doc = .number (.double x finite) ∧ l.ReadsAs x ∧
      ∀ n, l.Denotes n → n < -0x8000000000000000 ∨ 0x10000000000000000 ≤ n := by
  rcases l.integer?_cases with ⟨n, fits, hn, denotes⟩ | ⟨none, large⟩
  case inl =>
    refine .inl ⟨n, fits, ?_, denotes⟩
    rw [doc, hn]
    rfl
  case inr =>
    obtain ⟨x, finite, hx, reads⟩ := double?_eq h
    refine .inr ⟨x, finite, ?_, reads, large⟩
    rw [doc, none, hx]
    rfl

end Reader.Literal

namespace Term

-- A term that has a value: it has at most so many levels of arrays and objects, and no number in it
-- is out of range.
inductive Readable : Nat → Term → Prop
  | null : Readable n .null
  | bool (b : Bool) : Readable n (.bool b)
  | number (h : l.decimal.InRange) : Readable n (.number l)
  | string (s : String) : Readable n (.string s)
  | array (h : ∀ t ∈ ts, Readable n t) : Readable (n + 1) (.array ts)
  | object {ms : List (String × Term)} (h : ∀ m ∈ ms, Readable n m.2) : Readable (n + 1) (.object ms)

variable {o : Origin}

theorem exists_values {ts : List Term} (h : ∀ t ∈ ts, ∃ v, t.doc.value o = .ok v) :
    ∃ vs, (itemsDoc ts).values o = .ok vs := by
  induction ts
  case nil => exact ⟨[], rfl⟩
  case cons t ts hi =>
    have ⟨⟨v, hv⟩, others⟩ := List.forall_mem_cons.mp h
    have ⟨vs, hvs⟩ := hi others
    refine ⟨v :: vs, ?_⟩
    simp only [itemsDoc, Items.values, hv, hvs, ok_bind]
    rfl

theorem exists_memberValues {ms : List (String × Term)} (before : List (String × Value))
    (h : ∀ m ∈ ms, ∃ v, m.2.doc.value o = .ok v) :
    ∃ vs, (membersDoc ms).values o before = .ok vs := by
  induction ms generalizing before
  case nil => exact ⟨before, rfl⟩
  case cons m ms hi =>
    have ⟨⟨v, hv⟩, others⟩ := List.forall_mem_cons.mp h
    have ⟨vs, hvs⟩ := hi (putSorted m.1 v before) others
    refine ⟨vs, ?_⟩
    simp only [membersDoc, Members.values, hv, hvs, ok_bind]

theorem Readable.array_value (h : ∀ t ∈ ts, ∃ v, t.doc.value (.text n) = .ok v) :
    ∃ vs, (Term.array ts).doc.value (.text (n + 1)) = .ok (.array vs) := by
  have ⟨vs, hvs⟩ := exists_values h
  refine ⟨vs, ?_⟩
  simp only [doc, Doc.value, Origin.enter, hvs, ok_bind]
  rfl

theorem Readable.object_value {ms : List (String × Term)}
    (h : ∀ m ∈ ms, ∃ v, m.2.doc.value (.text n) = .ok v) :
    ∃ vs, (Term.object ms).doc.value (.text (n + 1)) = .ok (.object vs) := by
  have ⟨vs, hvs⟩ := exists_memberValues [] h
  refine ⟨vs, ?_⟩
  simp only [doc, Doc.value, Origin.enter, hvs, ok_bind]
  rfl

theorem Readable.exists_value (h : Readable n t) : ∃ v, t.doc.value (.text n) = .ok v := by
  induction h
  case null     => exact ⟨_, rfl⟩
  case bool     => exact ⟨_, rfl⟩
  case string   => exact ⟨_, rfl⟩
  case number h =>
    rcases Reader.Literal.doc_cases h with ⟨n, fits, hd, _⟩ | ⟨x, finite, hd, _⟩
    case inl => exact ⟨_, by rw [doc, hd]; rfl⟩
    case inr => exact ⟨_, by rw [doc, hd]; rfl⟩
  case array hi =>
    have ⟨vs, hvs⟩ := array_value hi
    exact ⟨_, hvs⟩
  case object hi =>
    have ⟨vs, hvs⟩ := object_value hi
    exact ⟨_, hvs⟩

end Term

end TableProfiling.Json
