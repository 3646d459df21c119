import Mathlib.Data.List.TakeWhile
import Mathlib.Tactic.Common
import TableProfiling.Number.Layout
import TableProfiling.Proofs.Json.Literal
import TableProfiling.Proofs.Number.Decimal

namespace TableProfiling

theorem Binary64.ofMagnitude_magnitude (x : Binary64) :
    ofMagnitude x.isNegative x.magnitude = x := by
  have bits : (if x.isNegative then signBit + x.magnitude else x.magnitude) = x.bits.toNat := by
    have := x.bits.toNat_lt
    simp only [isNegative, magnitude, signBit, decide_eq_true_eq]
    split <;> omega
  rw [ofMagnitude, bits, UInt64.ofNat_toNat]

theorem head?_toDigits (hn : 0 < n) : (Nat.toDigits 10 n).head? ≠ some '0' := by
  induction n using Nat.strongRecOn
  case ind n hi =>
    by_cases h : n < 10
    case pos =>
      have digits : ∀ n < 10, 0 < n → n.digitChar ≠ '0' := by decide
      simpa [Nat.toDigits_of_lt_base h] using digits n h hn
    case neg =>
      have hq : 0 < n / 10 := by omega
      rw [Nat.toDigits_of_base_le (by decide) (by omega), List.head?_append]
      have hi := hi _ (by omega) hq
      cases hd : Nat.toDigits 10 (n / 10)
      case nil  => exact absurd hd Nat.toDigits_ne_nil
      case cons => simpa [hd] using hi

namespace Json.Reader.IsDigits

theorem toDigits (n : Nat) : IsDigits (Nat.toDigits 10 n) where
  digit  := fun _ => Nat.isDigit_of_mem_toDigits (by decide) (by decide)
  ne_nil := Nat.toDigits_ne_nil

theorem zero : IsDigits ['0'] where
  digit  := List.forall_mem_singleton.mpr rfl
  ne_nil := nofun

theorem drop (h : IsDigits ds) (hn : ds.drop k ≠ []) : IsDigits (ds.drop k) where
  digit  := fun c hc => h.digit c <| List.mem_of_mem_drop hc
  ne_nil := hn

theorem zeros_append (h : IsDigits ds) : IsDigits (List.replicate k '0' ++ ds) where
  digit := by
    intro c hc
    cases List.mem_append.mp hc
    case inl hc => exact (List.mem_replicate.mp hc).right ▸ rfl
    case inr hc => exact h.digit c hc
  ne_nil := by simp [h.ne_nil]

theorem take_append_zeros (h : IsDigits ds) :
    IsDigits (ds.take (k + 1) ++ List.replicate n '0') where
  digit := by
    intro c hc
    cases List.mem_append.mp hc
    case inl hc => exact h.digit c <| List.mem_of_mem_take hc
    case inr hc => exact (List.mem_replicate.mp hc).right ▸ rfl
  ne_nil := by simp [h.ne_nil]

end Json.Reader.IsDigits

namespace Layout

variable {l : Layout} {x : Binary64}

theorem dropTrailingZeros_append (ds : List Char) :
    ∃ z, ds = dropTrailingZeros ds ++ List.replicate z '0' := by
  have zeros : ds.reverse.takeWhile (· = '0') =
      List.replicate (ds.reverse.takeWhile (· = '0')).length '0' := by
    refine List.eq_replicate_of_mem fun c hc => ?_
    simpa using List.mem_takeWhile_imp hc
  refine ⟨(ds.reverse.takeWhile (· = '0')).length, ?_⟩
  have h := congrArg List.reverse <|
    List.takeWhile_append_dropWhile (p := (· = '0')) (l := ds.reverse)
  rw [zeros, List.reverse_append, List.reverse_replicate, List.reverse_reverse] at h
  exact h.symm

open Json.Reader

-- The number whose digits, the first of them not zero, begin at an exponent.
def ofDigits (ds : List Char) (e : Int) : Decimal where
  coefficient := Nat.ofDigitChars 10 ds 0
  exponent := e + 1 - ds.length

theorem extend_ofDigits (ds : List Char) (e : Int) (z : Nat) :
    (ofDigits ds e).extend z = ofDigits (ds ++ List.replicate z '0') e := by
  simp only [ofDigits, Decimal.extend, Nat.ofDigitChars_append, Nat.ofDigitChars_replicate_zero,
    List.length_append, List.length_replicate]
  congr 1
  · exact Nat.mul_comm ..
  · omega

theorem ofDigits_toDigits (d : Decimal) : ofDigits d.digits (d.ceiling - 1) = d := by
  simp only [ofDigits, Decimal.digits, Decimal.ceiling, Nat.ofDigitChars_ten_toDigits]
  congr 1
  omega

theorem ofDigits_zeros (ds : List Char) (e : Int) (k : Nat) :
    ofDigits (List.replicate k '0' ++ ds) (e + k) = ofDigits ds e := by
  simp only [ofDigits, Nat.ofDigitChars_append, Nat.ofDigitChars_replicate_zero, Nat.mul_zero,
    List.length_append, List.length_replicate]
  congr 1
  omega

theorem decimal_of_no_exponent {n : Literal} (h : n.exponent = none) :
    n.decimal = ofDigits (n.whole ++ n.fraction.getD []) (n.whole.length - 1) := by
  simp only [Literal.decimal, ofDigits, h, List.length_append]
  congr 1
  omega

-- The number that `positional` writes, after a sign.
def positionalLiteral (negative : Bool) (ds : List Char) : Int → Literal
  | .ofNat k => {
    negative
    whole := ds.take (k + 1) ++ List.replicate (k + 1 - ds.length) '0'
    fraction := some (if (ds.drop (k + 1)).isEmpty then ['0'] else ds.drop (k + 1))
    exponent := none }
  | .negSucc k => {
    negative
    whole := ['0']
    fraction := some (List.replicate k '0' ++ ds)
    exponent := none }

theorem positionalLiteral_chars (p : Bool) :
    (positionalLiteral negative ds e).chars p = positional ds e := by
  cases e <;> simp [positionalLiteral, positional, Literal.chars, Literal.fractionChars,
    Literal.exponentChars]

theorem positionalLiteral_proper (hd : IsDigits ds) (h0 : ds.head? ≠ some '0') :
    (positionalLiteral negative ds e).Proper := by
  cases e
  case ofNat k =>
    refine {
      whole := hd.take_append_zeros
      leading := ?leading
      fraction := ?fraction
      exponent := nofun }
    case leading =>
      intro h
      cases ds
      case nil  => exact absurd rfl hd.ne_nil
      case cons => exact absurd h h0
    case fraction =>
      rintro f ⟨⟩
      split
      case isTrue    => exact .zero
      case isFalse h => exact hd.drop <| by simpa using h
  case negSucc k =>
    refine { whole := .zero, leading := fun _ => rfl, fraction := ?fraction, exponent := nofun }
    rintro f ⟨⟩
    exact hd.zeros_append

theorem positionalLiteral_negative : (positionalLiteral negative ds e).negative = negative := by
  cases e <;> rfl

theorem positionalLiteral_fraction : (positionalLiteral negative ds e).fraction ≠ none := by
  cases e <;> exact nofun

-- The digits are followed by zeros up to the point and, if no digit is left, one behind it.
theorem positionalLiteral_digits (negative : Bool) (ds : List Char) (k : Nat) :
    ∃ z, (positionalLiteral negative ds (.ofNat k)).whole ++
      (positionalLiteral negative ds (.ofNat k)).fraction.getD [] = ds ++ List.replicate z '0' := by
  by_cases h : ds.length ≤ k + 1
  case pos =>
    refine ⟨k + 1 - ds.length + 1, ?_⟩
    simp [positionalLiteral, List.take_of_length_le h, List.drop_of_length_le h,
      List.replicate_succ']
  case neg =>
    refine ⟨0, ?_⟩
    have hz : k + 1 - ds.length = 0 := by omega
    have hn : (ds.drop (k + 1)).isEmpty = false := by simpa using h
    simp [positionalLiteral, hz, hn]

theorem positionalLiteral_magnitude :
    (positionalLiteral negative ds e).decimal.magnitude = (ofDigits ds e).magnitude := by
  cases e
  case ofNat k =>
    have ⟨z, hz⟩ := positionalLiteral_digits negative ds k
    have hl : (positionalLiteral negative ds (.ofNat k)).whole.length = k + 1 := by
      simp [positionalLiteral]
      omega
    rw [decimal_of_no_exponent rfl, hz, ←extend_ofDigits, Decimal.magnitude_extend, hl]
    simp
  case negSucc k =>
    have hz : (positionalLiteral negative ds (.negSucc k)).whole ++
        (positionalLiteral negative ds (.negSucc k)).fraction.getD [] =
        List.replicate (k + 1) '0' ++ ds :=
      rfl
    have he : ((['0'].length : Int) - 1) = .negSucc k + (k + 1 : Nat) := by
      rw [Int.negSucc_eq, List.length_singleton]
      omega
    rw [decimal_of_no_exponent rfl, hz]
    exact he ▸ congrArg Decimal.magnitude (ofDigits_zeros ds (.negSucc k) (k + 1))

-- The number that `scientific` writes, after a sign.
def scientificLiteral (negative : Bool) (e : Int) (ds : List Char) : Literal where
  negative := negative
  whole := ds.take 1
  fraction := if (ds.drop 1).isEmpty then none else some (ds.drop 1)
  exponent := some (e < 0, Nat.toDigits 10 e.natAbs)

theorem scientificLiteral_chars (hd : IsDigits ds) :
    (scientificLiteral negative e ds).chars l.plus = l.scientific e ds := by
  cases ds
  case nil => exact absurd rfl hd.ne_nil
  case cons d ds =>
    cases ds <;> simp [scientificLiteral, scientific, exponent, Literal.chars,
      Literal.fractionChars, Literal.exponentChars]

theorem scientificLiteral_proper (hd : IsDigits ds) :
    (scientificLiteral negative e ds).Proper := by
  cases ds
  case nil => exact absurd rfl hd.ne_nil
  case cons d ds =>
    refine {
      whole := hd.take_append_zeros (k := 0) (n := 0)
      leading := fun _ => rfl
      fraction := ?fraction
      exponent := ?exponent }
    case fraction =>
      simp only [scientificLiteral, List.isEmpty_iff]
      split
      case isTrue    => nofun
      case isFalse h =>
        rintro f ⟨⟩
        exact hd.drop h
    case exponent =>
      rintro x ⟨⟩
      exact .toDigits _

theorem scientificLiteral_decimal (hd : IsDigits ds) :
    (scientificLiteral negative e ds).decimal = ofDigits ds e := by
  cases ds
  case nil => exact absurd rfl hd.ne_nil
  case cons d ds =>
    have hf : (scientificLiteral negative e (d :: ds)).fraction.getD [] = ds := by
      cases ds <;> rfl
    have he : (if e < 0 then -(e.natAbs : Int) else e.natAbs) = e := by
      split <;> omega
    simp only [Literal.decimal, hf]
    simp only [scientificLiteral, ofDigits, Nat.ofDigitChars_ten_toDigits, decide_eq_true_eq, he,
      List.take_succ_cons, List.take_zero, List.singleton_append, List.length_cons]
    congr 1
    omega

-- The digits that are written for a magnitude, without the zeros at their end.
def significant (l : Layout) (m : Nat) : List Char :=
  dropTrailingZeros (Decimal.shortest l.tie m).digits

-- The exponent of the first of these digits.
def leading (l : Layout) (m : Nat) : Int :=
  (Decimal.shortest l.tie m).ceiling - 1

theorem magnitude_eq (l : Layout) (m : Nat) :
    l.magnitude m =
      if l.isPositional (l.leading m) then positional (l.significant m) (l.leading m)
      else l.scientific (l.leading m) (l.significant m) :=
  rfl

theorem chars_eq (l : Layout) (x : Binary64) :
    l.chars x = (if x.isNegative then ['-'] else []) ++
      (if x.magnitude = 0 then ['0', '.', '0'] else l.magnitude x.magnitude) := by
  rw [chars]
  split <;> rfl

-- The zeros that are not written do not count.
theorem magnitude_significant (h : m < Binary64.infiniteMagnitude) (l : Layout) :
    (ofDigits (l.significant m) (l.leading m)).magnitude = m := by
  have ⟨z, hz⟩ := dropTrailingZeros_append (Decimal.shortest l.tie m).digits
  rw [significant, leading, ←Decimal.magnitude_extend _ z, extend_ofDigits, ←hz, ofDigits_toDigits]
  exact Decimal.shortest_readsAs h l.tie

theorem shortest_ne_zero (h : m < Binary64.infiniteMagnitude) (h0 : m ≠ 0) (tie : Tie) :
    (Decimal.shortest tie m).coefficient ≠ 0 := by
  have reads : (Decimal.shortest tie m).magnitude = m := Decimal.shortest_readsAs h tie
  exact fun hc => h0 <| reads ▸ if_pos hc

theorem significant_digits (h : m < Binary64.infiniteMagnitude) (h0 : m ≠ 0) (l : Layout) :
    IsDigits (l.significant m) ∧ (l.significant m).head? ≠ some '0' := by
  have ⟨z, hz⟩ := dropTrailingZeros_append (Decimal.shortest l.tie m).digits
  have hd : IsDigits (Decimal.shortest l.tie m).digits := .toDigits _
  have hl : (Decimal.shortest l.tie m).digits.head? ≠ some '0' :=
    head?_toDigits <| Nat.pos_of_ne_zero <| shortest_ne_zero h h0 l.tie
  rw [significant]
  rw [hz] at hd hl
  generalize dropTrailingZeros (Decimal.shortest l.tie m).digits = ds at hd hl
  cases ds
  case nil => cases z <;> simp_all [List.replicate_succ]
  case cons d ds => exact ⟨⟨fun c hc => hd.digit c <| List.mem_append_left _ hc, nofun⟩, hl⟩

-- A number as it is written that spells a double: it has a fraction or an exponent, so that it is
-- no integer, and what it reads as is the double.
structure Spells (l : Layout) (x : Binary64) (n : Literal) : Prop where
  proper    : n.Proper
  fraction  : n.fraction ≠ none ∨ n.exponent ≠ none
  negative  : n.negative = x.isNegative
  magnitude : n.decimal.magnitude = x.magnitude
  text      : n.chars l.plus =
    if x.magnitude = 0 then ['0', '.', '0'] else l.magnitude x.magnitude

namespace Spells

variable {n : Literal}

theorem chars (s : l.Spells x n) :
    l.chars x = (if n.negative then ['-'] else []) ++ n.chars l.plus := by
  rw [chars_eq, s.negative, s.text]

theorem integer? (s : l.Spells x n) : n.integer? = none :=
  if_neg fun ⟨hf, he⟩ => s.fraction.elim (· hf) (· he)

theorem toBinary64? (s : l.Spells x n) (h : x.isFinite) :
    n.decimal.toBinary64? n.negative = some x := by
  rw [Decimal.toBinary64?, s.magnitude, s.negative, x.ofMagnitude_magnitude]
  exact if_pos <| of_decide_eq_true h

theorem doc (s : l.Spells x n) (h : x.isFinite) : n.doc = .number (.double x h) := by
  have hd : n.double? = some (.double x h) := by
    rw [Literal.double?, s.toBinary64? h]
    exact dif_pos h
  rw [Literal.doc, s.integer?, hd]
  rfl

end Spells

-- The number that is written for a finite double, after a sign.
def literal (l : Layout) (x : Binary64) : Literal :=
  if x.magnitude = 0 then
    ⟨x.isNegative, ['0'], some ['0'], none⟩
  else if l.isPositional (l.leading x.magnitude) then
    positionalLiteral x.isNegative (l.significant x.magnitude) (l.leading x.magnitude)
  else
    scientificLiteral x.isNegative (l.leading x.magnitude) (l.significant x.magnitude)

theorem zero_spells (l : Layout) (h0 : x.magnitude = 0) :
    l.Spells x ⟨x.isNegative, ['0'], some ['0'], none⟩ where
  proper := {
    whole := .zero
    leading := fun _ => rfl
    fraction := by rintro f ⟨⟩; exact .zero
    exponent := nofun }
  fraction := .inl nofun
  negative := rfl
  magnitude := h0 ▸ rfl
  text := by rw [if_pos h0]; rfl

theorem positional_spells (hx : x.magnitude < Binary64.infiniteMagnitude) (h0 : x.magnitude ≠ 0)
    (hp : l.isPositional (l.leading x.magnitude)) :
    l.Spells x (positionalLiteral x.isNegative (l.significant x.magnitude)
      (l.leading x.magnitude)) where
  proper := have ⟨hd, hl⟩ := significant_digits hx h0 l; positionalLiteral_proper hd hl
  fraction := .inl positionalLiteral_fraction
  negative := positionalLiteral_negative
  magnitude := positionalLiteral_magnitude.trans <| magnitude_significant hx l
  text := by rw [if_neg h0, magnitude_eq, if_pos hp, positionalLiteral_chars]

theorem scientific_spells (hx : x.magnitude < Binary64.infiniteMagnitude) (h0 : x.magnitude ≠ 0)
    (hp : ¬l.isPositional (l.leading x.magnitude)) :
    l.Spells x (scientificLiteral x.isNegative (l.leading x.magnitude)
      (l.significant x.magnitude)) :=
  have ⟨hd, _⟩ := significant_digits hx h0 l
  { proper := scientificLiteral_proper hd
    fraction := .inr nofun
    negative := rfl
    magnitude := scientificLiteral_decimal hd ▸ magnitude_significant hx l
    text := by rw [if_neg h0, magnitude_eq, if_neg hp, scientificLiteral_chars hd] }

-- Whichever way the digits are laid out, they are a number that reads as the double.
theorem literal_spells (l : Layout) (h : x.isFinite) : l.Spells x (l.literal x) := by
  have hx : x.magnitude < Binary64.infiniteMagnitude := of_decide_eq_true h
  rw [literal]
  split
  case isTrue h0 => exact zero_spells l h0
  case isFalse h0 =>
    split
    case isTrue hp  => exact positional_spells hx h0 hp
    case isFalse hp => exact scientific_spells hx h0 hp

end Layout
end TableProfiling
