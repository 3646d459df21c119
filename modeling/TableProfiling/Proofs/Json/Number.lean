import TableProfiling.Json.Printer
import TableProfiling.Proofs.Json.Spelling

namespace TableProfiling.Json

namespace Number

-- A number as it is written.
def literal : Number → Reader.Literal
  | integer n _ => ⟨n < 0, Nat.toDigits 10 n.natAbs, none, none⟩
  | double x _  => layout.literal x

theorem chars_eq (n : Number) :
    n.chars = (if n.literal.negative then ['-'] else []) ++ n.literal.chars layout.plus := by
  cases n
  case integer n _ =>
    simp only [chars, integerChars, literal, decide_eq_true_eq]
    split <;> simp [Reader.Literal.chars, Reader.Literal.fractionChars,
      Reader.Literal.exponentChars]
  case double x h => exact Layout.literal_spells layout h |>.chars

theorem literal_proper (n : Number) : n.literal.Proper := by
  cases n
  case integer n _ =>
    refine { whole := .toDigits _, leading := ?leading, fraction := nofun, exponent := nofun }
    intro h
    have hn : n.natAbs = 0 := Nat.eq_zero_of_not_pos fun hn => head?_toDigits hn h
    simp [literal, hn]
  case double x h => exact Layout.literal_spells layout h |>.proper

theorem spelled (n : Number) : n.literal.Spelled n.chars := by
  rw [chars_eq]
  exact .intro n.literal_proper <| Reader.Literal.spelled_exponentChars ..

theorem exists_first (n : Number) : ∃ c cs, n.chars = c :: cs ∧ (c = '-' ∨ c.isDigit = true) :=
  n.spelled.exists_first

theorem literal_integer? (fits) : (integer n fits).literal.integer? = some (integer n fits) := by
  rw [Reader.Literal.integer?, if_pos ⟨rfl, rfl⟩]
  simp only [literal, Nat.ofDigitChars_ten_toDigits, decide_eq_true_eq]
  by_cases hn : n < 0
  case pos =>
    have h : 0 < n.natAbs ∧ n.natAbs ≤ 0x8000000000000000 := by omega
    have hv : -(n.natAbs : Int) = n := by omega
    rw [if_pos hn, dif_pos h]
    simp only [hv]
  case neg =>
    have h : n.natAbs < 0x10000000000000000 := by omega
    have hv : (n.natAbs : Int) = n := by omega
    rw [if_neg hn, dif_pos h]
    simp only [hv]

theorem literal_doc (n : Number) : n.literal.doc = .number n := by
  cases n
  case integer n fits =>
    rw [Reader.Literal.doc, literal_integer? fits]
    rfl
  case double x h => exact Layout.literal_spells layout h |>.doc h

end Number

namespace Reader

theorem skipBlanks_cons (h : isBlankChar c = false) : skipBlanks (c :: cs) = c :: cs :=
  List.dropWhile_cons_of_neg <| by simp [h]

theorem isBlankChar_digit (h : c.isDigit) : isBlankChar c = false := by
  simp only [isBlankChar, Bool.or_eq_false_iff, decide_eq_false_iff_not]
  refine ⟨⟨⟨?_, ?_⟩, ?_⟩, ?_⟩ <;> rintro rfl <;> cases h

-- A value that begins with a digit is a number.
theorem value_digit (h : c.isDigit) (k : Nat) :
    value (k + 1) (c :: cs) = number false (c :: cs) := by
  rw [value, skipBlanks_cons <| isBlankChar_digit h]
  split
  case h_9 he =>
    cases he
    exact if_pos h
  all_goals cases ‹_ = _›
  all_goals cases h

-- One step is enough to read a number, as nothing is nested in it.
theorem value_literal {l : Literal} (h : l.Spelled cs) (hr : EndsNumber rest) (k : Nat) :
    value (k + 1) (cs ++ rest) = (l.doc, rest) := by
  cases h
  case intro es proper exponent =>
    have hn : number l.negative (l.whole ++ Literal.fractionChars l.fraction ++ es ++ rest) =
        (l.doc, rest) := by
      rw [number, literal_spelled proper exponent hr]
    cases hs : l.negative
    case true =>
      rw [hs] at hn
      exact hn
    case false =>
      have ⟨d, ds, hd, digit⟩ := proper.exists_digit
      rw [hs, hd] at hn
      rw [hd]
      exact value_digit digit k |>.trans hn

theorem value_number (n : Number) (hr : EndsNumber rest) (k : Nat) :
    value (k + 1) (n.chars ++ rest) = (.number n, rest) :=
  n.literal_doc ▸ value_literal n.spelled hr k

end Reader

end TableProfiling.Json
