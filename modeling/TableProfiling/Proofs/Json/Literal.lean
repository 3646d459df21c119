import Mathlib.Tactic.Common
import TableProfiling.Json.Reader
import TableProfiling.Proofs.Outcome

namespace TableProfiling

section

variable {p : α → Bool} {l rest : List α}

theorem takeWhile_append (h : ∀ c ∈ l, p c = true) (hr : ∀ c ∈ rest.head?, p c = false) :
    (l ++ rest).takeWhile p = l := by
  rw [List.takeWhile_append_of_pos h]
  cases rest <;> simp_all

theorem dropWhile_append (h : ∀ c ∈ l, p c = true) (hr : ∀ c ∈ rest.head?, p c = false) :
    (l ++ rest).dropWhile p = rest := by
  rw [List.dropWhile_append_of_pos h]
  cases rest <;> simp_all

end

namespace Json.Reader

structure IsDigits (ds : List Char) : Prop where
  digit  : ∀ c ∈ ds, c.isDigit = true
  ne_nil : ds ≠ []

-- Whether a character may stand in the place behind a number without belonging to it.
def endsNumber (c : Char) : Bool :=
  !c.isDigit && c ≠ '.' && c ≠ 'e' && c ≠ 'E'

-- A text that does not go on with the number before it.
def EndsNumber (rest : List Char) : Prop :=
  ∀ c ∈ rest.head?, endsNumber c = true

theorem endsNumber_nil : EndsNumber [] :=
  nofun

theorem EndsNumber.not_digit (h : EndsNumber rest) : ∀ c ∈ rest.head?, c.isDigit = false := by
  intro c hc
  have := h c hc
  simp_all [endsNumber]

theorem digits_append (h : IsDigits ds) (hr : ∀ c ∈ rest.head?, c.isDigit = false) :
    digits (ds ++ rest) = .ok (ds, rest) := by
  rw [digits, takeWhile_append h.digit hr, dropWhile_append h.digit hr]
  cases ds
  case nil  => exact absurd rfl h.ne_nil
  case cons => rfl

namespace Literal

def fractionChars : Option (List Char) → List Char
  | none => []
  | some ds => '.' :: ds

def exponentChars (plus : Bool) : Option (Bool × List Char) → List Char
  | none => []
  | some (negative, ds) => 'e' :: (if negative then ['-'] else if plus then ['+'] else []) ++ ds

-- The text of a number after its sign, with or without a plus sign before its exponent.
def chars (plus : Bool) (l : Literal) : List Char :=
  l.whole ++ fractionChars l.fraction ++ exponentChars plus l.exponent

-- The texts of an exponent.
inductive SpelledExponent : Option (Bool × List Char) → List Char → Prop
  | none : SpelledExponent none []
  | unsigned (letter : c = 'e' ∨ c = 'E') : SpelledExponent (some (false, ds)) (c :: ds)
  | plus (letter : c = 'e' ∨ c = 'E') : SpelledExponent (some (false, ds)) (c :: '+' :: ds)
  | minus (letter : c = 'e' ∨ c = 'E') : SpelledExponent (some (true, ds)) (c :: '-' :: ds)

theorem spelled_exponentChars (plus : Bool) (e : Option (Bool × List Char)) :
    SpelledExponent e (exponentChars plus e) := by
  cases e
  case none => exact .none
  case some e =>
    have ⟨negative, ds⟩ := e
    cases negative
    case true => exact .minus <| .inl rfl
    case false =>
      cases plus
      case true  => exact .plus <| .inl rfl
      case false => exact .unsigned <| .inl rfl

-- A number that can be written.
structure Proper (l : Literal) : Prop where
  whole    : IsDigits l.whole
  leading  : l.whole.head? = some '0' → l.whole.length = 1
  fraction : ∀ ds ∈ l.fraction, IsDigits ds
  exponent : ∀ e ∈ l.exponent, IsDigits e.2

theorem Proper.exists_digit {l : Literal} (h : l.Proper) :
    ∃ d ds, l.whole = d :: ds ∧ d.isDigit = true := by
  have ⟨d, ds, hd⟩ := List.exists_cons_of_ne_nil h.whole.ne_nil
  exact ⟨d, ds, hd, h.whole.digit d <| hd ▸ .head _⟩

-- The texts of a number, with its sign.
inductive Spelled (l : Literal) : List Char → Prop
  | intro (h : l.Proper) (he : SpelledExponent l.exponent es) :
    l.Spelled <| (if l.negative then ['-'] else []) ++
      (l.whole ++ fractionChars l.fraction ++ es)

theorem Spelled.exists_first {l : Literal} (h : l.Spelled cs) :
    ∃ c cs', cs = c :: cs' ∧ (c = '-' ∨ c.isDigit = true) := by
  cases h
  case intro h _ =>
    have ⟨d, ds, hd, digit⟩ := h.exists_digit
    rw [hd]
    cases l.negative
    case false => exact ⟨_, _, rfl, .inr digit⟩
    case true  => exact ⟨_, _, rfl, .inl rfl⟩

end Literal

open Literal

theorem exponent_append (h : SpelledExponent e es) (digits : ∀ x ∈ e, IsDigits x.2)
    (hr : EndsNumber rest) : exponent (es ++ rest) = .ok (e, rest) := by
  have append {ds} (hs : IsDigits ds) := digits_append hs hr.not_digit
  cases h
  case none =>
    cases rest
    case nil => rfl
    case cons c cs =>
      have := hr c rfl
      simp_all [exponent, endsNumber]
  case plus letter  => simp [exponent, letter, append <| digits _ rfl]
  case minus letter => simp [exponent, letter, append <| digits _ rfl]
  case unsigned ds letter =>
    -- Without a sign, the first digit stands in its place.
    have hs : IsDigits ds := digits _ rfl
    cases ds
    case nil => exact absurd rfl hs.ne_nil
    case cons d ds =>
      have hc := hs.digit d <| .head _
      simp only [List.cons_append, exponent, letter, if_true]
      split
      case h_1 he => cases he; cases hc
      case h_2 he => cases he; cases hc
      case h_3    => rw [←List.cons_append, append hs]; rfl

theorem fraction_append {f : Option (List Char)} (h : ∀ ds ∈ f, IsDigits ds)
    (hr : ∀ c ∈ rest.head?, c.isDigit = false) (hp : rest.head? ≠ some '.') :
    fraction (fractionChars f ++ rest) = .ok (f, rest) := by
  cases f
  case none =>
    cases rest
    case nil => rfl
    case cons c cs =>
      simp at hp
      simp [fractionChars, fraction]
      split <;> simp_all
  case some ds =>
    simp only [fractionChars, List.cons_append, fraction]
    rw [digits_append (h _ rfl) hr]
    rfl

theorem whole_append (h : IsDigits ds) (hl : ds.head? = some '0' → ds.length = 1)
    (hr : ∀ c ∈ rest.head?, c.isDigit = false) : whole (ds ++ rest) = .ok (ds, rest) := by
  have hl : ¬(ds.length ≠ 1 ∧ ds.head? = some '0') := fun ⟨h₁, h₀⟩ => h₁ <| hl h₀
  rw [whole, digits_append h hr]
  exact if_neg hl

theorem head?_spelledExponent (h : SpelledExponent e es) (hr : EndsNumber rest) :
    ∀ c ∈ (es ++ rest).head?, c.isDigit = false ∧ c ≠ '.' := by
  cases h
  case none =>
    intro c hc
    have := hr c hc
    simp_all [endsNumber]
  all_goals rcases ‹_ ∨ _› with rfl | rfl <;> simp

theorem head?_fractionChars (f : Option (List Char)) (hr : ∀ c ∈ rest.head?, c.isDigit = false) :
    ∀ c ∈ (fractionChars f ++ rest).head?, c.isDigit = false := by
  cases f
  case none => exact hr
  case some => simp [fractionChars]

-- A number is read from each of its texts whatever follows, unless that would go on with the
-- number.
theorem literal_spelled (h : l.Proper) (spelled : SpelledExponent l.exponent es)
    (hr : EndsNumber rest) :
    literal l.negative (l.whole ++ fractionChars l.fraction ++ es ++ rest) = .ok (l, rest) := by
  have he := head?_spelledExponent spelled hr
  have whole := whole_append h.whole h.leading <| head?_fractionChars l.fraction (he · · |>.left)
  have fraction := fraction_append h.fraction (he · · |>.left) (fun hp => (he _ hp).right rfl)
  have exponent := exponent_append spelled h.exponent hr
  simp only [literal, List.append_assoc, whole, fraction, exponent, Outcome.ok_bind]
  rfl

end Json.Reader
end TableProfiling
