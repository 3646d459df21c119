import Mathlib.Tactic.Common
import TableProfiling.Json.Printer
import TableProfiling.Json.Reader

namespace TableProfiling.Json.Reader

-- The texts of a character in a string.
inductive SpelledChar : Char → List Char → Prop
  | plain (quote : c ≠ '"') (backslash : c ≠ '\\') (printed : 32 ≤ c.toNat) : SpelledChar c [c]
  | named (h : unescape? e = some c) : SpelledChar c ['\\', e]
  | numbered (h : hex4? x₁ x₂ x₃ x₄ = some c.toNat) : SpelledChar c ['\\', 'u', x₁, x₂, x₃, x₄]
  | paired (h : hex4? x₁ x₂ x₃ x₄ = some m) (leading : 0xD800 ≤ m ∧ m < 0xDC00)
    (h' : hex4? y₁ y₂ y₃ y₄ = some n) (trailing : 0xDC00 ≤ n ∧ n < 0xE000)
    (value : c.toNat = 0x10000 + (m - 0xD800) * 0x400 + (n - 0xDC00)) :
    SpelledChar c ['\\', 'u', x₁, x₂, x₃, x₄, '\\', 'u', y₁, y₂, y₃, y₄]

-- The texts of some characters, one after the other.
inductive SpelledChars : List Char → List Char → Prop
  | nil : SpelledChars [] []
  | cons (h : SpelledChar c ts) (hs : SpelledChars cs us) : SpelledChars (c :: cs) (ts ++ us)

theorem not_surrogate (c : Char) : ¬(0xD800 ≤ c.toNat ∧ c.toNat < 0xE000) := by
  rintro ⟨low, high⟩
  rcases c.valid with h | ⟨h, _⟩
  · exact absurd h <| Nat.not_lt_of_le low
  · exact absurd h <| Nat.not_lt_of_le <| Nat.le_of_lt_succ high

namespace Gathered

variable {chars : Option (List Char)}

theorem pushUnit_char (c : Char) :
    (⟨chars, none⟩ : Gathered).pushUnit c.toNat = ⟨chars.map (c :: ·), none⟩ := by
  have := not_surrogate c
  have leading : ¬(0xD800 ≤ c.toNat ∧ c.toNat < 0xDC00) := by omega
  have trailing : ¬(0xDC00 ≤ c.toNat ∧ c.toNat < 0xE000) := by omega
  simp [pushUnit, leading, trailing]

theorem pushUnit_leading (h : 0xD800 ≤ m ∧ m < 0xDC00) :
    (⟨chars, none⟩ : Gathered).pushUnit m = ⟨chars, some m⟩ :=
  if_pos h

theorem pushUnit_trailing {c : Char} (h : 0xDC00 ≤ n ∧ n < 0xE000)
    (value : c.toNat = 0x10000 + (m - 0xD800) * 0x400 + (n - 0xDC00)) :
    (⟨chars, some m⟩ : Gathered).pushUnit n = ⟨chars.map (c :: ·), none⟩ := by
  simp only [pushUnit, if_pos h, ←value, Char.ofNat_toNat]

end Gathered

theorem string_spelledChar (h : SpelledChar c ts) (chars : Option (List Char)) (rest : List Char) :
    string ⟨chars, none⟩ (ts ++ rest) = string ⟨chars.map (c :: ·), none⟩ rest := by
  cases h
  case plain quote backslash printed =>
    rw [List.singleton_append, string, if_neg <| Nat.not_lt_of_le printed]
    · rfl
    · exact quote
    · exact backslash
  case named e h =>
    have name : e ≠ 'u' := by
      rintro rfl
      cases h
    simp [string, h, Gathered.push]
  case numbered h => simp [string, h, Gathered.pushUnit_char]
  case paired h leading h' trailing value =>
    simp [string, h, h', Gathered.pushUnit_leading leading,
      Gathered.pushUnit_trailing trailing value]

theorem string_spelledChars (h : SpelledChars cs ts) (before : List Char) :
    string ⟨some before, none⟩ (ts ++ '"' :: rest) =
      .ok (some (.ofList (before.reverse ++ cs)), rest) := by
  induction h generalizing before
  case nil => simp [string, Gathered.finish?]
  case cons h _ hi =>
    rw [List.append_assoc, string_spelledChar h, Option.map_some, hi]
    simp

-- A string is read from each of its texts, behind the opening quote of the text.
theorem string_spelled (h : SpelledChars s.toList ts) (rest : List Char) :
    string .start (ts ++ '"' :: rest) = .ok (some s, rest) := by
  rw [Gathered.start, string_spelledChars h, List.reverse_nil, List.nil_append, String.ofList_toList]

theorem hex4?_control :
    ∀ n < 32, hex4? '0' '0' (Nat.digitChar (n / 16)) (Nat.digitChar (n % 16)) = some n := by
  decide

theorem spelled_escapedChar (c : Char) : SpelledChar c (escapedChar c) := by
  unfold escapedChar
  split
  case h_8 quote backslash _ _ _ _ _ =>
    split
    case isTrue hc  => exact .numbered <| hex4?_control _ hc
    case isFalse hc => exact .plain quote backslash <| Nat.not_lt.mp hc
  all_goals exact .named rfl

theorem spelled_escapedChars (cs : List Char) : SpelledChars cs (cs.flatMap escapedChar) := by
  induction cs
  case nil          => exact .nil
  case cons c cs hi => exact .cons (spelled_escapedChar c) hi

end TableProfiling.Json.Reader
