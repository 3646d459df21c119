import Mathlib.Tactic.Common
import TableProfiling.Text.Escape

namespace TableProfiling

theorem mem_toDigits (hb : 1 < b) (h : c ∈ Nat.toDigits b n) : ∃ d < b, c = Nat.digitChar d := by
  induction n using Nat.strongRecOn
  case ind n hi =>
    by_cases hn : n < b
    case pos =>
      rw [Nat.toDigits_of_lt_base hn] at h
      exact ⟨n, hn, List.mem_singleton.mp h⟩
    case neg =>
      rw [Nat.toDigits_of_base_le hb (Nat.le_of_not_lt hn)] at h
      cases List.mem_append.mp h
      case inl h => exact hi (n / b) (Nat.div_lt_self (by omega) hb) h
      case inr h => exact ⟨n % b, Nat.mod_lt n (by omega), List.mem_singleton.mp h⟩

-- The characters that end a line in a text, or that are taken for such an end.
def EndsLine (x : Char) : Prop :=
  x = '\n' ∨ x = '\r'

variable {x : Char}

theorem not_mem_escapeByNumber (hx : EndsLine x) (c : Char) : x ∉ escapeByNumber c := by
  intro h
  have digits : ∀ d < 16, Nat.digitChar d ≠ '\n' ∧ Nat.digitChar d ≠ '\r' := by decide
  have h : x ∈ Nat.toDigits 16 c.toNat := by
    rcases hx with rfl | rfl <;> simpa [escapeByNumber] using h
  obtain ⟨d, hd, rfl⟩ := mem_toDigits (by decide) h
  exact hx.elim (digits d hd).left (digits d hd).right

namespace Escaping

theorem not_mem_char (hx : EndsLine x) (e : Escaping) (c : Char) : x ∉ e.char c := by
  unfold char
  split
  case h_7 => split <;> rcases hx with rfl | rfl <;> decide
  case h_8 _ _ notReturn notFeed _ _ _ =>
    split
    · exact not_mem_escapeByNumber hx c
    · rw [List.mem_singleton]
      rintro rfl
      exact hx.elim notFeed notReturn
  all_goals rcases hx with rfl | rfl <;> decide

end Escaping

theorem not_mem_escaped (hx : EndsLine x) (s : String) : x ∉ (escaped s).toList := by
  unfold escaped
  split
  case h_1 => simp
  case h_2 c cs _ =>
    simp [Escaping.not_mem_char hx]

end TableProfiling
