import Mathlib.Data.List.Infix

namespace TableProfiling

-- At how many places of a text another one is found, even if these overlap.
def occurrences (p s : List Char) : Nat :=
  s.tails.countP (p.isPrefixOf ·)

theorem occurrences_cons (p : List Char) (x : Char) (s : List Char) :
    occurrences p (x :: s) = (if p <+: x :: s then 1 else 0) + occurrences p s := by
  simp [occurrences, List.countP_cons, Nat.add_comm]

theorem occurrences_append (hx : x ∉ l) :
    occurrences (x :: p) (l ++ s) = occurrences (x :: p) s := by
  induction l
  case nil => rfl
  case cons y l hi =>
    simp only [List.mem_cons, not_or] at hx
    simp [occurrences_cons, List.cons_prefix_cons, hx.left, hi hx.right]

-- What begins with a line feed is found at the end of a line, if at all.
theorem occurrences_line (hl : '\n' ∉ l) :
    occurrences ('\n' :: p) (l ++ '\n' :: s) =
      (if p <+: s then 1 else 0) + occurrences ('\n' :: p) s := by
  simp [occurrences_append hl, occurrences_cons, List.cons_prefix_cons]

section

variable {a x : Char} {l s t z : List Char}

-- If a separator is only found at the end of a text, then where the text is found at the start of
-- another one, it does not go beyond the first separator there.
theorem prefix_separated_iff (hl : a ∉ l) (hz : a ∉ z) :
    l ++ a :: z <+: s ++ a :: z ++ t ↔ l ++ a :: z <+: s ++ a :: z := by
  constructor
  case mpr => exact fun h => h.trans <| List.prefix_append ..
  case mp =>
    intro h
    rcases List.prefix_or_prefix_of_prefix h <| List.prefix_append .. with h | ⟨u, hu⟩
    case inl => exact h
    case inr =>
      rw [List.append_assoc, List.cons_append, eq_comm, List.append_cons_inj_of_notMem hl hz] at hu
      exact hu.left ▸ List.prefix_rfl

-- A text that ends with the separator is found as often as in the two parts, each on its own.
theorem occurrences_separated (hx : x ∉ a :: z) (hl : a ∉ x :: l) (hz : a ∉ z) (s t : List Char) :
    occurrences (x :: l ++ a :: z) (s ++ a :: z ++ t) =
      occurrences (x :: l ++ a :: z) (s ++ a :: z) + occurrences (x :: l ++ a :: z) t := by
  induction s
  case nil =>
    have alone : occurrences (x :: l ++ a :: z) (a :: z ++ []) = 0 := occurrences_append hx
    rw [List.append_nil] at alone
    rw [List.nil_append, alone, Nat.zero_add]
    exact occurrences_append hx
  case cons y s hi =>
    have start := prefix_separated_iff (s := y :: s) (t := t) hl hz
    simp only [List.cons_append] at start hi ⊢
    simp only [occurrences_cons, start, hi, Nat.add_assoc]

end

end TableProfiling
