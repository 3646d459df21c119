namespace TableProfiling

-- The longest initial part of a text that takes at most `limit` bytes.
def initialPart (limit : Nat) : List Char → List Char
  | [] => []
  | c :: cs => if c.utf8Size ≤ limit then c :: initialPart (limit - c.utf8Size) cs else []

theorem initialPart_prefixes (limit : Nat) (cs : List Char) : initialPart limit cs <+: cs := by
  induction cs generalizing limit with
  | nil => exact List.nil_prefix
  | cons c cs ih =>
    unfold initialPart
    split
    · exact List.cons_prefix_cons.mpr ⟨rfl, ih _⟩
    · exact List.nil_prefix

-- A text of at most `limit` bytes, or else its longest initial part of that size and a mark.
def truncate (limit : Nat) (s : String) : String :=
  if s.utf8ByteSize ≤ limit then s
  else .ofList (initialPart limit s.toList) ++ "...(truncated)"

end TableProfiling
