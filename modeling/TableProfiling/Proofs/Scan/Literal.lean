import TableProfiling.Proofs.Json.Number
import TableProfiling.Scan.Filter

namespace TableProfiling.Filter

-- A text after its opening apostrophe.
def readText : List Char → Option (List Char × List Char)
  | [] => none
  | '\'' :: '\'' :: cs => (readText cs).map fun (s, rest) => ('\'' :: s, rest)
  | '\'' :: cs => some ([], cs)
  | c :: cs => (readText cs).map fun (s, rest) => (c :: s, rest)

def readNumber (cs : List Char) : Option (Json.Number × List Char) :=
  match Json.Reader.value 1 cs with
  | (.number n, rest) => some (n, rest)
  | _ => none

def readLiteral : List Char → Option (Json.Value × List Char)
  | '\'' :: cs => (readText cs).map fun (s, rest) => (.string (.ofList s), rest)
  | 'T' :: 'R' :: 'U' :: 'E' :: cs => some (.bool true, cs)
  | 'F' :: 'A' :: 'L' :: 'S' :: 'E' :: cs => some (.bool false, cs)
  | cs => (readNumber cs).map fun (n, rest) => (.number n, rest)

-- The values of a list from one of them on, up to the end of the query. Every value takes at least
-- one character, which bounds the number of steps.
def readItems : Nat → List Char → Option (List Json.Value)
  | 0, _ => none
  | n + 1, cs => do
    let (v, rest) ← readLiteral cs
    match rest with
    | [')'] => return [v]
    | ',' :: ' ' :: rest => return v :: (← readItems n rest)
    | _ => none

-- The values of a list after its opening parenthesis.
def readList (cs : List Char) : Option (List Json.Value) :=
  if cs = [')'] then some [] else readItems cs.length cs

-- The values that have a literal.
inductive HasLiteral : Json.Value → Prop
  | string (s : String) : HasLiteral (.string s)
  | number (n : Json.Number) : HasLiteral (.number n)
  | bool (b : Bool) : HasLiteral (.bool b)

theorem exists_literal_iff : (∃ t, literal v = .ok t) ↔ HasLiteral v := by
  constructor
  · rintro ⟨t, h⟩
    cases v
    case bool b   => exact .bool b
    case number n => exact .number n
    case string s => exact .string s
    all_goals cases h
  · rintro (s | n | (_ | _)) <;> exact ⟨_, rfl⟩

-- What follows a literal in a list.
def EndsLiteral (rest : List Char) : Prop :=
  ∃ c cs, rest = c :: cs ∧ (c = ',' ∨ c = ')')

theorem EndsLiteral.endsNumber (h : EndsLiteral rest) : Json.Reader.EndsNumber rest := by
  obtain ⟨c, cs, rfl, rfl | rfl⟩ := h <;> rintro c ⟨⟩ <;> decide

theorem readText_append (s : List Char) (h : rest.head? ≠ some '\'') :
    readText (s.flatMap (fun c => if c = '\'' then ['\'', '\''] else [c]) ++ '\'' :: rest) =
      some (s, rest) := by
  induction s
  case nil =>
    cases rest
    case nil => rfl
    case cons c cs =>
      have hc : c ≠ '\'' := by simpa using h
      simp [readText, hc]
  case cons c s hi =>
    by_cases hc : c = '\''
    case pos => simp_all [readText]
    case neg => simp_all [readText]

theorem readNumber_append (n : Json.Number) (h : Json.Reader.EndsNumber rest) :
    readNumber (n.chars ++ rest) = some (n, rest) := by
  rw [readNumber, Json.Reader.value_number n h]

theorem readLiteral_number (n : Json.Number) (h : Json.Reader.EndsNumber rest) :
    readLiteral (n.chars ++ rest) = some (.number n, rest) := by
  have hn := readNumber_append n h
  have ⟨c, cs, hc, first⟩ := n.exists_first
  rw [hc, List.cons_append] at hn ⊢
  -- Neither a text nor a word begins like a number.
  have : c ≠ '\'' ∧ c ≠ 'T' ∧ c ≠ 'F' := by
    refine ⟨?_, ?_, ?_⟩ <;> rintro rfl <;> simp at first
  simp_all [readLiteral]

theorem readLiteral_append (hv : literal v = .ok t) (h : EndsLiteral rest) :
    readLiteral (t.toList ++ rest) = some (v, rest) := by
  cases v
  case bool b => cases b <;> cases hv <;> rfl
  case number n =>
    cases hv
    rw [String.toList_ofList]
    exact readLiteral_number n h.endsNumber
  case string s =>
    have hr : rest.head? ≠ some '\'' := by
      obtain ⟨c, cs, rfl, rfl | rfl⟩ := h <;> simp
    cases hv
    simp [textLiteral, readLiteral, readText_append s.toList hr]
  all_goals cases hv

-- The text of a list after its opening parenthesis.
def listChars (ts : List String) : List Char :=
  (", ".intercalate ts).toList ++ [')']

theorem listChars_cons_cons :
    listChars (t :: t' :: ts) = t.toList ++ ',' :: ' ' :: listChars (t' :: ts) := by
  simp [listChars, String.intercalate_cons_cons]

theorem length_le_listChars (ts : List String) : ts.length ≤ (listChars ts).length := by
  induction ts
  case nil => simp
  case cons t ts hi =>
    cases ts
    case nil  => simp [listChars]
    case cons =>
      simp only [listChars_cons_cons, List.length_append, List.length_cons] at hi ⊢
      omega

theorem readItems_listChars (h : List.Forall₂ (literal · = .ok ·) vs ts) (hn : vs ≠ [])
    (hl : ts.length ≤ n) : readItems n (listChars ts) = some vs := by
  induction h generalizing n
  case nil => contradiction
  case cons v t vs ts hv h hi =>
    cases n
    case zero => cases hl
    case succ n =>
      cases h
      case nil =>
        have last : readLiteral (t.toList ++ [')']) = some (v, [')']) :=
          readLiteral_append hv ⟨_, _, rfl, .inr rfl⟩
        simp [readItems, listChars, last]
      case cons v' t' vs ts hv' h =>
        have hi := hi (n := n) nofun (Nat.le_of_succ_le_succ hl)
        have next := readLiteral_append hv ⟨',', ' ' :: listChars (t' :: ts), rfl, .inl rfl⟩
        rw [listChars_cons_cons]
        simp [readItems, next, hi]

-- Inside of a text, two apostrophes are one. The first one that stands alone ends it, so that no
-- text is taken for several values.
theorem readList_literals (h : vs.mapM literal = .ok ts) : readList (listChars ts) = some vs := by
  have h := Outcome.list_mapM_eq_ok_iff.mp h
  cases vs
  case nil => cases h; rfl
  case cons v vs =>
    have items := readItems_listChars h nofun (length_le_listChars ts)
    have hn : listChars ts ≠ [')'] := by
      intro hc
      rw [hc] at items
      cases items
    rw [readList, if_neg hn, items]

end TableProfiling.Filter
