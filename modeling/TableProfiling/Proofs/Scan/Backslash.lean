import TableProfiling.Proofs.Scan.Query

namespace TableProfiling.Filter

-- What follows a text, from behind its opening apostrophe on, unless the text does not end.
def afterText : List Char → Option (List Char)
  | [] => none
  | ['\\'] => none
  | '\\' :: _ :: cs => afterText cs
  | '\'' :: '\'' :: cs => afterText cs
  | '\'' :: cs => some cs
  | _ :: cs => afterText cs

-- No backslash takes an apostrophe along, be it one of the text or the one at its end. A backslash
-- that is taken along itself does not take anything.
def contained : List Char → Bool
  | [] => true
  | ['\\'] => false
  | '\\' :: c :: cs => c ≠ '\'' && contained cs
  | _ :: cs => contained cs

theorem contained_of_not_mem (h : '\\' ∉ s) : contained s = true := by
  fun_induction contained s <;> simp_all

theorem afterText_backslash : afterText ('\\' :: c :: cs) = afterText cs :=
  rfl

theorem afterText_pair : afterText ('\'' :: '\'' :: cs) = afterText cs :=
  rfl

theorem afterText_end (h : cs.head? ≠ some '\'') : afterText ('\'' :: cs) = some cs := by
  cases cs
  case nil => rfl
  case cons c cs => simp_all [afterText]

theorem afterText_other (hb : c ≠ '\\') (ha : c ≠ '\'') :
    afterText (c :: cs) = afterText cs := by
  simp [afterText, hb, ha]

theorem length_afterText (h : afterText cs = some rest) : rest.length < cs.length := by
  fun_induction afterText cs <;> grind

def doubled (s : List Char) : List Char :=
  s.flatMap fun c => if c = '\'' then ['\'', '\''] else [c]

theorem textLiteral_toList (s : String) :
    (textLiteral s).toList = '\'' :: (doubled s.toList ++ ['\'']) := by
  simp [textLiteral, doubled]

theorem doubled_apostrophe : doubled ('\'' :: s) = '\'' :: '\'' :: doubled s :=
  rfl

theorem doubled_cons (h : c ≠ '\'') : doubled (c :: s) = c :: doubled s := by
  simp [doubled, h]

-- With one apostrophe too many, the text ends too early or goes on behind its end.
theorem afterText_apostrophe_ne (s rest : List Char) :
    afterText ('\'' :: (doubled s ++ '\'' :: rest)) ≠ some rest := by
  induction s
  case nil =>
    intro h
    have longer : rest.length < rest.length := length_afterText h
    exact Nat.lt_irrefl _ longer
  case cons c s hi =>
    by_cases hc : c = '\''
    case pos =>
      rw [hc, doubled_apostrophe]
      exact hi
    case neg =>
      rw [doubled_cons hc, List.cons_append, afterText_end <| by simpa using hc]
      intro h
      have longer := congrArg List.length <| Option.some.inj h
      simp at longer
      omega

theorem afterText_doubled_iff (h : rest.head? ≠ some '\'') :
    afterText (doubled s ++ '\'' :: rest) = some rest ↔ contained s = true := by
  fun_induction contained s
  case case1 => simpa [doubled] using afterText_end h
  case case2 =>
    -- The apostrophe at the end is taken along.
    have : afterText rest ≠ some rest := fun h => Nat.lt_irrefl _ <| length_afterText h
    simpa [doubled, afterText_backslash] using this
  case case3 c s hi =>
    have backslash : doubled ('\\' :: c :: s) = '\\' :: doubled (c :: s) :=
      doubled_cons (by decide)
    rw [backslash]
    by_cases hc : c = '\''
    case pos =>
      -- Of the two apostrophes one is taken along.
      rw [hc, doubled_apostrophe]
      simpa [afterText_backslash] using afterText_apostrophe_ne s rest
    case neg =>
      rw [doubled_cons hc]
      simpa [afterText_backslash, hc] using hi
  case case4 c s hb hc hi =>
    by_cases ha : c = '\''
    case pos =>
      rw [ha, doubled_apostrophe]
      simpa [afterText_pair] using hi
    case neg =>
      have other : c ≠ '\\' := by
        rintro rfl
        cases s
        case nil  => exact hb rfl rfl
        case cons => exact hc _ _ rfl rfl
      rw [doubled_cons ha, List.cons_append, afterText_other other ha]
      exact hi

section

variable {vs : List Json.Value} {ts : List String}

theorem textLiteral_mem (h : List.Forall₂ (literal · = .ok ·) vs ts) (hs : .string s ∈ vs) :
    textLiteral s ∈ ts := by
  induction h
  case nil => cases hs
  case cons v t vs ts hv _ hi =>
    cases hs
    case head    => cases hv; exact .head _
    case tail hs => exact .tail _ <| hi hs

theorem exists_listChars_eq (h : t ∈ ts) :
    ∃ start rest, listChars ts = start ++ (t.toList ++ rest) ∧ EndsLiteral rest := by
  induction ts
  case nil => cases h
  case cons t' ts hi =>
    cases ts
    case nil =>
      cases List.mem_singleton.mp h
      exact ⟨[], [')'], by simp [listChars], _, _, rfl, .inr rfl⟩
    case cons t'' ts =>
      rw [listChars_cons_cons]
      cases h
      case head    => exact ⟨[], _, rfl, _, _, rfl, .inl rfl⟩
      case tail h =>
        obtain ⟨start, rest, hl, he⟩ := hi h
        exact ⟨t'.toList ++ ',' :: ' ' :: start, rest, by simp [hl], he⟩

theorem exists_sql_eq (h : (values c vs).sql = .ok q) (hs : .string s ∈ vs) :
    ∃ start rest, q.toList = start ++ ((textLiteral s).toList ++ rest) ∧ EndsLiteral rest := by
  have ⟨quoted, t, _, ht, hq⟩ := sql_eq_ok_iff.mp h
  have ⟨ts, hl, ht⟩ := Outcome.bind_eq_ok_iff.mp ht
  have ⟨start, rest, hl, he⟩ := exists_listChars_eq <|
    textLiteral_mem (Outcome.list_mapM_eq_ok_iff.mp hl) hs
  have text : q.toList = (quoted ++ " IN (").toList ++ listChars ts := by
    cases ht
    simp [←hq, listChars]
  exact ⟨(quoted ++ " IN (").toList ++ start, rest, by rw [text, hl, List.append_assoc], he⟩

end

-- A text of a query ends where it should exactly if no backslash takes an apostrophe along, by
-- itself as well as in its place in the query.
theorem closes_iff_contained (h : (values c vs).sql = .ok q) (hs : .string s ∈ vs) :
    (afterText (textLiteral s).toList.tail = some [] ↔ contained s.toList = true) ∧
    ∃ start rest, q.toList = start ++ ((textLiteral s).toList ++ rest) ∧
      (afterText ((textLiteral s).toList.tail ++ rest) = some rest ↔
        contained s.toList = true) := by
  have tail : (textLiteral s).toList.tail = doubled s.toList ++ ['\''] := by
    rw [textLiteral_toList, List.tail_cons]
  have ⟨start, rest, hq, mark, cs, he, hm⟩ := exists_sql_eq h hs
  have apart : rest.head? ≠ some '\'' := by
    rcases hm with rfl | rfl <;> simp [he]
  refine ⟨?_, start, rest, hq, ?_⟩
  · rw [tail]
    exact afterText_doubled_iff nofun
  · rw [tail, List.append_assoc]
    exact afterText_doubled_iff apart

theorem closes_iff_contained_apostrophe :
    (values "region" [.string "O'Hare"]).sql = .ok "`region` IN ('O''Hare')" ∧
    .string "O'Hare" ∈ [Json.Value.string "O'Hare"] ∧
    afterText (textLiteral "O'Hare").toList.tail = some [] := by
  have h : (values "region" [.string "O'Hare"]).sql = .ok "`region` IN ('O''Hare')" := rfl
  have closes := closes_iff_contained (s := "O'Hare") h (.head _) |>.left
  exact ⟨h, .head _, closes.mpr <| contained_of_not_mem (by decide)⟩

-- A backslash at the end of a text takes the apostrophe that should end it along.
theorem not_closes_backslash :
    ¬∀ (column : String) (vs : List Json.Value) (q s : String),
      (values column vs).sql = .ok q → .string s ∈ vs →
      afterText (textLiteral s).toList.tail = some [] := by
  intro h
  cases h "region" [.string "\\"] "`region` IN ('\\')" "\\" rfl (.head _)

-- What stands behind a backslash and an apostrophe is read as a part of the query.
example : afterText (textLiteral "\\') OR TRUE -- ").toList.tail = some ") OR TRUE -- '".toList :=
  rfl

end TableProfiling.Filter
