import TableProfiling.Proofs.Json.Grammar

namespace TableProfiling.Json

namespace Value

-- Induction over the values that are nested in a value.
@[elab_as_elim]
theorem induction {motive : Value → Prop}
    (null : motive .null)
    (bool : ∀ b, motive (.bool b))
    (number : ∀ n, motive (.number n))
    (string : ∀ s, motive (.string s))
    (array : ∀ vs, (∀ v ∈ vs, motive v) → motive (.array vs))
    (object : ∀ ms, (∀ m ∈ ms, motive m.2) → motive (.object ms))
    (v : Value) : motive v :=
  let items (vs : List Value) := ∀ v ∈ vs, motive v
  let members (ms : List (String × Value)) := ∀ m ∈ ms, motive m.2
  have item v vs (hv : motive v) (hvs : items vs) : items (v :: vs) :=
    List.forall_mem_cons.mpr ⟨hv, hvs⟩
  have member m ms (hm : motive m.2) (hms : members ms) : members (m :: ms) :=
    List.forall_mem_cons.mpr ⟨hm, hms⟩
  @Value.rec motive items members (motive ·.2) null bool number string array object
    (List.forall_mem_nil _) item (List.forall_mem_nil _) member (fun _ _ h => h) v

-- Between a key and its value there are no blanks either.
theorem spelled_member (k : String) (h : Term.Spelled t cs) :
    Term.SpelledMember k t (stringChars k ++ ':' :: cs) := by
  have member := Term.SpelledMember.intro Term.isBlank_nil (Term.spelled_stringChars k)
    Term.isBlank_nil h.padded
  rwa [List.nil_append, List.append_nil] at member

theorem exists_items {vs : List Value}
    (h : ∀ v ∈ vs, ∃ t : Term, t.Spelled v.chars ∧ t.doc = v.doc) (hne : vs ≠ []) :
    ∃ ts, Term.SpelledItems ts (itemsChars vs) ∧ Term.itemsDoc ts = itemsDoc vs := by
  induction vs
  case nil => contradiction
  case cons v vs hi =>
    have ⟨⟨t, spelled, doc⟩, others⟩ := List.forall_mem_cons.mp h
    cases vs
    case nil =>
      refine ⟨[t], .last spelled.padded, ?_⟩
      rw [Term.itemsDoc, doc]
      rfl
    case cons w ws =>
      have ⟨ts, more, rest⟩ := hi others nofun
      refine ⟨t :: ts, .next spelled.padded more, ?_⟩
      rw [Term.itemsDoc, doc, rest]
      rfl

theorem exists_members {ms : List (String × Value)}
    (h : ∀ m ∈ ms, ∃ t : Term, t.Spelled m.2.chars ∧ t.doc = m.2.doc) (hne : ms ≠ []) :
    ∃ ts, Term.SpelledMembers ts (membersChars ms) ∧ Term.membersDoc ts = membersDoc ms := by
  induction ms
  case nil => contradiction
  case cons m ms hi =>
    have ⟨⟨t, spelled, doc⟩, others⟩ := List.forall_mem_cons.mp h
    have member := spelled_member m.1 spelled
    cases ms
    case nil =>
      refine ⟨[(m.1, t)], .last member, ?_⟩
      rw [Term.membersDoc, doc]
      rfl
    case cons w ws =>
      have ⟨ts, more, rest⟩ := hi others nofun
      refine ⟨(m.1, t) :: ts, .next member more, ?_⟩
      rw [Term.membersDoc, doc, rest]
      rfl

theorem exists_term (v : Value) : ∃ t : Term, t.Spelled v.chars ∧ t.doc = v.doc := by
  induction v using induction
  case null     => exact ⟨.null, .null, rfl⟩
  case bool b   => exact ⟨.bool b, by cases b <;> exact .bool _, rfl⟩
  case number n => exact ⟨.number n.literal, .number n.spelled, n.literal_doc⟩
  case string s => exact ⟨.string s, (.string <| Term.spelled_stringChars s), rfl⟩
  case array vs hi =>
    by_cases hne : vs = []
    case pos => exact ⟨.array [], hne ▸ .emptyArray Term.isBlank_nil, hne ▸ rfl⟩
    case neg =>
      have ⟨ts, spelled, doc⟩ := exists_items hi hne
      exact ⟨.array ts, .array spelled, congrArg Doc.array doc⟩
  case object ms hi =>
    by_cases hne : ms = []
    case pos => exact ⟨.object [], hne ▸ .emptyObject Term.isBlank_nil, hne ▸ rfl⟩
    case neg =>
      have ⟨ts, spelled, doc⟩ := exists_members hi hne
      exact ⟨.object ts, .object spelled, congrArg Doc.object doc⟩

-- The texts that say a value, in whichever of its notations and with whatever blanks.
def HasText (v : Value) (s : String) : Prop :=
  ∃ t : Term, t.Written s ∧ t.doc = v.doc

theorem hasText_text (v : Value) : v.HasText v.text := by
  have ⟨t, spelled, doc⟩ := v.exists_term
  refine ⟨t, ?_, doc⟩
  rw [Term.Written, text, String.toList_ofList]
  exact spelled.padded

end Value

theorem Doc.ofText_of_hasText {v : Value} (h : v.HasText s) : ofText s = (v.doc, true) := by
  have ⟨t, written, doc⟩ := h
  rw [ofText_written written, doc]

theorem Doc.ofText_text (v : Value) : ofText v.text = (v.doc, true) :=
  ofText_of_hasText v.hasText_text

end TableProfiling.Json
