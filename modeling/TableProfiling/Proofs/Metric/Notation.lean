import TableProfiling.Proofs.Metric.Codecs
import TableProfiling.Report.Block

namespace TableProfiling

open Json Reader

variable {cs : List Char} {n : Int64} {x : Binary64}

-- The texts of integers, however large.
inductive Integral : List Char → Prop
  | digits (h : IsDigits ds) : Integral ds
  | minus (h : IsDigits ds) : Integral ('-' :: ds)

theorem integral_integerChars (n : Int) : Integral (integerChars n) := by
  rw [integerChars]
  split
  · exact .minus <| .toDigits _
  · exact .digits <| .toDigits _

theorem Integral.mem (h : Integral cs) (hc : c ∈ cs) : c = '-' ∨ c.isDigit := by
  cases h
  case digits h => exact .inr <| h.digit c hc
  case minus h  => exact List.mem_cons.mp hc |>.imp_right <| h.digit c

-- A character that no integer has tells that a text is none.
theorem not_integral (hc : c ∈ cs) (hm : c ≠ '-') (hd : c.isDigit = false) : ¬Integral cs := by
  intro h
  rcases h.mem hc with he | he
  · exact hm he
  · exact absurd he <| by simp [hd]

theorem Integral.no_space (h : Integral cs) : ' ' ∉ cs := by
  intro hs
  exact not_integral hs (by decide) (by decide) h

theorem Json.Reader.IsDigits.no_space {ds : List Char} (h : IsDigits ds) : ' ' ∉ ds := by
  intro hs
  cases h.digit _ hs

namespace Json.Reader.Literal

variable {l : Literal}

-- There is a point before a fraction and a letter before an exponent.
theorem not_integral_chars (h : l.fraction ≠ none ∨ l.exponent ≠ none) (sign : List Char)
    (p : Bool) : ¬Integral (sign ++ l.chars p) := by
  rcases h with h | h
  case inl =>
    obtain ⟨ds, hf⟩ := Option.ne_none_iff_exists'.mp h
    have point : '.' ∈ sign ++ l.chars p := by simp [chars, hf, fractionChars]
    exact not_integral point (by decide) (by decide)
  case inr =>
    obtain ⟨e, he⟩ := Option.ne_none_iff_exists'.mp h
    have letter : 'e' ∈ sign ++ l.chars p := by simp [chars, he, exponentChars]
    exact not_integral letter (by decide) (by decide)

theorem Proper.no_space (h : l.Proper) (p : Bool) : ' ' ∉ l.chars p := by
  have fraction : ' ' ∉ fractionChars l.fraction := by
    cases hf : l.fraction
    case none    => simp [fractionChars]
    case some ds => simp [fractionChars, (h.fraction ds hf).no_space]
  have exponent : ' ' ∉ exponentChars p l.exponent := by
    cases he : l.exponent
    case none   => simp [exponentChars]
    case some e =>
      obtain ⟨negative, ds⟩ := e
      cases negative <;> cases p <;> simp [exponentChars, (h.exponent _ he).no_space]
  simp [chars, h.whole.no_space, fraction, exponent]

end Json.Reader.Literal

namespace Layout

theorem not_integral_chars (l : Layout) (h : x.isFinite) : ¬Integral (l.chars x) := by
  have spells := literal_spells l h
  rw [spells.chars]
  exact Literal.not_integral_chars spells.fraction _ l.plus

theorem no_space (l : Layout) (h : x.isFinite) : ' ' ∉ l.chars x := by
  have spells := literal_spells l h
  rw [spells.chars]
  split <;> simp [spells.proper.no_space]

end Layout

namespace Metric

theorem integral_text (n : Int64) : Integral (long n).text.toList := by
  rw [text, integerText, String.toList_ofList]
  exact integral_integerChars _

-- What a report says of a double that is not finite.
def words : List String :=
  ["NaN", "inf", "-inf"]

theorem letter_of_mem_words :
    ∀ s ∈ words, ('N' ∈ s.toList ∨ 'n' ∈ s.toList) ∧ ' ' ∉ s.toList := by
  decide

theorem doubleText_cases (x : Binary64) :
    x.isFinite ∧ doubleText x = .ofList (layout.chars x) ∨ doubleText x ∈ words := by
  rw [doubleText, words]
  split
  case isTrue => simp
  case isFalse nan =>
    split
    case isTrue => split <;> simp
    case isFalse infinite =>
      refine .inl ⟨?_, rfl⟩
      simp only [Binary64.isNaN, Binary64.isInfinite, decide_eq_true_eq] at nan infinite
      exact decide_eq_true <| by omega

theorem not_integral_text (x : Binary64) : ¬Integral (double x).text.toList := by
  rw [text]
  rcases doubleText_cases x with ⟨finite, h⟩ | word
  case inl =>
    rw [h, String.toList_ofList]
    exact layout.not_integral_chars finite
  case inr =>
    obtain ⟨letter | letter, _⟩ := letter_of_mem_words _ word
    all_goals exact not_integral letter (by decide) (by decide)

theorem no_space_text (x : Binary64) : ' ' ∉ (double x).text.toList := by
  rw [text]
  rcases doubleText_cases x with ⟨finite, h⟩ | word
  case inl =>
    rw [h, String.toList_ofList]
    exact layout.no_space finite
  case inr => exact letter_of_mem_words _ word |>.right

theorem toList_text_ne : (long n).text.toList ≠ (double x).text.toList :=
  fun h => not_integral_text x <| h ▸ integral_text n

end Metric

section

variable {s t : List Char}

-- A word ends where the next space is.
theorem first_word (hs : ' ' ∉ s) (ht : ' ' ∉ t) (h : s ++ ' ' :: as = t ++ ' ' :: bs) : s = t := by
  have word {w : List Char} (hw : ' ' ∉ w) (rest : List Char) :
      (w ++ ' ' :: rest).takeWhile (· ≠ ' ') = w := by
    apply takeWhile_append
    · intro c hc
      simpa using ne_of_mem_of_not_mem hc hw
    · simp
  rw [←word hs as, h, word ht]

theorem last_word (hs : ' ' ∉ s) (ht : ' ' ∉ t) (h : as ++ ' ' :: s = bs ++ ' ' :: t) : s = t := by
  have reversed := congrArg List.reverse h
  simp only [List.reverse_append, List.reverse_cons, List.append_assoc, List.singleton_append]
    at reversed
  exact List.reverse_inj.mp <| first_word (by simpa using hs) (by simpa using ht) reversed

end

namespace Metric

open Report

theorem metricLine_ne : metricLine i name (long n) ≠ metricLine i' name' (double x) := by
  intro h
  have h := congrArg String.toList h
  have words : (i.toList ++ name.toList ++ [':']) ++ ' ' :: (long n).text.toList =
      (i'.toList ++ name'.toList ++ [':']) ++ ' ' :: (double x).text.toList := by
    simpa [metricLine] using h
  exact toList_text_ne <| last_word (integral_text n).no_space (no_space_text x) words

-- The third word of an outcome is what was computed, and the last but one what was expected.
theorem toList_outcome (v : Validation) :
    ∃ verdict, ' ' ∉ verdict ∧ (outcome v).toList = verdict ++ ' ' ::
      ("(Real) ".toList ++ (v.computed.text.toList ++ ' ' ::
        ('<' :: v.operator.name.toList ++ ">".toList ++ ' ' ::
          v.expected.text.toList ++ " (expected)".toList))) := by
  cases h : v.valid
  case false => exact ⟨"false,".toList, by decide, by simp [outcome, h]⟩
  case true  => exact ⟨"true,".toList, by decide, by simp [outcome, h]⟩

theorem exists_toList_outcome (v : Validation) :
    ∃ before, (outcome v).toList =
      before ++ ' ' :: v.expected.text.toList ++ " (expected)".toList := by
  obtain ⟨verdict, _, h⟩ := toList_outcome v
  rw [h]
  simp only [←List.append_assoc, ←List.cons_append]
  exact ⟨_, rfl⟩

variable {v v' : Validation}

theorem outcome_ne_of_computed (hv : v.computed = long n) (hv' : v'.computed = double x) :
    outcome v ≠ outcome v' := by
  intro h
  obtain ⟨verdict, hs, text⟩ := toList_outcome v
  obtain ⟨verdict', hs', text'⟩ := toList_outcome v'
  have h := congrArg String.toList h
  rw [text, text', hv, hv'] at h
  obtain rfl := first_word hs hs' h
  have h := List.cons.inj (List.append_cancel_left h) |>.right
  have h := List.append_cancel_left h
  exact toList_text_ne <| first_word (integral_text n).no_space (no_space_text x) h

theorem outcome_ne_of_expected (hv : v.expected = long n) (hv' : v'.expected = double x) :
    outcome v ≠ outcome v' := by
  intro h
  obtain ⟨before, text⟩ := exists_toList_outcome v
  obtain ⟨before', text'⟩ := exists_toList_outcome v'
  have h := congrArg String.toList h
  rw [text, text', hv, hv'] at h
  have h := List.append_cancel_right h
  exact toList_text_ne <| last_word (integral_text n).no_space (no_space_text x) h

end Metric

namespace Metric

open Report

theorem not_integral_json (x : Binary64) : ¬Integral (codec.text (double x)).toList := by
  rw [Codec.text, Value.text, String.toList_ofList]
  by_cases h : x.isFinite
  case pos =>
    simp only [codec, toValue, Value.ofDouble, h]
    exact Json.layout.not_integral_chars h
  case neg =>
    simp only [codec, toValue, Value.ofDouble, h]
    exact not_integral (.head _) (by decide) (by decide)

theorem decode_encode (m : Metric) (o : Origin) :
    codec.decode o (codec.encode m).doc = .ok m.expressed := by
  have same : codec.encode m = codec.encode m.expressed := m.toValue_expressed.symm
  rw [same]
  apply restores_codec m.expressed_expressed
  exact m.expressed.depth_toValue ▸ o.admits_zero

theorem ofText_of_hasText {m : Metric} (h : (codec.encode m).HasText s) :
    codec.ofText s = .ok m.expressed := by
  rw [Codec.ofText, Doc.ofText_of_hasText h]
  simp only [decode_encode]
  rfl

theorem ofText_text (m : Metric) : codec.ofText (codec.text m) = .ok m.expressed :=
  ofText_of_hasText <| Value.hasText_text _

theorem expressed_double_ne (x : Binary64) (n : Int64) : (double x).expressed ≠ long n := by
  intro h
  rw [expressed] at h
  split at h <;> cases h

-- A report does not show an integer as it shows a double, be it next to a name or in what came of an
-- expectation. In JSON both are read as what they are, or as nothing if a double is no number that
-- could be written; and whoever writes a double, in whichever of its texts, does not write an integer.
theorem kind_shown (n : Int64) (x : Binary64) :
    (long n).text ≠ (double x).text ∧
    Integral (long n).text.toList ∧ ¬Integral (double x).text.toList ∧
    ¬Integral (codec.text (double x)).toList ∧
    (∀ indent indent' name name',
      metricLine indent name (long n) ≠ metricLine indent' name' (double x)) ∧
    (∀ v v' : Validation,
      outcome { v with computed := long n } ≠ outcome { v' with computed := double x } ∧
      outcome { v with expected := long n } ≠ outcome { v' with expected := double x }) ∧
    codec.ofText (codec.text (long n)) = .ok (long n) ∧
    codec.ofText (codec.text (double x)) = .ok (if x.isFinite then double x else null) ∧
    (∀ o, codec.decode o (codec.encode (double x)).doc =
      .ok (if x.isFinite then double x else null)) ∧
    ¬∃ s, (codec.encode (double x)).HasText s ∧ codec.ofText s = .ok (long n) := by
  refine ⟨?text, integral_text n, not_integral_text x, not_integral_json x, ?line, ?outcome, ?long,
    ?double, decode_encode _, ?json⟩
  case text    => exact fun h => toList_text_ne <| congrArg String.toList h
  case line    => exact fun _ _ _ _ => metricLine_ne
  case outcome => exact fun _ _ => ⟨outcome_ne_of_computed rfl rfl, outcome_ne_of_expected rfl rfl⟩
  case long    => exact ofText_text _
  case double  => exact ofText_text _
  case json    =>
    rintro ⟨s, hs, h⟩
    rw [ofText_of_hasText hs] at h
    exact expressed_double_ne x n <| Except.ok.inj h

end Metric

end TableProfiling
