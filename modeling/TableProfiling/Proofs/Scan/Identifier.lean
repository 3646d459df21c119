import Mathlib.Tactic.Common
import TableProfiling.Scan.Filter

namespace TableProfiling.Scan

-- A letter of ASCII, or an underscore.
def Letter (c : Char) : Prop :=
  'A' ≤ c ∧ c ≤ 'Z' ∨ 'a' ≤ c ∧ c ≤ 'z' ∨ c = '_'

-- A digit of ASCII.
def Digit (c : Char) : Prop :=
  '0' ≤ c ∧ c ≤ '9'

-- A letter, and then letters and digits.
inductive Word : List Char → Prop
  | intro : Letter c → (∀ x ∈ cs, Letter x ∨ Digit x) → Word (c :: cs)

structure Quotable (s : String) : Prop where
  size  : s.utf8ByteSize ≤ 300
  words : ∀ w ∈ s.toList.splitOn '.', Word w

-- A character that means nothing to a reader of queries.
structure Harmless (c : Char) : Prop where
  ascii    : c.toNat < 128
  unquoted : c ∉ ['`', '\'', '"', '\\']
  visible  : ¬Charset.blank.contains c
  inline   : c ∉ ['\n', '\x0b', '\x0c', '\r', '\u0085', '\u2028', '\u2029']

variable {c : Char} {cs : List Char}

theorem isWordStart_iff : isWordStart c ↔ Letter c := by
  have alpha : c.isAlpha = (c.isUpper || c.isLower) := rfl
  have upper : c.isUpper = decide ('A' ≤ c ∧ c ≤ 'Z') := rfl
  have lower : c.isLower = (decide ('a' ≤ c) && decide (c ≤ 'z')) := rfl
  simp [isWordStart, Letter, alpha, upper, lower, or_assoc]

theorem isWordPart_iff : isWordPart c ↔ Letter c ∨ Digit c := by
  have alphanum : c.isAlphanum = (c.isAlpha || c.isDigit) := rfl
  have digit : c.isDigit = (decide ('0' ≤ c) && decide (c ≤ '9')) := rfl
  rw [←isWordStart_iff]
  simp [isWordStart, isWordPart, Digit, alphanum, digit, or_right_comm]

-- The codes of dots, digits, letters and underscores.
def WordCode (n : Nat) : Prop :=
  n = 46 ∨ 48 ≤ n ∧ n ≤ 57 ∨ 65 ≤ n ∧ n ≤ 90 ∨ n = 95 ∨ 97 ≤ n ∧ n ≤ 122

instance : DecidablePred WordCode :=
  fun _ => inferInstanceAs (Decidable (_ ∨ _))

theorem wordCode (h : c = '.' ∨ Letter c ∨ Digit c) : WordCode c.toNat := by
  simp only [Letter, Digit, Char.le_def, UInt32.le_iff_toNat_le] at h
  change c = '.' ∨ (65 ≤ c.toNat ∧ c.toNat ≤ 90 ∨ 97 ≤ c.toNat ∧ c.toNat ≤ 122 ∨ c = '_') ∨
    48 ≤ c.toNat ∧ c.toNat ≤ 57 at h
  unfold WordCode
  rcases h with rfl | (h | h | rfl) | h
  case inl             => decide
  case inr.inl.inr.inr => decide
  all_goals omega

theorem not_mem_of_wordCode (h : WordCode c.toNat) (hcs : cs.all fun x => ¬WordCode x.toNat) :
    c ∉ cs := by
  intro hc
  simpa [h] using List.all_eq_true.mp hcs c hc

theorem harmless (h : WordCode c.toNat) : Harmless c where
  ascii    := by
    unfold WordCode at h
    omega
  unquoted := not_mem_of_wordCode h <| by decide
  visible  := by
    unfold WordCode at h
    simp [Charset.contains, Charset.blank]
    omega
  inline   := not_mem_of_wordCode h <| by decide

@[simp]
theorem not_word_nil : ¬Word [] :=
  nofun

@[simp]
theorem word_cons_iff : Word (c :: cs) ↔ Letter c ∧ ∀ x ∈ cs, Letter x ∨ Digit x := by
  constructor
  · rintro ⟨hc, hcs⟩
    exact ⟨hc, hcs⟩
  · rintro ⟨hc, hcs⟩
    exact .intro hc hcs

-- The rest of an identifier is the rest of a word and then more words.
theorem isIdentifier_iff_words (cs : List Char) :
    (isIdentifier cs ↔ ∀ w ∈ cs.splitOn '.', Word w) ∧
    ∃ w ws, cs.splitOn '.' = w :: ws ∧
      (endsIdentifier cs ↔ (∀ x ∈ w, Letter x ∨ Digit x) ∧ ∀ w ∈ ws, Word w) := by
  induction cs
  case nil => simp [isIdentifier, endsIdentifier]
  case cons c cs hi =>
    have ⟨start, w, ws, pieces, rest⟩ := hi
    by_cases hc : c = '.'
    case pos =>
      have dot : isWordStart '.' = false := by decide
      simp [isIdentifier, endsIdentifier, List.splitOn_cons_eq_if_modifyHead, hc, dot, start]
    case neg =>
      simp [isIdentifier, endsIdentifier, List.splitOn_cons_eq_if_modifyHead, hc, pieces, rest,
        isWordStart_iff, isWordPart_iff, and_assoc]

theorem mem_of_isIdentifier (cs : List Char) :
    (isIdentifier cs → ∀ c ∈ cs, c = '.' ∨ Letter c ∨ Digit c) ∧
    (endsIdentifier cs → ∀ c ∈ cs, c = '.' ∨ Letter c ∨ Digit c) := by
  induction cs
  case nil => simp
  case cons c cs hi =>
    simp only [isIdentifier, endsIdentifier, Bool.and_eq_true, isWordStart_iff,
      List.forall_mem_cons]
    constructor
    · rintro ⟨hc, hcs⟩
      exact ⟨.inr <| .inl hc, hi.right hcs⟩
    · split
      case isTrue hc => exact fun hcs => ⟨.inl hc, hi.left hcs⟩
      case isFalse =>
        rw [Bool.and_eq_true, isWordPart_iff]
        rintro ⟨hc, hcs⟩
        exact ⟨.inr hc, hi.right hcs⟩

theorem quotable_iff (s : String) :
    Quotable s ↔ s.utf8ByteSize ≤ maxIdentifierSize ∧ isIdentifier s.toList := by
  rw [(isIdentifier_iff_words s.toList).left]
  constructor
  · rintro ⟨size, words⟩
    exact ⟨size, words⟩
  · rintro ⟨size, words⟩
    exact ⟨size, words⟩

theorem quoteIdentifier_eq_ok_iff :
    quoteIdentifier s = .ok q ↔ Quotable s ∧ q = "`" ++ s ++ "`" := by
  rw [quotable_iff, quoteIdentifier]
  grind

theorem quoteIdentifier_eq_error (h : ¬Quotable s) : quoteIdentifier s =
    .error (if 300 < s.utf8ByteSize then .tooLong else .malformed s) := by
  rw [quotable_iff] at h
  rw [quoteIdentifier, maxIdentifierSize] at *
  grind

theorem Quotable.harmless (h : Quotable s) : ∀ c ∈ s.toList, Harmless c :=
  fun c hc => Scan.harmless <| wordCode <|
    (mem_of_isIdentifier _).left ((quotable_iff s).mp h).right c hc

-- A name is quoted if it is made of words and is not too long, and then there is nothing in it that
-- means more than itself. Otherwise the name is to blame, also when a filter is put in a query.
theorem quoteIdentifier_grammar (s : String) :
    ((∃ q, quoteIdentifier s = .ok q) ↔ Quotable s) ∧
    (∀ q, quoteIdentifier s = .ok q → q = "`" ++ s ++ "`" ∧ ∀ c ∈ s.toList, Harmless c) ∧
    (¬Quotable s → ∃ fault,
      quoteIdentifier s = .error fault ∧
      fault = (if 300 < s.utf8ByteSize then .tooLong else .malformed s) ∧
      ∀ f : Filter, f.column = s → f.sql = .error (.identifier fault)) := by
  refine ⟨?_, ?_, ?_⟩
  · simp [quoteIdentifier_eq_ok_iff]
  · intro q hq
    have ⟨h, hq⟩ := quoteIdentifier_eq_ok_iff.mp hq
    exact ⟨hq, h.harmless⟩
  · intro h
    have error := quoteIdentifier_eq_error h
    refine ⟨_, error, rfl, ?_⟩
    rintro f rfl
    rw [Filter.sql, error]
    rfl

-- A line feed is not forgiven at the end of a name either.
theorem quoteIdentifier_grammar_newline :
    Quotable "a.b" ∧ (∃ q, quoteIdentifier "a.b" = .ok q) ∧
    ¬Quotable "a.b\n" ∧ quoteIdentifier "a.b\n" = .error (.malformed "a.b\n") := by
  have accepted : Quotable "a.b" := (quotable_iff _).mpr <| by decide
  have refused : ¬Quotable "a.b\n" := (quotable_iff _).not.mpr <| by decide
  have ⟨quoted, _⟩ := quoteIdentifier_grammar "a.b"
  have ⟨_, _, blamed⟩ := quoteIdentifier_grammar "a.b\n"
  have ⟨_, error, fault, _⟩ := blamed refused
  rw [fault, if_neg (by decide)] at error
  exact ⟨accepted, quoted.mpr accepted, refused, error⟩

end TableProfiling.Scan
