import TableProfiling.Metric.Codecs
import TableProfiling.Proofs.Json.Accepted
import TableProfiling.Proofs.Json.Codec
import TableProfiling.Proofs.Json.Readable
import TableProfiling.Proofs.Metric.Compare

namespace TableProfiling.Metric

open Json Outcome

-- What comes of a term that is read as a metric.
inductive Decoded : Term → Except Fault Metric → Prop
  | null : Decoded .null (.ok .null)
  | bool (b : Bool) : Decoded (.bool b) (.ok (.bool b))
  | string (s : String) : Decoded (.string s) (.ok (.string s))
  | long (h : l.Denotes n.toInt) : Decoded (.number l) (.ok (.long n))
  | double (h : ∀ n, l.Denotes n → n < -0x8000000000000000 ∨ 0x8000000000000000 ≤ n)
    (hx : l.ReadsAs x) : Decoded (.number l) (.ok (.double x))
  | array (ts : List Term) : Decoded (.array ts) (.error (.shape .noMetric))
  | object (ms : List (String × Term)) : Decoded (.object ms) (.error (.shape .noMetric))

variable {t : Term} {l : Reader.Literal}

theorem not_large (n : Int64) :
    ¬(n.toInt < -0x8000000000000000 ∨ 0x8000000000000000 ≤ n.toInt) := by
  have := n.toInt_lt
  have := n.le_toInt
  omega

theorem Decoded.unique {r r' : Except Fault Metric} : Decoded t r → Decoded t r' → r = r'
  | .null, .null               => rfl
  | .bool _, .bool _           => rfl
  | .string _, .string _       => rfl
  | .array _, .array _         => rfl
  | .object _, .object _       => rfl
  | .long h, .long h'          => by rw [Int64.toInt_inj.mp <| h.unique h']
  | .double _ h, .double _ h'  => by rw [h.unique h']
  | .long h, .double large _   => absurd (large _ h) <| not_large _
  | .double large _, .long h   => absurd (large _ h) <| not_large _

theorem decoded_number (h : l.decimal.InRange) :
    ∃ n m, l.doc = .number n ∧ ofValue? (.number n) = some m ∧ Decoded (.number l) (.ok m) := by
  rcases Reader.Literal.doc_cases h with ⟨n, fits, hd, denotes⟩ | ⟨x, finite, hd, reads, large⟩
  case inr =>
    refine ⟨_, _, hd, rfl, .double (fun n hn => ?_) reads⟩
    have := large n hn
    omega
  case inl =>
    by_cases small : n < 0x8000000000000000
    case pos =>
      refine ⟨_, _, hd, congrArg some <| if_pos small, .long ?_⟩
      rwa [Int64.toInt_ofInt_of_le fits.left small]
    case neg =>
      refine ⟨_, _, hd, congrArg some <| if_neg small, .double (fun n' hn => ?_) ?_⟩
      · rw [hn.unique denotes]
        exact .inr <| Int.not_lt.mp small
      · exact denotes.readsAs_ofInt (by omega) fits.right

theorem exists_decoded (h : t.Readable n) :
    ∃ r, codec.decode (.text n) t.doc = r ∧ Decoded t r := by
  cases h
  case null     => exact ⟨_, rfl, .null⟩
  case bool b   => exact ⟨_, rfl, .bool b⟩
  case string s => exact ⟨_, rfl, .string s⟩
  case number h =>
    obtain ⟨n, m, hd, hm, decoded⟩ := decoded_number h
    refine ⟨_, ?_, decoded⟩
    simp only [codec, Term.doc, hd, Doc.value, ok_bind, hm]
    rfl
  case array h =>
    obtain ⟨vs, hv⟩ := Term.Readable.array_value fun t ht => (h t ht).exists_value
    refine ⟨_, ?_, .array _⟩
    simp only [codec, hv, ok_bind]
    rfl
  case object h =>
    obtain ⟨vs, hv⟩ := Term.Readable.object_value fun m hm => (h m hm).exists_value
    refine ⟨_, ?_, .object _⟩
    simp only [codec, hv, ok_bind]
    rfl

theorem decode_eq_iff (h : t.Readable n) : codec.decode (.text n) t.doc = r ↔ Decoded t r := by
  obtain ⟨r₀, decode, decoded⟩ := exists_decoded h
  rw [decode]
  constructor
  case mp  => rintro rfl; exact decoded
  case mpr => exact decoded.unique

-- The text decides the kind: a number is an integer if it is written as one and fits into 64 bits
-- with its sign, and a double otherwise.
theorem ofText_iff_decoded (readable : t.Readable 127) (h : t.Written s) :
    codec.ofText s = r ↔ Decoded t r := by
  rw [Codec.ofText_written h]
  exact decode_eq_iff readable

-- The first integer that does not fit, between blanks.
theorem ofText_limit :
    codec.ofText " 9223372036854775808\n" = .ok (.double ⟨0x43e0000000000000⟩) := by
  have ⟨n, hn⟩ : ∃ n : Number, n = .integer 0x8000000000000000 (by decide) := ⟨_, rfl⟩
  have written : (Term.number n.literal).Written " 9223372036854775808\n" := by
    have text : " 9223372036854775808\n".toList = [' '] ++ n.chars ++ ['\n'] := by
      rw [hn]
      decide
    rw [Term.Written, text]
    exact .intro (List.forall_mem_singleton.mpr rfl) (.number n.spelled)
      (List.forall_mem_singleton.mpr rfl)
  have range : n.literal.decimal.InRange := by
    rw [hn, Decimal.InRange]
    decide +kernel
  have denotes : n.literal.Denotes 0x8000000000000000 := by
    rw [hn]
    exact ⟨rfl, rfl, by decide, by decide⟩
  have reads : n.literal.ReadsAs ⟨0x43e0000000000000⟩ := by
    have rounded : Binary64.ofInt 0x8000000000000000 = ⟨0x43e0000000000000⟩ := by decide +kernel
    exact rounded ▸ denotes.readsAs_ofInt (by decide) (by decide)
  have large m (h : n.literal.Denotes m) : m < -0x8000000000000000 ∨ 0x8000000000000000 ≤ m :=
    .inr <| Int.le_of_eq <| denotes.unique h
  exact ofText_iff_decoded (.number range) written |>.mpr <| .double large reads

theorem exists_value_of_decode (h : codec.decode o d = .ok m) : ∃ v, d.value o = .ok v := by
  obtain ⟨v, hv, _⟩ := bind_eq_ok_iff.mp h
  exact ⟨v, hv⟩

theorem Decoded.readable (h : Decoded t (.ok m)) : t.Readable n := by
  cases h
  case null      => exact .null
  case bool b    => exact .bool b
  case string s  => exact .string s
  case long n h  => exact .number <| h.inRange <| natAbs_toInt_lt n
  case double hx => exact .number hx.inRange

-- What is nested is not decoded at all, and neither is a number that is out of range.
theorem readable_of_decode (h : codec.decode (.text n) t.doc = .ok m) : t.Readable n := by
  obtain ⟨v, hv, h⟩ := bind_eq_ok_iff.mp h
  cases t
  case null     => exact .null
  case bool b   => exact .bool b
  case string s => exact .string s
  case number l =>
    refine .number <| by_contra fun out => ?_
    rw [Term.doc, Reader.Literal.doc_of_not_inRange out] at hv
    cases hv
  case array ts =>
    obtain ⟨_, _, hv⟩ := bind_eq_ok_iff.mp hv
    obtain ⟨_, _, ⟨⟩⟩ := bind_eq_ok_iff.mp hv
    cases h
  case object ms =>
    obtain ⟨_, _, hv⟩ := bind_eq_ok_iff.mp hv
    obtain ⟨_, _, ⟨⟩⟩ := bind_eq_ok_iff.mp hv
    cases h

theorem decode_eq_ok_iff : codec.decode (.text n) t.doc = .ok m ↔ Decoded t (.ok m) where
  mp h  := decode_eq_iff (readable_of_decode h) |>.mp h
  mpr h := decode_eq_iff h.readable |>.mpr h

-- No text is read but those of terms that say a metric, and each of them is.
theorem ofText_eq_ok_iff :
    codec.ofText s = .ok m ↔ ∃ t : Term, t.Written s ∧ Decoded t (.ok m) := by
  rw [Codec.ofText_eq_ok_iff]
  constructor
  case mp =>
    rintro ⟨d, hs, hd⟩
    obtain ⟨v, hv⟩ := exists_value_of_decode hd
    obtain ⟨t, written, rfl⟩ := Doc.ofText_eq_iff hv |>.mp hs
    exact ⟨t, written, decode_eq_ok_iff.mp hd⟩
  case mpr =>
    rintro ⟨t, written, decoded⟩
    exact ⟨t.doc, Doc.ofText_written written, decode_eq_ok_iff.mpr decoded⟩

end TableProfiling.Metric
