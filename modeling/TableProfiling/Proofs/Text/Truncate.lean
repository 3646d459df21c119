import Mathlib.Data.String.Basic
import Mathlib.Tactic.Common
import TableProfiling.Text.Truncate

namespace TableProfiling

-- Whether a byte belongs to the same character as the byte before it.
def continues (b : UInt8) : Bool :=
  b &&& 0xc0 = 0x80

-- Whether a text can be cut at an offset: at its two ends, and in front of each character.
def isBoundary (s : String) (i : Nat) : Bool :=
  i = 0 ||
    if h : i < s.toByteArray.size then !continues s.toByteArray[i] else i = s.toByteArray.size

-- The search backwards for a boundary. It fails if it has to go on from the start of the text.
def boundaryBelow? (s : String) : Nat → Option Nat
  | 0 => if isBoundary s 0 then some 0 else none
  | i + 1 => if isBoundary s (i + 1) then some (i + 1) else boundaryBelow? s i

-- The text before an offset, which has to be a boundary.
def before? (s : String) (i : Nat) : Option String :=
  if isBoundary s i then String.fromUTF8? (s.toByteArray.extract 0 i) else none

-- What is left of a text when it is cut by a search through its bytes.
def truncate? (limit : Nat) (s : String) : Option String :=
  if s.utf8ByteSize ≤ limit then some s
  else do
    let cut ← boundaryBelow? s limit
    let kept ← before? s cut
    return kept ++ "...(truncated)"

theorem continues_trailing (b : UInt8) : continues (b &&& 0x3f ||| 0x80) = true := by
  rw [continues, decide_eq_true_eq, ←UInt8.toBitVec_inj]
  simp only [UInt8.toBitVec_and, UInt8.toBitVec_or, UInt8.toBitVec_ofNat]
  generalize b.toBitVec = x
  decide +revert

theorem not_continues_of_first (h : b.IsUTF8FirstByte) : continues b = false := by
  rw [continues, decide_eq_false_iff_not]
  rw [UInt8.IsUTF8FirstByte] at h
  simp only [←UInt8.toBitVec_inj, UInt8.toBitVec_and, UInt8.toBitVec_ofNat] at h ⊢
  generalize b.toBitVec = x at h
  decide +revert

theorem continues_of_mem_tail {c : Char} (h : b ∈ (String.utf8EncodeChar c).tail) :
    continues b = true := by
  rcases c.utf8Size_eq with size | size | size | size
  case inl => simp [String.utf8EncodeChar_eq_singleton size] at h
  case inr.inl =>
    rw [String.utf8EncodeChar_eq_cons_cons size, List.tail_cons, List.mem_singleton] at h
    exact h ▸ continues_trailing _
  case inr.inr.inl =>
    rw [String.utf8EncodeChar_eq_cons_cons_cons size, List.tail_cons] at h
    simp only [List.mem_cons, List.not_mem_nil, or_false] at h
    rcases h with rfl | rfl <;> exact continues_trailing _
  case inr.inr.inr =>
    rw [String.utf8EncodeChar_eq_cons_cons_cons_cons size, List.tail_cons] at h
    simp only [List.mem_cons, List.not_mem_nil, or_false] at h
    rcases h with rfl | rfl | rfl <;> exact continues_trailing _

theorem first_of_not_continues {c : Char} (hb : b ∈ String.utf8EncodeChar c)
    (h : continues b = false) : b.IsUTF8FirstByte := by
  obtain ⟨i, hi, rfl⟩ := List.getElem_of_mem hb
  cases i
  case zero   => exact UInt8.isUTF8FirstByte_getElem_zero_utf8EncodeChar
  case succ i =>
    have bound : i < (String.utf8EncodeChar c).tail.length := by
      rw [List.length_tail]
      omega
    have trailing := continues_of_mem_tail <| List.getElem_mem bound
    rw [List.getElem_tail, h] at trailing
    contradiction

theorem toByteArray_data (s : String) :
    s.toByteArray.data.toList = s.toList.flatMap String.utf8EncodeChar := by
  have h : s.toByteArray = s.toList.utf8Encode := by
    rw [←String.toByteArray_ofList, String.ofList_toList]
  rw [h, List.utf8Encode, List.data_toByteArray]

theorem exists_mem_utf8EncodeChar {s : String} (h : i < s.toByteArray.size) :
    ∃ c, s.toByteArray[i] ∈ String.utf8EncodeChar c := by
  have mem : s.toByteArray[i] ∈ s.toByteArray.data.toList := by
    rw [Array.mem_toList_iff]
    exact Array.getElem_mem h
  rw [toByteArray_data, List.mem_flatMap] at mem
  obtain ⟨c, _, hb⟩ := mem
  exact ⟨c, hb⟩

theorem not_continues_iff {s : String} (h : i < s.toByteArray.size) :
    continues s.toByteArray[i] = false ↔ s.toByteArray[i].IsUTF8FirstByte := by
  obtain ⟨c, hc⟩ := exists_mem_utf8EncodeChar h
  exact ⟨first_of_not_continues hc, not_continues_of_first⟩

theorem isBoundary_iff_isValid : isBoundary s i = true ↔ String.Pos.Raw.IsValid s ⟨i⟩ := by
  by_cases start : i = 0
  case pos => simp [isBoundary, start]
  case neg =>
    rw [String.Pos.Raw.isValid_iff_isUTF8FirstByte, String.Pos.Raw.ext_iff]
    by_cases h : i < s.toByteArray.size
    case pos =>
      have inside : i ≠ s.rawEndPos.byteIdx := Nat.ne_of_lt h
      have byte : isBoundary s i = !continues s.toByteArray[i] := by
        rw [isBoundary, decide_eq_false start, Bool.false_or, dif_pos h]
      rw [byte, Bool.not_eq_true', not_continues_iff h, or_iff_right inside]
      constructor
      case mp  => exact fun first => ⟨h, first⟩
      case mpr => rintro ⟨_, first⟩; exact first
    case neg =>
      have past : isBoundary s i = decide (i = s.toByteArray.size) := by
        rw [isBoundary, decide_eq_false start, Bool.false_or, dif_neg h]
      have outside : ¬∃ inside, (s.getUTF8Byte ⟨i⟩ inside).IsUTF8FirstByte := by
        rintro ⟨inside, _⟩
        exact h inside
      rw [past, decide_eq_true_eq, or_iff_left outside]
      rfl

-- The boundaries of a text are the ends of its initial parts.
theorem isBoundary_iff :
    isBoundary s i = true ↔ ∃ t u : String, s = t ++ u ∧ i = t.utf8ByteSize := by
  rw [isBoundary_iff_isValid, String.Pos.Raw.isValid_iff_exists_append]
  simp [String.Pos.Raw.ext_iff]

theorem before?_append (t u : String) : before? (t ++ u) t.utf8ByteSize = some t := by
  have boundary : isBoundary (t ++ u) t.utf8ByteSize = true := isBoundary_iff.mpr ⟨t, u, rfl, rfl⟩
  have bytes : (t ++ u).toByteArray.extract 0 t.utf8ByteSize = t.toByteArray := by
    rw [String.toByteArray_append]
    exact ByteArray.extract_append_eq_left rfl
  rw [before?, if_pos boundary, bytes, String.fromUTF8?, dif_pos t.isValidUTF8]
  rfl

-- A boundary at or below a limit, and the last one there.
structure LastBoundary (s : String) (limit cut : Nat) : Prop where
  boundary : isBoundary s cut = true
  within   : cut ≤ limit
  last     : ∀ i, cut < i → i ≤ limit → isBoundary s i = false

theorem exists_boundaryBelow? (s : String) (limit : Nat) :
    ∃ cut, boundaryBelow? s limit = some cut ∧ LastBoundary s limit cut := by
  induction limit
  case zero =>
    have start : isBoundary s 0 = true := rfl
    exact ⟨0, if_pos start, start, Nat.le_refl 0, fun i above below => by omega⟩
  case succ limit hi =>
    cases h : isBoundary s (limit + 1)
    case true =>
      exact ⟨limit + 1, if_pos h, h, Nat.le_refl _, fun i above below => by omega⟩
    case false =>
      obtain ⟨cut, found, boundary, within, last⟩ := hi
      refine ⟨cut, ?_, boundary, by omega, fun i above below => ?_⟩
      · simp [boundaryBelow?, h, found]
      · rcases Nat.le_succ_iff.mp below with below | rfl
        · exact last i above below
        · exact h

theorem initialPart_fits (limit : Nat) (cs : List Char) :
    String.utf8Len (initialPart limit cs) ≤ limit := by
  induction cs generalizing limit
  case nil => exact Nat.zero_le _
  case cons c cs hi =>
    rw [initialPart]
    split
    case isTrue h =>
      have := hi (limit - c.utf8Size)
      rw [String.utf8Len_cons]
      omega
    case isFalse => exact Nat.zero_le _

theorem initialPart_longest {limit : Nat} {ds cs : List Char} (h : ds <+: cs)
    (fits : String.utf8Len ds ≤ limit) : ds <+: initialPart limit cs := by
  induction cs generalizing limit ds
  case nil => exact List.prefix_nil.mp h ▸ List.nil_prefix
  case cons c cs hi =>
    cases ds
    case nil => exact List.nil_prefix
    case cons d ds =>
      obtain ⟨rfl, hds⟩ := List.cons_prefix_cons.mp h
      rw [String.utf8Len_cons] at fits
      rw [initialPart, if_pos (by omega)]
      exact List.cons_prefix_cons.mpr ⟨rfl, hi hds (by omega)⟩

-- One character more does not fit, and no character takes more than four bytes.
theorem lt_initialPart_add {limit : Nat} {cs : List Char} (h : limit < String.utf8Len cs) :
    limit < String.utf8Len (initialPart limit cs) + 4 := by
  obtain ⟨rest, hr⟩ := initialPart_prefixes limit cs
  cases rest
  case nil =>
    rw [List.append_nil] at hr
    exact absurd (initialPart_fits limit cs) <| Nat.not_le_of_lt <| hr.symm ▸ h
  case cons c rest =>
    by_contra short
    have := c.utf8Size_le_four
    have next : initialPart limit cs ++ [c] <+: cs := ⟨rest, by rw [List.append_assoc]; exact hr⟩
    have fits : String.utf8Len (initialPart limit cs ++ [c]) ≤ limit := by
      rw [String.utf8Len_append, String.utf8Len_cons, String.utf8Len_nil]
      omega
    have := (initialPart_longest next fits).length_le
    rw [List.length_append, List.length_singleton] at this
    omega

theorem eq_of_prefix {cs ds : List Char} (h : cs <+: ds)
    (hl : String.utf8Len ds ≤ String.utf8Len cs) : cs = ds := by
  obtain ⟨es, rfl⟩ := h
  rw [String.utf8Len_append] at hl
  rw [String.utf8Len_eq_zero.mp (show String.utf8Len es = 0 by omega), List.append_nil]

-- The initial part of a text that takes at most some number of bytes and is longer than all others
-- that do.
structure LongestPart (limit : Nat) (s p : String) : Prop where
  initial : p.toList <+: s.toList
  fits    : p.utf8ByteSize ≤ limit
  longest : ∀ q : String, q.toList <+: s.toList → q.utf8ByteSize ≤ limit → q.toList <+: p.toList

def longestPart (limit : Nat) (s : String) : String :=
  .ofList (initialPart limit s.toList)

theorem longestPart_longest (limit : Nat) (s : String) : LongestPart limit s (longestPart limit s) where
  initial := by
    rw [longestPart, String.toList_ofList]
    exact initialPart_prefixes limit s.toList
  fits := by
    rw [longestPart, String.utf8ByteSize_ofList]
    exact initialPart_fits limit s.toList
  longest q hq fits := by
    rw [longestPart, String.toList_ofList]
    exact initialPart_longest hq <| q.utf8Len_toList ▸ fits

theorem LongestPart.isBoundary (h : LongestPart limit s p) : isBoundary s p.utf8ByteSize = true := by
  obtain ⟨cs, hs⟩ := h.initial
  refine isBoundary_iff.mpr ⟨p, .ofList cs, ?_, rfl⟩
  rw [←String.toList_inj, String.toList_append, String.toList_ofList, hs]

-- What stands before the last boundary is as long as it can be.
theorem LastBoundary.eq_append (h : LastBoundary s limit cut) :
    ∃ u, s = longestPart limit s ++ u ∧ cut = (longestPart limit s).utf8ByteSize := by
  obtain ⟨t, u, hs, rfl⟩ := isBoundary_iff.mp h.boundary
  have part := longestPart_longest limit s
  have initial : t.toList <+: (longestPart limit s).toList :=
    part.longest t (hs ▸ String.toList_append ▸ List.prefix_append ..) h.within
  have length : (longestPart limit s).utf8ByteSize ≤ t.utf8ByteSize := by
    by_contra longer
    have := h.last _ (Nat.lt_of_not_le longer) part.fits
    rw [part.isBoundary] at this
    contradiction
  rw [←String.utf8Len_toList, ←String.utf8Len_toList] at length
  have ht : t = longestPart limit s := String.toList_inj.mp <| eq_of_prefix initial length
  exact ⟨u, ht ▸ hs, ht ▸ rfl⟩

theorem boundaryBelow?_eq (limit : Nat) (s : String) :
    boundaryBelow? s limit = some (longestPart limit s).utf8ByteSize ∧
      LastBoundary s limit (longestPart limit s).utf8ByteSize := by
  obtain ⟨cut, found, last⟩ := exists_boundaryBelow? s limit
  obtain ⟨_, _, rfl⟩ := last.eq_append
  exact ⟨found, last⟩

theorem truncate?_eq (limit : Nat) (s : String) : truncate? limit s = some (truncate limit s) := by
  rw [truncate?, truncate]
  split
  case isTrue => rfl
  case isFalse =>
    have ⟨found, last⟩ := boundaryBelow?_eq limit s
    obtain ⟨u, hs, _⟩ := last.eq_append
    have kept := before?_append (longestPart limit s) u
    rw [←hs] at kept
    rw [found, Option.bind_eq_bind, Option.bind_some, kept]
    rfl

-- A text that is too long is cut at the last boundary in front of the limit, which the search finds
-- between the start of the text and its end; what is kept lacks less than a character of the limit.
theorem truncate_longest (limit : Nat) (s : String) :
    truncate? limit s = some (truncate limit s) ∧
    (s.utf8ByteSize ≤ limit → truncate limit s = s) ∧
    (limit < s.utf8ByteSize → ∃ p,
      truncate limit s = p ++ "...(truncated)" ∧ LongestPart limit s p ∧
      limit < p.utf8ByteSize + 4 ∧
      boundaryBelow? s limit = some p.utf8ByteSize ∧ LastBoundary s limit p.utf8ByteSize) := by
  refine ⟨truncate?_eq limit s, fun h => if_pos h, fun h => ?_⟩
  refine ⟨longestPart limit s, if_neg (Nat.not_le_of_lt h), longestPart_longest limit s, ?_,
    boundaryBelow?_eq limit s⟩
  rw [longestPart, String.utf8ByteSize_ofList]
  exact lt_initialPart_add <| s.utf8Len_toList ▸ h

-- The limit is within the second character, which takes three bytes.
theorem truncate_longest_within :
    let s := "\u00e9\u20ac"
    4 < s.utf8ByteSize ∧ truncate? 4 s = some "\u00e9...(truncated)" ∧
    ∃ p, truncate 4 s = p ++ "...(truncated)" ∧ LastBoundary s 4 p.utf8ByteSize := by
  intro s
  have ⟨search, _, cut⟩ := truncate_longest 4 s
  have long : 4 < s.utf8ByteSize := by decide
  obtain ⟨p, text, _, _, _, last⟩ := cut long
  exact ⟨long, search.trans <| by decide, p, text, last⟩

end TableProfiling
