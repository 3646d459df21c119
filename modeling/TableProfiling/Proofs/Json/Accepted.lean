import Mathlib
import TableProfiling.Proofs.Json.Grammar

namespace TableProfiling.Json

open Outcome

namespace Reader

variable {cs rest : List Char}

theorem digits_sound (h : digits cs = .ok (ds, rest)) : cs = ds ++ rest ∧ IsDigits ds := by
  have parts := List.takeWhile_append_dropWhile (p := Char.isDigit) (l := cs)
  have digit : ∀ c ∈ cs.takeWhile Char.isDigit, c.isDigit = true := fun _ => List.mem_takeWhile_imp
  rw [digits] at h
  generalize cs.takeWhile Char.isDigit = ds', cs.dropWhile Char.isDigit = rest' at h parts digit
  cases ds'
  case nil  => cases rest' <;> cases h
  case cons => cases h; exact ⟨parts.symm, digit, List.cons_ne_nil _ _⟩

theorem whole_sound (h : whole cs = .ok (ds, rest)) :
    cs = ds ++ rest ∧ IsDigits ds ∧ (ds.head? = some '0' → ds.length = 1) := by
  simp only [whole, bind_eq_ok_iff] at h
  obtain ⟨⟨ds', rest'⟩, hd, h⟩ := h
  obtain ⟨parts, digits⟩ := digits_sound hd
  dsimp only at h
  split at h
  case isTrue => cases h
  case isFalse zero =>
    cases h
    exact ⟨parts, digits, fun first => not_not.mp fun length => zero ⟨length, first⟩⟩

theorem fraction_sound (h : fraction cs = .ok (f, rest)) :
    cs = Literal.fractionChars f ++ rest ∧ ∀ ds ∈ f, IsDigits ds := by
  rw [fraction.eq_def] at h
  split at h
  case h_1 =>
    simp only [bind_eq_ok_iff] at h
    obtain ⟨⟨ds', rest'⟩, hd, h⟩ := h
    obtain ⟨rfl, digits⟩ := digits_sound hd
    cases h
    exact ⟨rfl, by simpa using digits⟩
  case h_2 =>
    cases h
    exact ⟨rfl, by simp⟩

theorem exponent_sound (h : exponent cs = .ok (e, rest)) :
    ∃ es, cs = es ++ rest ∧ Literal.SpelledExponent e es ∧ ∀ x ∈ e, IsDigits x.2 := by
  rw [exponent.eq_def] at h
  split at h
  case h_2 =>
    cases h
    exact ⟨[], rfl, .none, by simp⟩
  case h_1 c _ =>
    split at h
    case isFalse =>
      cases h
      exact ⟨[], rfl, .none, by simp⟩
    case isTrue letter =>
      dsimp only at h
      split at h
      all_goals
        obtain ⟨⟨ds, _⟩, hd, h⟩ := bind_eq_ok_iff.mp h
        obtain ⟨rfl, digits⟩ := digits_sound hd
        cases h
      case h_1 => exact ⟨c :: '-' :: ds, rfl, .minus letter, by simpa using digits⟩
      case h_2 => exact ⟨c :: '+' :: ds, rfl, .plus letter, by simpa using digits⟩
      case h_3 => exact ⟨c :: ds, rfl, .unsigned letter, by simpa using digits⟩

theorem literal_sound (h : literal negative cs = .ok (l, rest)) :
    ∃ us, cs = us ++ rest ∧ l.Spelled ((if negative then ['-'] else []) ++ us) := by
  simp only [literal, bind_eq_ok_iff] at h
  obtain ⟨⟨ds, _⟩, hw, ⟨f, _⟩, hf, ⟨e, _⟩, he, h⟩ := h
  obtain ⟨rfl, whole, leading⟩ := whole_sound hw
  obtain ⟨rfl, fraction⟩ := fraction_sound hf
  obtain ⟨es, rfl, spelled, exponent⟩ := exponent_sound he
  cases h
  refine ⟨ds ++ Literal.fractionChars f ++ es, by simp, ?_⟩
  exact .intro ⟨whole, leading, fraction, exponent⟩ spelled

theorem number_sound (h : number negative cs = (d, rest)) (hd : ∀ b, d ≠ .broken b) :
    ∃ (l : Literal) (us : List Char), d = l.doc ∧ cs = us ++ rest ∧
      l.Spelled ((if negative then ['-'] else []) ++ us) := by
  rw [number] at h
  split at h
  case h_2 => cases h; exact absurd rfl (hd _)
  case h_1 l _ hl =>
    cases h
    obtain ⟨us, parts, spelled⟩ := literal_sound hl
    exact ⟨l, us, rfl, parts, spelled⟩

theorem hexDigit?_lt (h : hexDigit? c = some v) : v < 16 := by
  simp only [hexDigit?, Char.isDigit, Char.le_def, UInt32.le_iff_toNat_le, Bool.and_eq_true,
    decide_eq_true_eq, ge_iff_le] at h
  have code : c.toNat = c.val.toNat := rfl
  split_ifs at h with digit lower upper
  all_goals cases h
  case pos =>
    have : c.val.toNat ≤ 57 := digit.right
    have : '0'.toNat = 48 := rfl
    omega
  case pos =>
    have : c.val.toNat ≤ 102 := lower.right
    have : 'a'.toNat = 97 := rfl
    omega
  case pos =>
    have : c.val.toNat ≤ 70 := upper.right
    have : 'A'.toNat = 65 := rfl
    omega

theorem hex4?_lt (h : hex4? x₁ x₂ x₃ x₄ = some n) : n < 0x10000 := by
  simp only [hex4?, Option.bind_eq_bind, Option.bind_eq_some_iff] at h
  obtain ⟨v₁, h₁, v₂, h₂, v₃, h₃, v₄, h₄, h⟩ := h
  have := hexDigit?_lt h₁
  have := hexDigit?_lt h₂
  have := hexDigit?_lt h₃
  have := hexDigit?_lt h₄
  cases h
  omega

-- How what has been read of a string is completed by a text. A surrogate that waits for its partner
-- has to be read together with this.
def Completes (p : Gathered) (s : String) (ts : List Char) : Prop :=
  ∃ before, p.chars = some before ∧
    match p.leading with
    | none => ∃ us, SpelledChars us ts ∧ s = .ofList (before.reverse ++ us)
    | some m => (0xD800 ≤ m ∧ m < 0xDC00) → ∀ x₁ x₂ x₃ x₄, hex4? x₁ x₂ x₃ x₄ = some m →
      ∃ us, SpelledChars us ('\\' :: 'u' :: x₁ :: x₂ :: x₃ :: x₄ :: ts) ∧
        s = .ofList (before.reverse ++ us)

namespace Completes

variable {p : Gathered} {s : String} {ts us : List Char}

theorem finish (h : p.finish? = some s) : Completes p s [] := by
  obtain ⟨chars, leading⟩ := p
  cases leading
  case some => cases h
  case none =>
    obtain ⟨before, rfl, rfl⟩ := Option.map_eq_some_iff.mp h
    exact ⟨before, rfl, [], .nil, by rw [List.append_nil]⟩

theorem prepend (spelled : SpelledChar c us) (h : Completes ⟨chars.map (c :: ·), none⟩ s ts) :
    Completes ⟨chars, none⟩ s (us ++ ts) := by
  obtain ⟨_, hb, cs, more, rfl⟩ := h
  obtain ⟨before, rfl, rfl⟩ := Option.map_eq_some_iff.mp hb
  exact ⟨before, rfl, c :: cs, .cons spelled more, by simp⟩

theorem push (spelled : SpelledChar c us) (h : Completes (p.push c) s ts) :
    Completes p s (us ++ ts) := by
  obtain ⟨chars, leading⟩ := p
  cases leading
  case none => exact h.prepend spelled
  case some => obtain ⟨_, ⟨⟩, _⟩ := h

theorem pushUnit (digits : hex4? x₁ x₂ x₃ x₄ = some n) (h : Completes (p.pushUnit n) s ts) :
    Completes p s ('\\' :: 'u' :: x₁ :: x₂ :: x₃ :: x₄ :: ts) := by
  have small := hex4?_lt digits
  obtain ⟨chars, leading⟩ := p
  cases leading
  case none =>
    simp only [Gathered.pushUnit] at h
    split_ifs at h with lead trail
    case pos =>
      obtain ⟨before, rfl, h⟩ := h
      exact ⟨before, rfl, h lead _ _ _ _ digits⟩
    case pos => obtain ⟨_, ⟨⟩, _⟩ := h
    case neg =>
      have value : (Char.ofNat n).toNat = n :=
        Char.toNat_ofNat n |>.trans <| if_pos (by unfold Nat.isValidChar; omega)
      exact h.prepend (.numbered <| value.symm ▸ digits)
  case some m =>
    simp only [Gathered.pushUnit] at h
    split_ifs at h with trail
    case neg => obtain ⟨_, ⟨⟩, _⟩ := h
    case pos =>
      obtain ⟨_, hb, cs, more, rfl⟩ := h
      obtain ⟨before, rfl, rfl⟩ := Option.map_eq_some_iff.mp hb
      refine ⟨before, rfl, fun lead y₁ y₂ y₃ y₄ digits' => ?_⟩
      have value := Char.toNat_ofNat (0x10000 + (m - 0xD800) * 0x400 + (n - 0xDC00))
        |>.trans <| if_pos (by unfold Nat.isValidChar; omega)
      refine ⟨_ :: cs, .cons (.paired digits' lead digits trail value) more, ?_⟩
      simp

end Completes

theorem string_sound {p : Gathered} (h : string p cs = .ok (some s, rest)) :
    ∃ ts, cs = ts ++ '"' :: rest ∧ Completes p s ts := by
  fun_induction string p cs
  case case2 =>
    obtain ⟨hs, rfl⟩ := Prod.mk.inj <| Except.ok.inj h
    exact ⟨[], rfl, .finish hs⟩
  case case4 digits hi =>
    obtain ⟨ts, rfl, completes⟩ := hi h
    exact ⟨_, rfl, completes.pushUnit digits⟩
  case case7 c he hi =>
    obtain ⟨ts, rfl, completes⟩ := hi h
    exact ⟨_, rfl, completes.push <| .named he⟩
  case case10 quote backslash printed hi =>
    obtain ⟨ts, rfl, completes⟩ := hi h
    exact ⟨_, rfl, completes.push <| .plain quote backslash <| Nat.not_lt.mp printed⟩
  all_goals cases h

theorem string_start_sound (h : string .start cs = .ok (some s, rest)) :
    ∃ ts, cs = ts ++ '"' :: rest ∧ SpelledChars s.toList ts := by
  obtain ⟨ts, parts, _, ⟨⟩, us, spelled, rfl⟩ := string_sound h
  refine ⟨ts, parts, ?_⟩
  rwa [List.reverse_nil, List.nil_append, String.toList_ofList]

open Json.Term

theorem exists_blank (cs : List Char) : ∃ b, IsBlank b ∧ cs = b ++ skipBlanks cs :=
  ⟨cs.takeWhile isBlankChar, fun _ => List.mem_takeWhile_imp,
    List.takeWhile_append_dropWhile.symm⟩

theorem word_sound (h : word d ws cs = (d', rest)) (hd : ∀ b, d' ≠ .broken b) :
    cs = ws ++ rest ∧ d' = d := by
  fun_induction word d ws cs
  case case1       => cases h; exact ⟨rfl, rfl⟩
  case case2       => cases h; exact absurd rfl (hd _)
  case case3 hi    =>
    obtain ⟨rfl, hd⟩ := hi h
    exact ⟨rfl, hd⟩
  case case4       => cases h; exact absurd rfl (hd _)

def ValueSound (n : Nat) : Prop :=
  ∀ ⦃cs rest d o v⦄, value n cs = (d, rest) → d.value o = .ok v →
    ∃ t b us, IsBlank b ∧ Spelled t us ∧ cs = b ++ us ++ rest ∧ d = t.doc

def ItemsSound (n : Nat) : Prop :=
  ∀ ⦃cs rest is o vs⦄, items n cs = (is, rest) → is.values o = .ok vs →
    ∃ ts us, SpelledItems ts us ∧ cs = us ++ ']' :: rest ∧ is = Term.itemsDoc ts

def MembersSound (n : Nat) : Prop :=
  ∀ ⦃cs rest ms o before vs⦄, members n cs = (ms, rest) → ms.values o before = .ok vs →
    ∃ ts us, SpelledMembers ts us ∧ cs = us ++ '\x7d' :: rest ∧ ms = Term.membersDoc ts

theorem not_broken {d : Doc} (h : d.value o = .ok v) (b : Breakage) : d ≠ .broken b := by
  rintro rfl
  cases h

theorem ItemsSound.value (hi : ItemsSound n) (hm : MembersSound n) : ValueSound (n + 1) := by
  intro cs rest d o v h hv
  obtain ⟨b, hb, parts⟩ := exists_blank cs
  have sound : ∃ t us, Spelled t us ∧ skipBlanks cs = us ++ rest ∧ d = t.doc := by
    have hd := not_broken hv
    rw [Reader.value] at h
    split at h
    case h_1 => cases h; cases hv
    case h_2 hs =>
      obtain ⟨rfl, rfl⟩ := word_sound h hd
      exact ⟨.null, _, .null, hs, rfl⟩
    case h_3 hs =>
      obtain ⟨rfl, rfl⟩ := word_sound h hd
      exact ⟨.bool true, _, .bool true, hs, rfl⟩
    case h_4 hs =>
      obtain ⟨rfl, rfl⟩ := word_sound h hd
      exact ⟨.bool false, _, .bool false, hs, rfl⟩
    case h_5 hs =>
      obtain ⟨l, us, rfl, rfl, spelled⟩ := number_sound h hd
      exact ⟨.number l, _, .number spelled, hs, rfl⟩
    case h_6 hs =>
      split at h
      case h_1 s _ hk =>
        cases h
        obtain ⟨ts, rfl, spelled⟩ := string_start_sound hk
        exact ⟨.string s, _, .string (.intro spelled), by simpa using hs, rfl⟩
      case h_2 => cases h; cases hv
      case h_3 => cases h; cases hv
    case h_7 cs' hs =>
      obtain ⟨b', hb', parts'⟩ := exists_blank cs'
      split at h
      case h_1 he =>
        cases h
        rw [he] at parts'
        exact ⟨.array [], _, .emptyArray hb', by simpa [parts'] using hs, rfl⟩
      case h_2 =>
        obtain ⟨is, rest, his⟩ : ∃ is rest, items n cs' = (is, rest) := ⟨_, _, rfl⟩
        rw [items_skipBlanks, his] at h
        cases h
        simp only [Doc.value, bind_eq_ok_iff] at hv
        obtain ⟨_, _, _, hvs, _⟩ := hv
        obtain ⟨ts, us, spelled, rfl, hd⟩ := hi his hvs
        exact ⟨.array ts, _, .array spelled, by simpa using hs, congrArg Doc.array hd⟩
    case h_8 cs' hs =>
      obtain ⟨b', hb', parts'⟩ := exists_blank cs'
      split at h
      case h_1 he =>
        cases h
        rw [he] at parts'
        exact ⟨.object [], _, .emptyObject hb', by simpa [parts'] using hs, rfl⟩
      case h_2 =>
        obtain ⟨ms, rest, hms⟩ : ∃ ms rest, members n cs' = (ms, rest) := ⟨_, _, rfl⟩
        rw [members_skipBlanks, hms] at h
        cases h
        simp only [Doc.value, bind_eq_ok_iff] at hv
        obtain ⟨_, _, _, hvs, _⟩ := hv
        obtain ⟨ts, us, spelled, rfl, hd⟩ := hm hms hvs
        exact ⟨.object ts, _, .object spelled, by simpa using hs, congrArg Doc.object hd⟩
    case h_9 hs =>
      split at h
      case isFalse => cases h; cases hv
      case isTrue =>
        obtain ⟨l, us, rfl, parts', spelled⟩ := number_sound h hd
        exact ⟨.number l, us, .number spelled, hs.trans parts', rfl⟩
  obtain ⟨t, us, spelled, hs, hd⟩ := sound
  exact ⟨t, b, us, hb, spelled, by rw [List.append_assoc, ←hs]; exact parts, hd⟩

-- The blanks behind a value belong to it as well.
theorem ValueSound.padded (hv : ValueSound n) (h : Reader.value n cs = (d, rest))
    (hd : d.value o = .ok v) : ∃ t us, Padded t us ∧ cs = us ++ skipBlanks rest ∧ d = t.doc := by
  obtain ⟨t, b, us, hb, spelled, rfl, rfl⟩ := hv h hd
  obtain ⟨b', hb', parts⟩ := exists_blank rest
  exact ⟨t, _, .intro hb spelled hb', by rw [List.append_assoc _ b', ←parts], rfl⟩

-- Whatever comes behind an item, the item itself has a value.
theorem ValueSound.item (hv : ValueSound n) (hd : Reader.value n cs = (d, cs₁))
    (hvs : (Items.more d is).values o = .ok vs) :
    (∃ t us, Padded t us ∧ cs = us ++ skipBlanks cs₁ ∧ d = t.doc) ∧
      ∃ vs', is.values o = .ok vs' := by
  simp only [Items.values, bind_eq_ok_iff] at hvs
  obtain ⟨_, hd', vs', hvs', _⟩ := hvs
  exact ⟨hv.padded hd hd', vs', hvs'⟩

theorem ValueSound.items (hv : ValueSound n) (hi : ItemsSound n) : ItemsSound (n + 1) := by
  intro cs rest is o vs h hvs
  obtain ⟨d, cs₁, hd⟩ : ∃ d cs₁, Reader.value n cs = (d, cs₁) := ⟨_, _, rfl⟩
  simp only [Reader.items, hd] at h
  split at h
  case h_1 =>
    cases h
    obtain ⟨_, _, ⟨⟩⟩ := hv.item hd hvs
  case h_4 =>
    cases h
    obtain ⟨_, _, ⟨⟩⟩ := hv.item hd hvs
  case h_2 hs =>
    cases h
    obtain ⟨⟨t, us, padded, rfl, rfl⟩, _⟩ := hv.item hd hvs
    exact ⟨[t], us, .last padded, by rw [hs], rfl⟩
  case h_3 cs₂ hs =>
    obtain ⟨is, rest, his⟩ : ∃ is rest, Reader.items n cs₂ = (is, rest) := ⟨_, _, rfl⟩
    rw [his] at h
    cases h
    obtain ⟨⟨t, us, padded, rfl, rfl⟩, _, hvs'⟩ := hv.item hd hvs
    obtain ⟨ts, us', spelled, rfl, rfl⟩ := hi his hvs'
    exact ⟨t :: ts, _, .next padded spelled, by simp [hs], rfl⟩

-- Likewise a member has a key and a value.
theorem ValueSound.member (hv : ValueSound n) (hq : skipBlanks cs = '"' :: cs₁)
    (hk : string .start cs₁ = .ok (key, cs₂)) (hc : skipBlanks cs₂ = ':' :: cs₃)
    (hd : Reader.value n cs₃ = (d, cs₄)) (hvs : (Members.more key d ms).values o before = .ok vs) :
    ∃ k t us, key = some k ∧ SpelledMember k t us ∧ cs = us ++ skipBlanks cs₄ ∧ d = t.doc ∧
      ∃ before', ms.values o before' = .ok vs := by
  obtain ⟨b, hb, parts⟩ := exists_blank cs
  obtain ⟨b', hb', parts'⟩ := exists_blank cs₂
  rw [hq] at parts
  rw [hc] at parts'
  cases key
  case none => cases hvs
  case some k =>
    simp only [Members.values, bind_eq_ok_iff] at hvs
    obtain ⟨_, hd', hvs'⟩ := hvs
    obtain ⟨t, us, padded, rfl, rfl⟩ := hv.padded hd hd'
    obtain ⟨ks, rfl, spelled⟩ := string_start_sound hk
    refine ⟨k, t, _, rfl, .intro hb (.intro spelled) hb' padded, ?_, rfl, _, hvs'⟩
    simp [parts, parts']

theorem ValueSound.members (hv : ValueSound n) (hm : MembersSound n) : MembersSound (n + 1) := by
  intro cs rest ms o before vs h hvs
  rw [Reader.members] at h
  split at h
  case h_1 => cases h; cases hvs
  case h_3 => cases h; cases hvs
  case h_2 cs₁ hq =>
    split at h
    case h_1 => cases h; cases hvs
    case h_2 key cs₂ hk =>
      split at h
      case h_1 => cases key <;> cases h <;> cases hvs
      case h_3 => cases key <;> cases h <;> cases hvs
      case h_2 cs₃ hc =>
        obtain ⟨d, cs₄, hd⟩ : ∃ d cs₄, Reader.value n cs₃ = (d, cs₄) := ⟨_, _, rfl⟩
        simp only [hd] at h
        split at h
        case h_1 =>
          cases h
          obtain ⟨_, _, _, _, _, _, _, _, ⟨⟩⟩ := hv.member hq hk hc hd hvs
        case h_4 =>
          cases h
          obtain ⟨_, _, _, _, _, _, _, _, ⟨⟩⟩ := hv.member hq hk hc hd hvs
        case h_2 hs =>
          cases h
          obtain ⟨k, t, us, rfl, member, rfl, rfl, _⟩ := hv.member hq hk hc hd hvs
          exact ⟨[(k, t)], us, .last member, by rw [hs], rfl⟩
        case h_3 cs₅ hs =>
          obtain ⟨ms, rest, hms⟩ : ∃ ms rest, Reader.members n cs₅ = (ms, rest) := ⟨_, _, rfl⟩
          rw [hms] at h
          cases h
          obtain ⟨k, t, us, rfl, member, rfl, rfl, _, hvs'⟩ := hv.member hq hk hc hd hvs
          obtain ⟨ts, us', spelled, rfl, rfl⟩ := hm hms hvs'
          exact ⟨(k, t) :: ts, _, .next member spelled, by simp [hs], rfl⟩

theorem all_sound (n : Nat) : ValueSound n ∧ ItemsSound n ∧ MembersSound n := by
  induction n
  case zero =>
    refine ⟨fun _ _ _ _ _ h hv => ?_, fun _ _ _ _ _ h hv => ?_, fun _ _ _ _ _ _ h hv => ?_⟩
    all_goals
      cases h
      cases hv
  case succ n hi =>
    obtain ⟨hv, hi, hm⟩ := hi
    exact ⟨hi.value hm, hv.items hi, hv.members hm⟩

theorem valueSound (n : Nat) : ValueSound n :=
  (all_sound n).left

end Reader

-- Of the documents that have a value, the reader finds those that texts of terms say.
theorem Doc.ofText_eq_iff {d : Doc} (hd : d.value o = .ok v) :
    ofText s = (d, true) ↔ ∃ t : Term, t.Written s ∧ d = t.doc := by
  constructor
  case mpr =>
    rintro ⟨t, written, rfl⟩
    exact ofText_written written
  case mp =>
    intro h
    obtain ⟨d', rest, hr⟩ : ∃ d' rest,
        Reader.value (2 * s.toList.length + 2) s.toList = (d', rest) := ⟨_, _, rfl⟩
    simp only [ofText, hr, Prod.mk.injEq, List.isEmpty_iff] at h
    obtain ⟨rfl, blank⟩ := h
    obtain ⟨t, us, padded, parts, rfl⟩ := Reader.valueSound _ |>.padded hr hd
    refine ⟨t, ?_, rfl⟩
    rwa [Term.Written, parts, blank, List.append_nil]

end TableProfiling.Json
