import Mathlib.Data.List.DropRight
import TableProfiling.Proofs.Json.Escaped
import TableProfiling.Proofs.Json.Number

namespace TableProfiling.Json

-- What a text says.
inductive Term
  | null
  | bool (b : Bool)
  | number (l : Reader.Literal)
  | string (s : String)
  | array (items : List Term)
  | object (members : List (String × Term))

namespace Term

mutual

-- The document that is read from the texts of a term.
def doc : Term → Doc
  | .null => .null
  | .bool b => .bool b
  | .number l => l.doc
  | .string s => .string s
  | .array ts => .array (itemsDoc ts)
  | .object ms => .object (membersDoc ms)

def itemsDoc : List Term → Items
  | [] => .done
  | t :: ts => .more t.doc (itemsDoc ts)

def membersDoc : List (String × Term) → Members
  | [] => .done
  | (k, t) :: ms => .more (some k) t.doc (membersDoc ms)

end

-- Characters that may stand around a token.
def IsBlank (b : List Char) : Prop :=
  ∀ c ∈ b, Reader.isBlankChar c = true

-- The texts of a string, between its quotes.
inductive SpelledString (s : String) : List Char → Prop
  | intro (h : Reader.SpelledChars s.toList cs) : SpelledString s ('"' :: cs ++ ['"'])

mutual

-- The texts of a term, with no blanks around them.
inductive Spelled : Term → List Char → Prop
  | null : Spelled .null ['n', 'u', 'l', 'l']
  | bool (b : Bool) :
    Spelled (.bool b) (if b then ['t', 'r', 'u', 'e'] else ['f', 'a', 'l', 's', 'e'])
  | number (h : l.Spelled cs) : Spelled (.number l) cs
  | string (h : SpelledString s cs) : Spelled (.string s) cs
  | emptyArray (hb : IsBlank b) : Spelled (.array []) ('[' :: b ++ [']'])
  | array (h : SpelledItems ts cs) : Spelled (.array ts) ('[' :: cs ++ [']'])
  | emptyObject (hb : IsBlank b) : Spelled (.object []) ('\x7b' :: b ++ ['\x7d'])
  | object (h : SpelledMembers ms cs) : Spelled (.object ms) ('\x7b' :: cs ++ ['\x7d'])

-- The texts of a term with blanks around them.
inductive Padded : Term → List Char → Prop
  | intro (hb : IsBlank b) (h : Spelled t cs) (hb' : IsBlank b') : Padded t (b ++ cs ++ b')

-- The texts of items, of which there is at least one.
inductive SpelledItems : List Term → List Char → Prop
  | last (h : Padded t cs) : SpelledItems [t] cs
  | next (h : Padded t cs) (rest : SpelledItems ts cs') : SpelledItems (t :: ts) (cs ++ ',' :: cs')

-- The texts of a member, that is, of its key and of what it is.
inductive SpelledMember : String → Term → List Char → Prop
  | intro (hb : IsBlank b) (hk : SpelledString k ks) (hb' : IsBlank b') (h : Padded t cs) :
    SpelledMember k t (b ++ ks ++ b' ++ ':' :: cs)

inductive SpelledMembers : List (String × Term) → List Char → Prop
  | last (h : SpelledMember k t cs) : SpelledMembers [(k, t)] cs
  | next (h : SpelledMember k t cs) (rest : SpelledMembers ms cs') :
    SpelledMembers ((k, t) :: ms) (cs ++ ',' :: cs')

end

-- The whole texts of a term.
def Written (t : Term) (s : String) : Prop :=
  t.Padded s.toList

variable {t : Term}

theorem Spelled.exists_first (h : t.Spelled cs) :
    ∃ c cs', cs = c :: cs' ∧ Reader.isBlankChar c = false ∧ c ≠ ']' := by
  cases h
  case number h =>
    have ⟨c, cs', hc, first⟩ := h.exists_first
    refine ⟨c, cs', hc, ?_⟩
    rcases first with rfl | digit
    · decide
    · exact ⟨Reader.isBlankChar_digit digit, by rintro rfl; cases digit⟩
  case bool b   => cases b <;> exact ⟨_, _, rfl, rfl, by decide⟩
  case string h => cases h; exact ⟨_, _, rfl, rfl, by decide⟩
  all_goals exact ⟨_, _, rfl, rfl, by decide⟩

theorem isBlank_nil : IsBlank [] :=
  nofun

theorem Spelled.padded (h : t.Spelled cs) : t.Padded cs := by
  have padded := Padded.intro isBlank_nil h isBlank_nil
  rwa [List.nil_append, List.append_nil] at padded

theorem spelled_stringChars (s : String) : SpelledString s (stringChars s) :=
  .intro <| Reader.spelled_escapedChars s.toList

end Term

namespace Reader

open Json.Term

variable {t : Term} {n : Nat} {b cs rest : List Char}

theorem skipBlanks_append (h : IsBlank b) (cs : List Char) :
    skipBlanks (b ++ cs) = skipBlanks cs :=
  List.dropWhile_append_of_pos h

theorem skipBlanks_append_cons (h : IsBlank b) (c : Char) (hc : isBlankChar c = false)
    (cs : List Char) : skipBlanks (b ++ c :: cs) = c :: cs :=
  skipBlanks_append h _ |>.trans <| skipBlanks_cons hc

theorem skipBlanks_skipBlanks (cs : List Char) : skipBlanks (skipBlanks cs) = skipBlanks cs :=
  List.dropWhile_idempotent ..

theorem value_skipBlanks (n : Nat) (cs : List Char) : value n (skipBlanks cs) = value n cs := by
  cases n
  case zero   => rfl
  case succ n => rw [value, value, skipBlanks_skipBlanks]

theorem value_append (h : IsBlank b) (n : Nat) (cs : List Char) :
    value n (b ++ cs) = value n cs := by
  rw [←value_skipBlanks, skipBlanks_append h, value_skipBlanks]

theorem items_skipBlanks (n : Nat) (cs : List Char) : items n (skipBlanks cs) = items n cs := by
  cases n
  case zero   => rfl
  case succ n => rw [items, items, value_skipBlanks]

theorem members_skipBlanks (n : Nat) (cs : List Char) :
    members n (skipBlanks cs) = members n cs := by
  cases n
  case zero   => rfl
  case succ n => rw [members, members, skipBlanks_skipBlanks]

theorem endsNumber_cons (h : endsNumber c = true) (cs : List Char) : EndsNumber (c :: cs) := by
  intro c' hc
  cases hc
  exact h

theorem endsNumber_append (h : IsBlank b) (hr : EndsNumber rest) : EndsNumber (b ++ rest) := by
  have blank {c} (hc : isBlankChar c = true) : endsNumber c = true := by
    simp only [isBlankChar, Bool.or_eq_true, decide_eq_true_eq] at hc
    rcases hc with ((rfl | rfl) | rfl) | rfl <;> rfl
  cases b
  case nil       => exact hr
  case cons c cs => exact endsNumber_cons (blank <| h c <| .head _) _

theorem items_end (h : value n cs = (d, b ++ ']' :: rest)) (hb : IsBlank b) :
    items (n + 1) cs = (.more d .done, rest) := by
  simp only [items, h, skipBlanks_append_cons hb ']' rfl]

theorem items_next (h : value n cs = (d, b ++ ',' :: rest)) (hb : IsBlank b) :
    items (n + 1) cs = (.more d (items n rest).1, (items n rest).2) := by
  simp only [items, h, skipBlanks_append_cons hb ',' rfl]

theorem members_end (h : value n cs = (d, b ++ '\x7d' :: rest)) (hb : IsBlank b)
    (h₁ : IsBlank b₁) (hk : SpelledString k ks) (h₂ : IsBlank b₂) :
    members (n + 1) (b₁ ++ ks ++ b₂ ++ ':' :: cs) = (.more (some k) d .done, rest) := by
  cases hk
  case intro us hk =>
    have key := string_spelled hk (b₂ ++ ':' :: cs)
    simp only [List.append_assoc, List.cons_append, List.nil_append, members,
      skipBlanks_append_cons h₁ '"' rfl, key, skipBlanks_append_cons h₂ ':' rfl, h,
      skipBlanks_append_cons hb '\x7d' rfl]

theorem members_next (h : value n cs = (d, b ++ ',' :: rest)) (hb : IsBlank b)
    (h₁ : IsBlank b₁) (hk : SpelledString k ks) (h₂ : IsBlank b₂) :
    members (n + 1) (b₁ ++ ks ++ b₂ ++ ':' :: cs) =
      (.more (some k) d (members n rest).1, (members n rest).2) := by
  cases hk
  case intro us hk =>
    have key := string_spelled hk (b₂ ++ ':' :: cs)
    simp only [List.append_assoc, List.cons_append, List.nil_append, members,
      skipBlanks_append_cons h₁ '"' rfl, key, skipBlanks_append_cons h₂ ':' rfl, h,
      skipBlanks_append_cons hb ',' rfl]

theorem value_items (h : (skipBlanks cs).head? ≠ some ']') (n : Nat) :
    value (n + 1) ('[' :: cs) = (.array (items n cs).1, (items n cs).2) := by
  have hb : skipBlanks ('[' :: cs) = '[' :: cs := rfl
  simp only [value, hb]
  split
  case h_1 he => simp [he] at h
  case h_2    => rw [items_skipBlanks]

theorem value_members (h : (skipBlanks cs).head? ≠ some '\x7d') (n : Nat) :
    value (n + 1) ('\x7b' :: cs) = (.object (members n cs).1, (members n cs).2) := by
  have hb : skipBlanks ('\x7b' :: cs) = '\x7b' :: cs := rfl
  simp only [value, hb]
  split
  case h_1 he => simp [he] at h
  case h_2    => rw [members_skipBlanks]

-- A term is read from a text, in a number of steps that the length of the text bounds.
def Reads (t : Term) (cs : List Char) : Prop :=
  ∀ n rest, EndsNumber rest → 2 * cs.length ≤ n → value n (cs ++ rest) = (t.doc, rest)

-- As a text is not empty, there always is a first step.
theorem Reads.of_step (spelled : t.Spelled cs)
    (h : ∀ n rest, EndsNumber rest → 2 * cs.length ≤ n + 1 →
      value (n + 1) (cs ++ rest) = (t.doc, rest)) : Reads t cs := by
  intro n rest hr hn
  cases n
  case zero =>
    have ⟨c, cs, hc, _⟩ := spelled.exists_first
    simp [hc] at hn
  case succ n => exact h n rest hr hn

-- The blanks in front of a term are skipped with it, and those behind it with what comes next.
def ReadsPadded (t : Term) (cs : List Char) : Prop :=
  ∃ b, IsBlank b ∧ ∀ n rest, EndsNumber rest → 2 * cs.length ≤ n →
    value n (cs ++ rest) = (t.doc, b ++ rest)

theorem Reads.padded (h : Reads t cs) (hb : IsBlank b) (hb' : IsBlank b') :
    ReadsPadded t (b ++ cs ++ b') := by
  refine ⟨b', hb', fun n rest hr hn => ?_⟩
  simp only [List.length_append] at hn
  rw [List.append_assoc, List.append_assoc, value_append hb]
  exact h n _ (endsNumber_append hb' hr) (by omega)

theorem head?_padded (h : Padded t cs) (rest : List Char) :
    (skipBlanks (cs ++ rest)).head? ≠ some ']' := by
  obtain ⟨hb, spelled, _⟩ := h
  have ⟨c, cs, hc, blank, bracket⟩ := spelled.exists_first
  rw [hc, List.append_assoc, List.append_assoc, List.cons_append,
    skipBlanks_append_cons hb c blank]
  simpa using bracket

theorem head?_items (h : SpelledItems ts cs) (rest : List Char) :
    (skipBlanks (cs ++ rest)).head? ≠ some ']' := by
  cases h
  case last h   => exact head?_padded h rest
  case next h _ => rw [List.append_assoc]; exact head?_padded h _

theorem head?_member (h : SpelledMember k t cs) (rest : List Char) :
    (skipBlanks (cs ++ rest)).head? ≠ some '\x7d' := by
  obtain ⟨hb, ⟨_⟩, _, _⟩ := h
  simp [List.append_assoc, skipBlanks_append_cons hb '"' rfl]

theorem head?_members (h : SpelledMembers ms cs) (rest : List Char) :
    (skipBlanks (cs ++ rest)).head? ≠ some '\x7d' := by
  cases h
  case last h   => exact head?_member h rest
  case next h _ => rw [List.append_assoc]; exact head?_member h _

theorem value_string (h : SpelledString s cs) (n : Nat) (rest : List Char) :
    value (n + 1) (cs ++ rest) = (.string s, rest) := by
  cases h
  case intro us h =>
    have hs := string_spelled h rest
    simp [value, skipBlanks, isBlankChar, hs]

-- The items of an array are read up to its closing bracket.
def ItemsRead (ts : List Term) (cs : List Char) : Prop :=
  ∀ n rest, 2 * cs.length < n → items n (cs ++ ']' :: rest) = (Term.itemsDoc ts, rest)

def MembersRead (ms : List (String × Term)) (cs : List Char) : Prop :=
  ∀ n rest, 2 * cs.length < n → members n (cs ++ '\x7d' :: rest) = (Term.membersDoc ms, rest)

theorem reads_array (h : SpelledItems ts cs) (hi : ItemsRead ts cs) :
    Reads (.array ts) ('[' :: cs ++ [']']) := by
  refine .of_step (.array h) fun n rest _ hn => ?_
  simp only [List.length_cons, List.length_append] at hn
  simp only [List.cons_append, List.append_assoc, List.nil_append]
  rw [value_items (head?_items h _), hi n rest (by omega)]
  rfl

theorem reads_object (h : SpelledMembers ms cs) (hm : MembersRead ms cs) :
    Reads (.object ms) ('\x7b' :: cs ++ ['\x7d']) := by
  refine .of_step (.object h) fun n rest _ hn => ?_
  simp only [List.length_cons, List.length_append] at hn
  simp only [List.cons_append, List.append_assoc, List.nil_append]
  rw [value_members (head?_members h _), hm n rest (by omega)]
  rfl

theorem itemsRead_last (h : ReadsPadded t cs) : ItemsRead [t] cs := by
  intro n rest hn
  have ⟨b, hb, read⟩ := h
  cases n
  case zero   => contradiction
  case succ n => exact items_end (read n _ (endsNumber_cons rfl _) (by omega)) hb

theorem itemsRead_next (h : ReadsPadded t cs) (more : ItemsRead ts cs') :
    ItemsRead (t :: ts) (cs ++ ',' :: cs') := by
  intro n rest hn
  have ⟨b, hb, read⟩ := h
  simp only [List.length_cons, List.length_append] at hn
  cases n
  case zero => contradiction
  case succ n =>
    rw [List.append_assoc, List.cons_append,
      items_next (read n _ (endsNumber_cons rfl _) (by omega)) hb, more n rest (by omega)]
    rfl

-- A member is read up to the blanks behind it, and what comes next decides whether it is the last.
def MemberRead (k : String) (t : Term) (cs : List Char) : Prop :=
  ∃ b ks b' us, cs = b ++ ks ++ b' ++ ':' :: us ∧
    IsBlank b ∧ SpelledString k ks ∧ IsBlank b' ∧ ReadsPadded t us

theorem membersRead_last (h : MemberRead k t cs) : MembersRead [(k, t)] cs := by
  intro n rest hn
  obtain ⟨b, ks, b', us, rfl, hb, hk, hb', b₀, hb₀, read⟩ := h
  simp only [List.length_cons, List.length_append] at hn
  cases n
  case zero => contradiction
  case succ n =>
    rw [List.append_assoc, List.cons_append,
      members_end (read n _ (endsNumber_cons rfl _) (by omega)) hb₀ hb hk hb']
    rfl

theorem membersRead_next (h : MemberRead k t cs) (more : MembersRead ms cs') :
    MembersRead ((k, t) :: ms) (cs ++ ',' :: cs') := by
  intro n rest hn
  obtain ⟨b, ks, b', us, rfl, hb, hk, hb', b₀, hb₀, read⟩ := h
  simp only [List.length_cons, List.length_append] at hn
  cases n
  case zero => contradiction
  case succ n =>
    rw [List.append_assoc, List.append_assoc, List.cons_append, List.cons_append,
      members_next (read n _ (endsNumber_cons rfl _) (by omega)) hb₀ hb hk hb',
      more n rest (by omega)]
    rfl

theorem reads_emptyArray (hb : IsBlank b) : Reads (.array []) ('[' :: b ++ [']']) := by
  refine .of_step (.emptyArray hb) fun n rest _ _ => ?_
  have hs : skipBlanks ('[' :: b ++ [']'] ++ rest) = '[' :: (b ++ ']' :: rest) := by
    rw [List.cons_append, List.cons_append, List.append_assoc]
    rfl
  simp only [value, hs, skipBlanks_append_cons hb ']' rfl]
  rfl

theorem reads_emptyObject (hb : IsBlank b) :
    Reads (.object []) ('\x7b' :: b ++ ['\x7d']) := by
  refine .of_step (.emptyObject hb) fun n rest _ _ => ?_
  have hs : skipBlanks ('\x7b' :: b ++ ['\x7d'] ++ rest) = '\x7b' :: (b ++ '\x7d' :: rest) := by
    rw [List.cons_append, List.cons_append, List.append_assoc]
    rfl
  simp only [value, hs, skipBlanks_append_cons hb '\x7d' rfl]
  rfl

mutual

theorem value_spelled {t : Term} {cs : List Char} : t.Spelled cs → Reads t cs
  | .null           => .of_step .null fun _ _ _ _ => rfl
  | .bool b         => .of_step (.bool b) fun _ _ _ _ => by cases b <;> rfl
  | .number h       => .of_step (.number h) fun n _ hr _ => value_literal h hr n
  | .string h       => .of_step (.string h) fun n rest _ _ => value_string h n rest
  | .emptyArray hb  => reads_emptyArray hb
  | .emptyObject hb => reads_emptyObject hb
  | .array h        => reads_array h <| items_spelled h
  | .object h       => reads_object h <| members_spelled h

theorem value_padded {t : Term} {cs : List Char} : Padded t cs → ReadsPadded t cs
  | .intro hb h hb' => value_spelled h |>.padded hb hb'

theorem items_spelled {ts : List Term} {cs : List Char} : SpelledItems ts cs → ItemsRead ts cs
  | .last h      => itemsRead_last <| value_padded h
  | .next h more => itemsRead_next (value_padded h) <| items_spelled more

theorem member_spelled {k : String} {t : Term} {cs : List Char} :
    SpelledMember k t cs → MemberRead k t cs
  | .intro hb hk hb' h => ⟨_, _, _, _, rfl, hb, hk, hb', value_padded h⟩

theorem members_spelled {ms : List (String × Term)} {cs : List Char} :
    SpelledMembers ms cs → MembersRead ms cs
  | .last h      => membersRead_last <| member_spelled h
  | .next h more => membersRead_next (member_spelled h) <| members_spelled more

end

end Reader

theorem Doc.ofText_written {t : Term} (h : t.Written s) : ofText s = (t.doc, true) := by
  have ⟨b, hb, read⟩ := Reader.value_padded h
  have hs := read (2 * s.toList.length + 2) [] Reader.endsNumber_nil (by omega)
  rw [List.append_nil, List.append_nil] at hs
  have blank : Reader.skipBlanks b = [] := by
    have := Reader.skipBlanks_append hb []
    rwa [List.append_nil] at this
  simp only [ofText, hs, blank, List.isEmpty_nil]

end TableProfiling.Json
