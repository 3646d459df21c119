import TableProfiling.Json.Document

namespace TableProfiling.Json.Reader

def isBlankChar (c : Char) : Bool :=
  c = ' ' || c = '\n' || c = '\t' || c = '\r'

def skipBlanks (cs : List Char) : List Char :=
  cs.dropWhile isBlankChar

-- The rest of `null`, `true` or `false`, after its first letter.
def word (d : Doc) : List Char → List Char → Doc × List Char
  | [], cs => (d, cs)
  | _ :: _, [] => (.broken .inWord, [])
  | w :: ws, c :: cs => if c = w then word d ws cs else (.broken .malformed, [])

-- A number as it is written.
structure Literal where
  negative : Bool
  whole : List Char
  fraction : Option (List Char)
  exponent : Option (Bool × List Char)
  deriving DecidableEq

namespace Literal

def decimal (l : Literal) : Decimal where
  coefficient := Nat.ofDigitChars 10 (l.whole ++ l.fraction.getD []) 0
  exponent :=
    let e : Int := match l.exponent with
      | none => 0
      | some (negative, ds) =>
        let n := Nat.ofDigitChars 10 ds 0
        if negative then -n else n
    e - (l.fraction.getD []).length

-- A number without fraction and exponent is an integer if it fits; minus zero does not.
def integer? (l : Literal) : Option Number :=
  if l.fraction = none ∧ l.exponent = none then
    let n := Nat.ofDigitChars 10 l.whole 0
    if l.negative then
      if h : 0 < n ∧ n ≤ 0x8000000000000000 then some (.integer (-n) (by omega)) else none
    else
      if h : n < 0x10000000000000000 then some (.integer n (by omega)) else none
  else
    none

def double? (l : Literal) : Option Number :=
  match l.decimal.toBinary64? l.negative with
  | some x => if h : x.isFinite then some (.double x h) else none
  | none => none

def doc (l : Literal) : Doc :=
  match l.integer? <|> l.double? with
  | some n => .number n
  | none => .unreadable

end Literal

-- Digits, of which there must be at least one.
def digits (cs : List Char) : Except Breakage (List Char × List Char) :=
  match cs.takeWhile Char.isDigit, cs.dropWhile Char.isDigit with
  | [], [] => .error .inNumber
  | [], _ :: _ => .error .malformed
  | ds, rest => .ok (ds, rest)

-- Digits with no needless zero in front.
def whole (cs : List Char) : Except Breakage (List Char × List Char) := do
  let (ds, rest) ← digits cs
  if ds.length ≠ 1 ∧ ds.head? = some '0' then .error .malformed else return (ds, rest)

def fraction : List Char → Except Breakage (Option (List Char) × List Char)
  | '.' :: cs => do
    let (ds, rest) ← digits cs
    return (some ds, rest)
  | cs => .ok (none, cs)

def exponent (cs : List Char) : Except Breakage (Option (Bool × List Char) × List Char) :=
  match cs with
  | c :: cs' =>
    if c = 'e' ∨ c = 'E' then do
      let (negative, cs) := match cs' with
        | '-' :: cs => (true, cs)
        | '+' :: cs => (false, cs)
        | cs => (false, cs)
      let (ds, rest) ← digits cs
      return (some (negative, ds), rest)
    else
      .ok (none, cs)
  | [] => .ok (none, [])

-- A number after its sign.
def literal (negative : Bool) (cs : List Char) : Except Breakage (Literal × List Char) := do
  let (w, cs) ← whole cs
  let (f, cs) ← fraction cs
  let (e, cs) ← exponent cs
  return (⟨negative, w, f, e⟩, cs)

def number (negative : Bool) (cs : List Char) : Doc × List Char :=
  match literal negative cs with
  | .ok (l, rest) => (l.doc, rest)
  | .error b => (.broken b, [])

def hexDigit? (c : Char) : Option Nat :=
  if c.isDigit then some (c.toNat - '0'.toNat)
  else if 'a' ≤ c ∧ c ≤ 'f' then some (c.toNat - 'a'.toNat + 10)
  else if 'A' ≤ c ∧ c ≤ 'F' then some (c.toNat - 'A'.toNat + 10)
  else none

def hex4? (a b c d : Char) : Option Nat := do
  return ((← hexDigit? a) * 16 + (← hexDigit? b)) * 256 + (← hexDigit? c) * 16 + (← hexDigit? d)

-- The character after a backslash stands for this one.
def unescape? : Char → Option Char
  | '"' => some '"'
  | '\\' => some '\\'
  | '/' => some '/'
  | 'b' => some '\x08'
  | 'f' => some '\x0c'
  | 'n' => some '\n'
  | 'r' => some '\r'
  | 't' => some '\t'
  | _ => none

-- What has been read of a string: its characters, the last one first, unless a surrogate was
-- without partner, and a leading surrogate that still waits for its partner.
structure Gathered where
  chars : Option (List Char)
  leading : Option Nat

namespace Gathered

def start : Gathered := ⟨some [], none⟩

-- Adds a character; a surrogate that waits for its partner will not get it.
def push (p : Gathered) (c : Char) : Gathered :=
  match p.leading with
  | none => ⟨p.chars.map (c :: ·), none⟩
  | some _ => ⟨none, none⟩

-- Adds a unit of two bytes, which is a character or one half of a surrogate pair.
def pushUnit (p : Gathered) (n : Nat) : Gathered :=
  match p.leading with
  | some m =>
    if 0xDC00 ≤ n ∧ n < 0xE000 then
      ⟨p.chars.map (Char.ofNat (0x10000 + (m - 0xD800) * 0x400 + (n - 0xDC00)) :: ·), none⟩
    else
      ⟨none, none⟩
  | none =>
    if 0xD800 ≤ n ∧ n < 0xDC00 then ⟨p.chars, some n⟩
    else if 0xDC00 ≤ n ∧ n < 0xE000 then ⟨none, none⟩
    else ⟨p.chars.map (Char.ofNat n :: ·), none⟩

-- The string, if the surrogates in it are paired.
def finish? (p : Gathered) : Option String :=
  match p.leading with
  | none => p.chars.map fun cs => .ofList cs.reverse
  | some _ => none

def breakage (p : Gathered) : Breakage :=
  .inString p.chars.isSome

end Gathered

-- A string after its opening quote. A number of a character takes four bytes, whatever they are.
def string (p : Gathered) : List Char → Except Breakage (Option String × List Char)
  | [] => .error p.breakage
  | '"' :: cs => .ok (p.finish?, cs)
  | '\\' :: cs =>
    match cs with
    | [] => .error p.breakage
    | 'u' :: cs =>
      match cs with
      | a :: b :: c :: d :: cs =>
        match hex4? a b c d with
        | some n => string (p.pushUnit n) cs
        | none => .error .malformed
      | cs => .error (if cs.foldr (·.utf8Size + ·) 0 < 4 then p.breakage else .malformed)
    | c :: cs =>
      match unescape? c with
      | some c => string (p.push c) cs
      | none => .error .malformed
  | c :: cs => if c.toNat < 32 then .error .malformed else string (p.push c) cs

mutual

-- A value. Every two steps take at least one character, which bounds the number of steps.
def value : Nat → List Char → Doc × List Char
  | 0, _ => (.broken .malformed, [])
  | n + 1, cs =>
    match skipBlanks cs with
    | [] => (.broken .ended, [])
    | 'n' :: cs => word .null ['u', 'l', 'l'] cs
    | 't' :: cs => word (.bool true) ['r', 'u', 'e'] cs
    | 'f' :: cs => word (.bool false) ['a', 'l', 's', 'e'] cs
    | '-' :: cs => number true cs
    | '"' :: cs =>
      match string .start cs with
      | .ok (some s, rest) => (.string s, rest)
      | .ok (none, rest) => (.unreadable, rest)
      | .error b => (.broken b, [])
    | '[' :: cs =>
      match skipBlanks cs with
      | ']' :: cs => (.array .done, cs)
      | cs =>
        let (is, rest) := items n cs
        (.array is, rest)
    | '\x7b' :: cs =>
      match skipBlanks cs with
      | '\x7d' :: cs => (.object .done, cs)
      | cs =>
        let (ms, rest) := members n cs
        (.object ms, rest)
    | c :: cs => if c.isDigit then number false (c :: cs) else (.broken .malformed, [])

-- The items of an array from one of them on.
def items : Nat → List Char → Items × List Char
  | 0, _ => (.broken .malformed, [])
  | n + 1, cs =>
    let (d, cs) := value n cs
    match skipBlanks cs with
    | [] => (.more d (.broken .ended), [])
    | ']' :: cs => (.more d .done, cs)
    | ',' :: cs =>
      let (is, rest) := items n cs
      (.more d is, rest)
    | _ => (.more d (.broken .malformed), [])

-- The members of an object from one of them on.
def members : Nat → List Char → Members × List Char
  | 0, _ => (.broken .malformed, [])
  | n + 1, cs =>
    match skipBlanks cs with
    | [] => (.broken .ended, [])
    | '"' :: cs =>
      match string .start cs with
      | .error b => (.broken b, [])
      | .ok (key, cs) =>
        match skipBlanks cs with
        | [] => (.more key (.broken .ended) .done, [])
        | ':' :: cs =>
          let (d, cs) := value n cs
          match skipBlanks cs with
          | [] => (.more key d (.broken .ended), [])
          | '\x7d' :: cs => (.more key d .done, cs)
          | ',' :: cs =>
            let (ms, rest) := members n cs
            (.more key d ms, rest)
          | _ => (.more key d (.broken .malformed), [])
        | _ => (.more key (.broken .malformed) .done, [])
    | cs => (.stray (value n cs).1, [])

end

end Reader

-- The document of a text, and whether nothing but blanks follows it.
def Doc.ofText (s : String) : Doc × Bool :=
  let cs := s.toList
  let (d, rest) := Reader.value (2 * cs.length + 2) cs
  (d, (Reader.skipBlanks rest).isEmpty)

end TableProfiling.Json
