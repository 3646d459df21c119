import TableProfiling.Text.Unprintable

namespace TableProfiling

-- The code point of a character, in hexadecimal between braces.
def escapeByNumber (c : Char) : List Char :=
  '\\' :: 'u' :: '\x7b' :: Nat.toDigits 16 c.toNat ++ ['\x7d']

-- Which characters are escaped beside those that always are.
structure Escaping where
  apostrophe : Bool
  extending : Bool

-- One character of an escaped text.
def Escaping.char (e : Escaping) (c : Char) : List Char :=
  match c with
  | '\x00' => ['\\', '0']
  | '\t' => ['\\', 't']
  | '\r' => ['\\', 'r']
  | '\n' => ['\\', 'n']
  | '\\' => ['\\', '\\']
  | '"' => ['\\', '"']
  | '\'' => if e.apostrophe then ['\\', '\''] else ['\'']
  | c =>
    if (e.extending && Charset.extending.contains c) || Charset.unprintable.contains c then
      escapeByNumber c
    else
      [c]

-- A name inside a sentence. A character that extends the one before it is shown as it is, unless it
-- comes first, where nothing of the name is before it.
def escaped (s : String) : String :=
  match s.toList with
  | [] => ""
  | c :: cs => .ofList (Escaping.char ⟨true, true⟩ c ++ cs.flatMap (Escaping.char ⟨true, false⟩))

-- A text between double quotes.
def quoted (s : String) : String :=
  .ofList ('"' :: s.toList.flatMap (Escaping.char ⟨false, true⟩) ++ ['"'])

-- A list of texts between brackets.
def quotedList (ss : List String) : String :=
  "[" ++ ", ".intercalate (ss.map quoted) ++ "]"

end TableProfiling
