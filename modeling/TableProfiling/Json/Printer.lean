import TableProfiling.Json.Value
import TableProfiling.Number.Integer
import TableProfiling.Number.Layout

namespace TableProfiling.Json

-- Doubles are written without an exponent from `0.00001` up to sixteen digits before the point;
-- beyond that the exponent has a sign.
def layout : Layout where
  least := -5
  most := 15
  plus := true
  tie := .even

def Number.chars : Number → List Char
  | .integer n _ => integerChars n
  | .double x _ => layout.chars x

-- One character of a string: only quotes, backslashes and control characters are escaped.
def escapedChar (c : Char) : List Char :=
  match c with
  | '"' => ['\\', '"']
  | '\\' => ['\\', '\\']
  | '\x08' => ['\\', 'b']
  | '\t' => ['\\', 't']
  | '\n' => ['\\', 'n']
  | '\x0c' => ['\\', 'f']
  | '\r' => ['\\', 'r']
  | c =>
    if c.toNat < 32 then
      ['\\', 'u', '0', '0', Nat.digitChar (c.toNat / 16), Nat.digitChar (c.toNat % 16)]
    else
      [c]

def stringChars (s : String) : List Char :=
  '"' :: s.toList.flatMap escapedChar ++ ['"']

mutual

def Value.chars : Value → List Char
  | .null => ['n', 'u', 'l', 'l']
  | .bool true => ['t', 'r', 'u', 'e']
  | .bool false => ['f', 'a', 'l', 's', 'e']
  | .number n => n.chars
  | .string s => stringChars s
  | .array vs => '[' :: itemsChars vs ++ [']']
  | .object ms => '\x7b' :: membersChars ms ++ ['\x7d']

def itemsChars : List Value → List Char
  | [] => []
  | [v] => v.chars
  | v :: vs => v.chars ++ ',' :: itemsChars vs

def membersChars : List (String × Value) → List Char
  | [] => []
  | [(k, v)] => stringChars k ++ ':' :: v.chars
  | (k, v) :: ms => stringChars k ++ ':' :: v.chars ++ ',' :: membersChars ms

end

def Value.text (v : Value) : String :=
  .ofList v.chars

end TableProfiling.Json
