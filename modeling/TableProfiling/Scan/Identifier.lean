import TableProfiling.Failure

namespace TableProfiling.Scan

def isWordStart (c : Char) : Bool :=
  c.isAlpha || c = '_'

def isWordPart (c : Char) : Bool :=
  c.isAlphanum || c = '_'

mutual

-- One or more words with dots between them.
def isIdentifier : List Char → Bool
  | [] => false
  | c :: cs => isWordStart c && endsIdentifier cs

-- The rest of an identifier, from inside of a word on.
def endsIdentifier : List Char → Bool
  | [] => true
  | c :: cs => if c = '.' then isIdentifier cs else isWordPart c && endsIdentifier cs

end

-- The greatest number of bytes that an identifier takes.
def maxIdentifierSize : Nat := 300

def quoteIdentifier (name : String) : Except IdentifierFault String :=
  if maxIdentifierSize < name.utf8ByteSize then .error .tooLong
  else if isIdentifier name.toList then .ok ("`" ++ name ++ "`")
  else .error (.malformed name)

end TableProfiling.Scan
