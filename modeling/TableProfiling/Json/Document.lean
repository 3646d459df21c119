import TableProfiling.Json.Fault

namespace TableProfiling.Json

-- How the text of a document breaks.
inductive Breakage
  -- The text ends where a value or a punctuation mark is due.
  | ended
  | malformed
  -- The text ends inside of `null`, `true` or `false`.
  | inWord
  | inNumber
  -- The text ends inside of a string, all surrogates of which have had their partners or not.
  | inString (paired : Bool)
  deriving DecidableEq

namespace Breakage

-- The problem that a reader of the value meets.
def onRead : Breakage → Fault
  | .ended | .inWord | .inNumber | .inString true => .ended
  | .malformed | .inString false => .malformed

-- The problem where the value is only skipped: digits are then wanted more strictly.
def onSkip : Breakage → Fault
  | .ended | .inWord | .inString _ => .ended
  | .malformed | .inNumber => .malformed

-- The problem where a name is due, so that neither a word nor a number may begin.
def onName : Breakage → Fault
  | .ended | .inString true => .ended
  | .malformed | .inWord | .inNumber | .inString false => .malformed

end Breakage

mutual

-- What a text says, in the order of the text and up to the place where it breaks. A reader walks
-- through a document in this order, so that of several problems it meets the first one.
inductive Doc
  | null
  | bool (b : Bool)
  | number (n : Number)
  | string (s : String)
  -- A number out of range or a string with an unpaired surrogate: it has no value, but can be
  -- skipped.
  | unreadable
  | broken (b : Breakage)
  | array (items : Items)
  | object (members : Members)

inductive Items
  | done
  | broken (b : Breakage)
  | more (d : Doc) (rest : Items)

-- The members of an object. A key is absent if it is a string with an unpaired surrogate.
inductive Members
  | done
  | broken (b : Breakage)
  -- Something other than a string stands in the place of a key.
  | stray (d : Doc)
  | more (key : Option String) (d : Doc) (rest : Members)

end

mutual

-- Goes over a value that nobody asks for: only the breakage of its text counts.
def Doc.skip : Doc → Except Fault Unit
  | .null | .bool _ | .number _ | .string _ | .unreadable => .ok ()
  | .broken b => .error b.onSkip
  | .array is => is.skip
  | .object ms => ms.skip

def Items.skip : Items → Except Fault Unit
  | .done => .ok ()
  | .broken b => .error b.onSkip
  | .more d rest => do d.skip; rest.skip

def Members.skip : Members → Except Fault Unit
  | .done => .ok ()
  | .broken b => .error b.onSkip
  | .stray _ => .error .malformed
  | .more _ d rest => do d.skip; rest.skip

end

-- Where a document comes from. The levels of a text are the arrays and objects that may still be
-- entered; a value has no such limit, as it was read from a text before.
inductive Origin
  | text (levels : Nat)
  | value

-- The origin of what is inside of an array or object.
def Origin.enter : Origin → Except Fault Origin
  | .text 0 => .error .malformed
  | .text (n + 1) => .ok (.text n)
  | .value => .ok .value

mutual

-- Reads any value. Of members with the same key, the last one counts.
def Doc.value (o : Origin) : Doc → Except Fault Value
  | .null => .ok .null
  | .bool b => .ok (.bool b)
  | .number n => .ok (.number n)
  | .string s => .ok (.string s)
  | .unreadable => .error .malformed
  | .broken b => .error b.onRead
  | .array is => do return .array (← is.values (← o.enter))
  | .object ms => do return .object (← ms.values (← o.enter) [])

def Items.values (o : Origin) : Items → Except Fault (List Value)
  | .done => .ok []
  | .broken b => .error b.onRead
  | .more d rest => do
    let v ← d.value o
    return v :: (← rest.values o)

def Members.values (o : Origin) (before : List (String × Value)) :
    Members → Except Fault (List (String × Value))
  | .done => .ok before
  | .broken b => .error b.onRead
  | .stray _ => .error .malformed
  | .more none _ _ => .error .malformed
  | .more (some k) d rest => do
    let v ← d.value o
    rest.values o (putSorted k v before)

end

mutual

-- The document that says just what a value is.
def Value.doc : Value → Doc
  | .null => .null
  | .bool b => .bool b
  | .number n => .number n
  | .string s => .string s
  | .array vs => .array (itemsDoc vs)
  | .object ms => .object (membersDoc ms)

def itemsDoc : List Value → Items
  | [] => .done
  | v :: vs => .more v.doc (itemsDoc vs)

def membersDoc : List (String × Value) → Members
  | [] => .done
  | (k, v) :: ms => .more (some k) v.doc (membersDoc ms)

end

-- What stands in a document, as far as a message about its type tells.
def Doc.found : Doc → Except Fault Found
  | .null => .ok .null
  | .bool b => .ok (.bool b)
  | .number n => .ok (.number n)
  | .string s => .ok (.string s)
  | .unreadable => .error .malformed
  | .broken b => .error b.onRead
  | .array _ => .ok .sequence
  | .object _ => .ok .map

-- The fault of a document that is not of the expected type.
def Doc.mismatch (d : Doc) (e : Expected) : Fault :=
  match d.found with
  | .ok f => .shape (.wrongType f e)
  | .error f => f

end TableProfiling.Json
