import TableProfiling.Json.Reader

namespace TableProfiling.Json

abbrev Decoder (α : Type) := Origin → Doc → Except Fault α

-- How a type is read from a document, and the value that it is written as.
structure Codec (α : Type) where
  decode : Decoder α
  encode : α → Value

-- The items of an array, each read in turn.
def Items.mapM (f : Doc → Except Fault α) : Items → Except Fault (List α)
  | .done => .ok []
  | .broken b => .error b.onRead
  | .more d rest => do
    let x ← f d
    return x :: (← rest.mapM f)

namespace Codec

def value : Codec Value where
  decode o d := d.value o
  encode v := v

def bool : Codec Bool where
  decode
    | _, .bool b => .ok b
    | _, d => .error (d.mismatch .bool)
  encode := .bool

-- Strings; `expected` names them in messages.
def stringLike (expected : Expected) : Codec String where
  decode
    | _, .string s => .ok s
    | _, d => .error (d.mismatch expected)
  encode := .string

def string : Codec String :=
  stringLike .string

def uint32 : Codec UInt32 where
  decode
    | _, .number n@(.integer i _) =>
      if 0 ≤ i ∧ i < 0x100000000 then .ok (.ofNat i.toNat)
      else .error (.shape (.wrongValue (.number n) .uint32))
    | _, d => .error (d.mismatch .uint32)
  encode := .ofUInt32

def int64 : Codec Int64 where
  decode
    | _, .number n@(.integer i _) =>
      if i < 0x8000000000000000 then .ok (.ofInt i)
      else .error (.shape (.wrongValue (.number n) .int64))
    | _, d => .error (d.mismatch .int64)
  encode := .ofInt64

-- A value that may be absent, which `null` stands for.
def option (c : Codec α) : Codec (Option α) where
  decode
    | _, .null => .ok none
    | o, d => some <$> c.decode o d
  encode
    | none => .null
    | some x => c.encode x

def list (c : Codec α) : Codec (List α) where
  decode
    | o, .array is => do is.mapM (c.decode (← o.enter))
    | _, d => .error (d.mismatch .sequence)
  encode xs := .array (xs.map c.encode)

-- The names of the values of a type: the one that is written, and others that are read too.
structure Names (α : Type) where
  all : List (α × List String)
  name : α → String

namespace Names

def known (ns : Names α) : List String :=
  ns.all.flatMap (·.2)

def find (ns : Names α) (s : String) : Except Fault α :=
  match ns.all.find? (·.2.contains s) with
  | some (x, _) => .ok x
  | none => .error (.shape (.unknownVariant s ns.known))

end Names

-- A document in the place of a name. A text may not even begin with something else.
def notAName : Decoder α
  | _, .broken b => .error b.onName
  | .text _, _ => .error .malformed
  | .value, d => .error (d.mismatch .stringOrMap)

-- A key in the place of a name, before anything is known about the member's value.
def nameKey (ns : Names α) : Option String → Except Fault α
  | some k => ns.find k
  | none => .error .malformed

-- A name is a string, or an object whose only key is the name and whose value is `null`. In a text,
-- the key is looked up before the rest of the object is read.
def names (ns : Names α) : Codec α where
  decode
    | _, .string s => ns.find s
    | .text n, .object ms => do
      let _ ← Origin.enter (.text n)
      match ms with
      | .more key d rest =>
        let x ← nameKey ns key
        match d, rest with
        | .null, .done => return x
        | .null, .broken b => .error b.onRead
        | .null, _ => .error .malformed
        | d, _ => .error (d.mismatch .unit)
      | .done => .error .malformed
      | .broken b => .error b.onRead
      | .stray d => .error (d.mismatch .variant)
    | .value, .object ms =>
      match ms with
      | .more key d .done => do
        let x ← nameKey ns key
        match d with
        | .null => return x
        | d => .error (d.mismatch .unit)
      | _ => .error (.shape (.wrongValue .map .singleKey))
    | o, d => notAName o d
  encode x := .string (ns.name x)

-- Reads a whole text, after which only blanks may follow.
def ofText (c : Codec α) (s : String) : Except Fault α := do
  let (d, clean) := Doc.ofText s
  let x ← c.decode (.text 127) d
  if clean then return x else .error .malformed

def ofValue (c : Codec α) (v : Value) : Except Fault α :=
  c.decode .value v.doc

def text (c : Codec α) (x : α) : String :=
  (c.encode x).text

end TableProfiling.Json.Codec
