import TableProfiling.Json.Codec

namespace TableProfiling.Json

structure Field (α : Type) where
  key : String
  decode : Decoder α
  -- The value of a field that is not given, unless it must be.
  absent : Option α
  -- A field may be left out where it is written.
  encode : α → Option Value

namespace Field

def required (key : String) (c : Codec α) : Field α :=
  ⟨key, c.decode, none, fun x => some (c.encode x)⟩

def defaulted (key : String) (c : Codec α) (x : α) : Field α :=
  ⟨key, c.decode, some x, fun x => some (c.encode x)⟩

-- A field that is left out where it is absent.
def optional (key : String) (c : Codec α) : Field (Option α) :=
  ⟨key, c.option.decode, some none, fun x => x.map c.encode⟩

end Field

-- The fields of a record, in the order in which they are written.
inductive Fields : List Type → Type 1
  | nil : Fields []
  | cons (f : Field α) (fs : Fields αs) : Fields (α :: αs)

-- One value for each field.
@[reducible]
def Row : List Type → Type
  | [] => Unit
  | α :: αs => α × Row αs

-- The fields that have been read so far.
@[reducible]
def Slots : List Type → Type
  | [] => Unit
  | α :: αs => Option α × Slots αs

namespace Fields

def size : Fields αs → Nat
  | .nil => 0
  | .cons _ fs => fs.size + 1

def slots : Fields αs → Slots αs
  | .nil => ()
  | .cons _ fs => (none, fs.slots)

-- Reads the value of a member into its slot, if its key is known.
def put (o : Origin) (key : String) (d : Doc) :
    (fs : Fields αs) → Slots αs → Option (Except Fault (Slots αs))
  | .nil, () => none
  | .cons f fs, (slot, slots) =>
    if f.key = key then
      match slot with
      | some _ => some (.error (.shape (.duplicateField key)))
      | none => some ((f.decode o d).map fun x => (some x, slots))
    else
      (put o key d fs slots).map fun r => r.map fun slots => (slot, slots)

def members (o : Origin) (fs : Fields αs) (slots : Slots αs) : Members → Except Fault (Slots αs)
  | .done => .ok slots
  | .broken b => .error b.onRead
  | .stray _ => .error .malformed
  | .more none _ _ => .error .malformed
  | .more (some key) d rest => do
    match fs.put o key d slots with
    | some r => fs.members o (← r) rest
    | none => d.skip; fs.members o slots rest

-- The values of all fields; the first field that must be given and is not, is missing.
def row : (fs : Fields αs) → Slots αs → Except Fault (Row αs)
  | .nil, () => .ok ()
  | .cons f fs, (slot, slots) =>
    match slot <|> f.absent with
    | some x => do return (x, ← fs.row slots)
    | none => .error (.shape (.missingField f.key))

-- The fields from an array, and the items that are left over.
def items (o : Origin) (tooShort : Nat → Fault) :
    (fs : Fields αs) → (index : Nat) → Items → Except Fault (Row αs × Items)
  | .nil, _, is => .ok ((), is)
  | .cons _ _, _, .broken b => .error b.onRead
  | .cons f fs, i, .done =>
    match f.absent with
    | some x => do
      let (xs, is) ← fs.items o tooShort (i + 1) .done
      return ((x, xs), is)
    | none => .error (tooShort i)
  | .cons f fs, i, .more d rest => do
    let x ← f.decode o d
    let (xs, is) ← fs.items o tooShort (i + 1) rest
    return ((x, xs), is)

def encode : (fs : Fields αs) → Row αs → List (String × Value)
  | .nil, () => []
  | .cons f fs, (x, xs) =>
    match f.encode x with
    | some v => (f.key, v) :: fs.encode xs
    | none => fs.encode xs

end Fields

def Items.length : Items → Nat
  | .more _ rest => rest.length + 1
  | _ => 0

-- Nothing may be left of an array after its last field.
def Items.finish (o : Origin) (length : Nat) : Items → Except Fault Unit
  | .done => .ok ()
  | .broken b => .error b.onRead
  | .more _ _ =>
    match o with
    | .text _ => .error .malformed
    | .value => .error (.shape (.tooLong length))

-- The codec of a record type with the given fields.
def Codec.record (name : String) (fs : Fields αs) (make : Row αs → ρ) (row : ρ → Row αs) :
    Codec ρ where
  decode
    | o, .object ms => do
      let slots ← fs.members (← o.enter) fs.slots ms
      return make (← fs.row slots)
    | o, .array is => do
      let tooShort i := .shape (.tooShort i name fs.size)
      let (xs, rest) ← fs.items (← o.enter) tooShort 0 is
      rest.finish o is.length
      return make xs
    | _, d => .error (d.mismatch (.record name))
  encode x := .object (fs.encode (row x))

end TableProfiling.Json
