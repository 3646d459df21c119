import TableProfiling.Storage.Store

namespace TableProfiling.Storage

-- What can be done with a channel whose states are of type `σ`.
structure Writer (σ : Type) where
  write : String → σ → Except StorageFault Unit × σ
  flush : σ → Except StorageFault Unit × σ
  -- What happens when nobody uses the channel any more.
  release : σ → σ

-- An open file in a store, and the bytes that it has not got yet.
structure Channel where
  store : Store
  location : Location
  offset : Nat
  pending : ByteArray

namespace Channel

def capacity : Nat := 8192

-- The channel of a file that has just been opened.
def ofFile (s : Store) (l : Location) : Channel :=
  { store := s, location := l, offset := 0, pending := .empty }

-- Writes bytes into the file itself.
def writeThrough (bytes : ByteArray) (c : Channel) : Except StorageFault Unit × Channel :=
  match c.store.writeAt c.location c.offset bytes with
  | .ok store => (.ok (), { c with store, offset := c.offset + bytes.size })
  | .error fault => (.error fault, c)

-- Writes the pending bytes into the file. If that fails they stay pending.
def flush (c : Channel) : Except StorageFault Unit × Channel :=
  match c.writeThrough c.pending with
  | (.ok (), c) => (.ok (), { c with pending := .empty })
  | (.error fault, c) => (.error fault, c)

-- Bytes that leave no room for the pending ones are not gathered.
def gather (bytes : ByteArray) (c : Channel) : Except StorageFault Unit × Channel :=
  if bytes.size < capacity then (.ok (), { c with pending := c.pending ++ bytes })
  else c.writeThrough bytes

def write (text : String) (c : Channel) : Except StorageFault Unit × Channel :=
  let bytes := text.toUTF8
  if c.pending.size + bytes.size ≤ capacity then c.gather bytes
  else
    match c.flush with
    | (.ok (), c) => c.gather bytes
    | (.error fault, c) => (.error fault, c)

def writer : Writer Channel where
  write := write
  flush := flush
  release c := c.flush.2

end TableProfiling.Storage.Channel
