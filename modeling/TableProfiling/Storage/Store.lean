import TableProfiling.Storage.Fault
import TableProfiling.Storage.Path

namespace TableProfiling.Storage

inductive Node
  | directory
  | file (content : ByteArray)
  -- A file into which anything can be written and that stays empty.
  | sink
  -- A file that can be opened, but has no room for a single byte.
  | full

-- The names that lead from the root to a node.
abbrev Location := List String

structure Store where
  nodes : List (Location × Node)
  -- The directory in which relative paths start.
  working : Location

namespace Store

-- A store with an empty working directory.
def fresh : Store where
  nodes := [([], .directory), (["dev"], .directory), (["dev", "full"], .full),
    (["dev", "null"], .sink), (["tmp"], .directory), (["tmp", "work"], .directory)]
  working := ["tmp", "work"]

def get? (s : Store) (l : Location) : Option Node :=
  s.nodes.lookup l

def put (s : Store) (l : Location) (n : Node) : Store :=
  { s with nodes := (l, n) :: s.nodes.filter (·.1 ≠ l) }

def isDirectoryAt (s : Store) (l : Location) : Bool :=
  match s.get? l with
  | some .directory => true
  | _ => false

def maxNameSize : Nat := 255

def maxPathSize : Nat := 4095

-- One step of a path, from a directory.
def step (s : Store) (l : Location) (name : String) : Except StorageFault Location :=
  if !s.isDirectoryAt l then .error .notADirectory
  else if name = "." then .ok l
  else if name = ".." then .ok l.dropLast
  else if maxNameSize < name.utf8ByteSize then .error .invalidFilename
  else if (s.get? (l ++ [name])).isSome then .ok (l ++ [name])
  else .error .notFound

def start (s : Store) (p : Path) : Location :=
  if p.absolute then [] else s.working

-- No system call takes a path that is empty or too long, or that holds a zero byte.
def checkPath (p : Path) : Except StorageFault Unit :=
  if p.names.any (·.toList.contains '\x00') then .error .invalidInput
  else if p.isEmpty then .error .notFound
  else if maxPathSize < p.text.utf8ByteSize then .error .invalidFilename
  else .ok ()

-- Where a path leads. What is followed by a slash is a directory.
def locate (s : Store) (p : Path) : Except StorageFault Location := do
  checkPath p
  let l ← p.names.foldlM s.step (s.start p)
  if p.slash && !s.isDirectoryAt l then .error .notADirectory else return l

-- The directory of the last name of a path, and that name, unless the path is the root.
def locateLast (s : Store) (p : Path) : Except StorageFault (Location × Option String) := do
  checkPath p
  let l ← p.names.dropLast.foldlM s.step (s.start p)
  if !s.isDirectoryAt l then .error .notADirectory else return (l, p.names.getLast?)

def isDirectory (s : Store) (p : Path) : Bool :=
  match s.locate p with
  | .ok l => s.isDirectoryAt l
  | .error _ => false

def createDirectory (s : Store) (p : Path) : Except StorageFault Store := do
  match ← s.locateLast p with
  | (l, some name) =>
    if name = "." ∨ name = ".." then .error .alreadyExists
    else if maxNameSize < name.utf8ByteSize then .error .invalidFilename
    else if (s.get? (l ++ [name])).isSome then .error .alreadyExists
    else return s.put (l ++ [name]) .directory
  | (_, none) => .error .alreadyExists

-- Creates the first of some directories, and of the others, each of which is in the next one, those
-- that are missing. What has been created before a failure remains.
def createAll (s : Store) : List Path → Except StorageFault Unit × Store
  | [] => (.ok (), s)
  | p :: ps =>
    match s.createDirectory p with
    | .ok s => (.ok (), s)
    | .error .notFound =>
      match s.createAll ps with
      | (.error fault, s) => (.error fault, s)
      | (.ok (), s) =>
        match s.createDirectory p with
        | .ok s => (.ok (), s)
        | .error fault => (if s.isDirectory p then .ok () else .error fault, s)
    | .error fault => (if s.isDirectory p then .ok () else .error fault, s)

-- Creates a directory and those on the way to it.
def createDirectories (s : Store) (p : Path) : Except StorageFault Unit × Store :=
  if p.isEmpty then (.ok (), s) else s.createAll p.ancestors

-- Opens a file to be written from its beginning. There is none, or it loses what it holds.
def createFile (s : Store) (p : Path) : Except StorageFault (Location × Store) := do
  match ← s.locateLast p with
  | (l, some name) =>
    if name = "." ∨ name = ".." ∨ p.slash then .error .isADirectory
    else if maxNameSize < name.utf8ByteSize then .error .invalidFilename
    else
      let l := l ++ [name]
      match s.get? l with
      | some .directory => .error .isADirectory
      | some .sink | some .full => return (l, s)
      | some (.file _) | none => return (l, s.put l (.file .empty))
  | (_, none) => .error .isADirectory

-- Bytes with others in their place from an offset on; a gap before it is filled with zeros.
def overwrite (content : ByteArray) (offset : Nat) (bytes : ByteArray) : ByteArray :=
  let gap : ByteArray := ⟨Array.replicate (offset - content.size) 0⟩
  content.extract 0 offset ++ gap ++ bytes
    ++ content.extract (offset + bytes.size) content.size

-- Writes bytes into an open file. To write no bytes never fails.
def writeAt (s : Store) (l : Location) (offset : Nat) (bytes : ByteArray) :
    Except StorageFault Store :=
  if bytes.isEmpty then .ok s
  else
    match s.get? l with
    | some (.file content) => .ok (s.put l (.file (overwrite content offset bytes)))
    | some .sink => .ok s
    | some .full => .error .storageFull
    | some .directory => .error .isADirectory
    | none => .error .notFound

def readText (s : Store) (p : Path) : Except StorageFault String := do
  match s.get? (← s.locate p) with
  | some (.file content) =>
    match String.fromUTF8? content with
    | some text => return text
    | none => .error .invalidData
  | some .directory => .error .isADirectory
  | some .sink | some .full => return ""
  | none => .error .notFound

-- Writes a whole file.
def writeText (s : Store) (p : Path) (text : String) : Except StorageFault Store := do
  let (l, s) ← s.createFile p
  s.writeAt l 0 text.toUTF8

end TableProfiling.Storage.Store
