namespace TableProfiling.Storage

-- A path is a sequence of names, the last of which may be followed by a slash. It starts at the
-- root or in the working directory.
structure Path where
  absolute : Bool
  names : List String
  slash : Bool
  deriving DecidableEq, Repr

namespace Path

-- The pieces of a text between its slashes.
def pieces : List Char → List (List Char)
  | [] => [[]]
  | c :: cs =>
    if c = '/' then [] :: pieces cs
    else
      match pieces cs with
      | [] => [[c]]
      | p :: ps => (c :: p) :: ps

-- Slashes in a row count as one.
def ofString (s : String) : Path :=
  let names := (pieces s.toList).filter (!·.isEmpty)
  { absolute := s.toList.head? = some '/'
    names := names.map .ofList
    slash := !names.isEmpty && s.toList.getLast? = some '/' }

def isEmpty (p : Path) : Bool :=
  !p.absolute && p.names.isEmpty

-- The path as it is written with as few slashes as can be.
def text (p : Path) : String :=
  (if p.absolute then "/" else "") ++ "/".intercalate p.names ++ (if p.slash then "/" else "")

-- The names that lead from directory to directory: one that stays in place leads nowhere.
def steps (p : Path) : List String :=
  match p.names with
  | [] => []
  | n :: ns =>
    let ns := ns.filter (· ≠ ".")
    if p.absolute && n = "." then ns else n :: ns

-- The path of the directory that a path is in.
def parent? (p : Path) : Option Path :=
  if p.steps.isEmpty then none
  else some { absolute := p.absolute, names := p.steps.dropLast, slash := false }

-- A path, and the directories on the way to it, the nearest ones first.
def ancestors (p : Path) : List Path :=
  let above := (List.range p.steps.length).reverse.map fun k =>
    { absolute := p.absolute, names := p.steps.take k, slash := false : Path }
  p :: above.filter (!·.isEmpty)

end TableProfiling.Storage.Path
