import TableProfiling.Log.Entry

namespace TableProfiling.Log

structure Config where
  level : Level
  partitionDetails : Bool
  sinkWrites : Bool
  maxFieldLength : Nat
  deriving DecidableEq, Repr

namespace Config

def balanced : Config where
  level := .debug
  partitionDetails := true
  sinkWrites := false
  maxFieldLength := 256

def verbose : Config where
  level := .info
  partitionDetails := true
  sinkWrites := true
  maxFieldLength := 1024

def production : Config where
  level := .warn
  partitionDetails := false
  sinkWrites := false
  maxFieldLength := 128

instance : Inhabited Config := ⟨balanced⟩

-- The entry about a decision on partitions, if such entries are wanted.
def partition (c : Config) (message : String) (fields : List (String × String)) : List Entry :=
  if c.partitionDetails then [.event c.level message fields] else []

-- The entry about a write to a sink, if such entries are wanted.
def sinkWrite (c : Config) (message : String) (fields : List (String × String)) : List Entry :=
  if c.sinkWrites then [.event c.level message fields] else []

end Config

-- What a program shows of its log: the levels of all entries and of those of the profiler.
structure Setup where
  level : Level
  profilerLevel : Level
  json : Bool
  customFilter : Option String := none
  deriving DecidableEq, Repr

namespace Setup

def default : Setup where
  level := .info
  profilerLevel := .debug
  json := false

def production : Setup where
  level := .warn
  profilerLevel := .info
  json := true

def development : Setup where
  level := .debug
  profilerLevel := .debug
  json := false

-- The directives that select entries, unless others are given.
def filter (s : Setup) : String :=
  s.customFilter.getD (s.level.lowerName ++ ",term_profiler=" ++ s.profilerLevel.lowerName)

end TableProfiling.Log.Setup
