namespace TableProfiling.Log

inductive Level
  | trace
  | debug
  | info
  | warn
  | error
  deriving DecidableEq, Repr

namespace Level

def name : Level → String
  | trace => "TRACE"
  | debug => "DEBUG"
  | info => "INFO"
  | warn => "WARN"
  | error => "ERROR"

def lowerName : Level → String
  | trace => "trace"
  | debug => "debug"
  | info => "info"
  | warn => "warn"
  | error => "error"

def all : List Level :=
  [trace, debug, info, warn, error]

theorem mem_all (l : Level) : l ∈ all := by
  cases l <;> decide

end Level

-- An entry is something that happened, or the start of an activity.
inductive Entry
  | event (level : Level) (message : String) (fields : List (String × String))
  | span (level : Level) (name : String) (fields : List (String × String))
  deriving DecidableEq, Repr

end TableProfiling.Log
