import TableProfiling.Catalog.Partition
import TableProfiling.Json.Fault
import TableProfiling.Number.Integer
import TableProfiling.Storage.Fault

namespace TableProfiling

-- Why there is no way to restrict the scan of a table.
inductive PartitionFault
  | unknownUnit (name : String)
  | valuesWithInterval
  | noColumn
  | noBounds
  | inverted (first last : Int64)
  | noDeclaredColumn (kind : DeclaredKind)
  | other (message : String)
  deriving DecidableEq, Repr

def PartitionFault.text : PartitionFault → String
  | .unknownUnit name =>
    "unrecognized partition interval unit '" ++ name ++ "' (expected HOUR, DAY, MONTH or YEAR)"
  | .valuesWithInterval =>
    "partitionValues cannot be combined with interval or integer range fields"
  | .noColumn => "a partition column name is required when partitioning is enabled"
  | .noBounds =>
    "integer range partitioning requires partitionIntegerRangeStart and partitionIntegerRangeEnd"
  | .inverted first last =>
    "integer range start " ++ integerText first.toInt ++ " is greater than end "
      ++ integerText last.toInt
  | .noDeclaredColumn kind =>
    (kind : PartitionKind).label ++ " partition declares no partition column"
  | .other message => message

-- Why a name cannot be used in a query.
inductive IdentifierFault
  | tooLong
  | malformed (name : String)
  | other (message : String)
  deriving DecidableEq, Repr

def IdentifierFault.text : IdentifierFault → String
  | .tooLong => "partition column name too long (max 300 characters)"
  | .malformed name =>
    "'" ++ name ++ "' must start with a letter or underscore and contain only letters, numbers, "
      ++ "underscores and dots"
  | .other message => message

-- Why a setting cannot be used.
inductive ConfigurationFault
  | unsupportedValue (v : Json.Value)
  | sink (fault : Json.Fault)
  | other (message : String)

def ConfigurationFault.text : ConfigurationFault → String
  | .unsupportedValue v => "unsupported partition value " ++ v.text
  | .sink fault => "invalid file sink config: " ++ fault.text
  | .other message => message

-- A failure keeps its cause. A context turns it into a sentence, in which the contexts stand before
-- the cause, the last one first.
inductive Failure
  | partition (table : String) (fault : PartitionFault)
  | configuration (fault : ConfigurationFault)
  | storage (path : String) (fault : StorageFault)
  | serialization (message : String)
  | identifier (fault : IdentifierFault)
  | internal (message : String)

namespace Failure

def text : Failure → String
  | partition table fault =>
    "Invalid partition configuration for '" ++ table ++ "': " ++ fault.text
  | configuration fault => "Configuration error: " ++ fault.text
  | storage path fault => "Sink I/O error on '" ++ path ++ "': " ++ fault.text
  | serialization message => "Serialization error: " ++ message
  | identifier fault => "Invalid identifier: " ++ fault.text
  | internal message => "Internal error: " ++ message

def isPartition : Failure → Bool
  | partition .. => true
  | _ => false

def isStorage : Failure → Bool
  | storage .. => true
  | _ => false

-- The text of the fault below a failure of the storage.
def source : Failure → Option String
  | storage _ fault => some fault.text
  | _ => none

def ofJson (fault : Json.Fault) : Failure :=
  serialization fault.text

-- The failure to write a text piece by piece, of which no more is known.
def formatting : Failure :=
  internal "an error occurred when formatting an argument"

-- The sentence that a failure contributes where a context is put before it.
def cause : Failure → String
  | internal message => message
  | f => f.text

def within (context : String) (f : Failure) : Failure :=
  internal (context ++ ": " ++ f.cause)

end Failure

-- Puts a context before the failure of a result, if it is one. What gives the context is asked for it
-- only then.
def Failure.inContextM [Monad m] (context : m String) : Except Failure α → m (Except Failure α)
  | .ok x => pure (.ok x)
  | .error f => return .error (f.within (← context))

-- The same for a context that is computed without any effect.
def Failure.inContext (context : Unit → String) (r : Except Failure α) : Except Failure α :=
  inContextM (m := ReaderM Unit) context r ()

end TableProfiling
