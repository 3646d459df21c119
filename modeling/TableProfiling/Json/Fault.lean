import TableProfiling.Json.Printer
import TableProfiling.Text.Escape

namespace TableProfiling.Json

-- What stands where something else was expected.
inductive Found
  | null
  | bool (b : Bool)
  | number (n : Number)
  | string (s : String)
  | sequence
  | map
  deriving DecidableEq

def Found.text : Found → String
  | .null => "null"
  | .bool b => "boolean `" ++ (if b then "true" else "false") ++ "`"
  | .number n@(.integer ..) => "integer `" ++ .ofList n.chars ++ "`"
  | .number n@(.double ..) => "floating point `" ++ .ofList n.chars ++ "`"
  | .string s => "string " ++ quoted s
  | .sequence => "sequence"
  | .map => "map"

-- What is expected at some place.
inductive Expected
  | bool
  | string
  | path
  | uint32
  | int64
  | sequence
  | map
  | unit
  | record (name : String)
  | variant
  | stringOrMap
  | singleKey
  deriving DecidableEq

def Expected.text : Expected → String
  | .bool => "a boolean"
  | .string => "a string"
  | .path => "path string"
  | .uint32 => "u32"
  | .int64 => "i64"
  | .sequence => "a sequence"
  | .map => "a map"
  | .unit => "unit"
  | .record name => "struct " ++ name
  | .variant => "variant identifier"
  | .stringOrMap => "string or map"
  | .singleKey => "map with a single key"

-- Why a JSON value does not have the shape that is asked for.
inductive ShapeFault
  | missingField (name : String)
  | duplicateField (name : String)
  | unknownVariant (name : String) (known : List String)
  | wrongType (found : Found) (expected : Expected)
  | wrongValue (found : Found) (expected : Expected)
  | tooShort (length : Nat) (name : String) (size : Nat)
  | tooLong (length : Nat)
  -- The value is none of a metric's kinds.
  | noMetric
  deriving DecidableEq

def ShapeFault.text : ShapeFault → String
  | .missingField name => "missing field `" ++ name ++ "`"
  | .duplicateField name => "duplicate field `" ++ name ++ "`"
  | .unknownVariant name known =>
    "unknown variant `" ++ name ++ "`, expected one of "
      ++ ", ".intercalate (known.map fun k => "`" ++ k ++ "`")
  | .wrongType found expected => "invalid type: " ++ found.text ++ ", expected " ++ expected.text
  | .wrongValue found expected => "invalid value: " ++ found.text ++ ", expected " ++ expected.text
  | .tooShort length name size =>
    "invalid length " ++ toString length ++ ", expected struct " ++ name ++ " with "
      ++ toString size ++ (if size = 1 then " element" else " elements")
  | .tooLong length =>
    "invalid length " ++ toString length ++ ", expected fewer elements in array"
  | .noMetric => "data did not match any variant of untagged enum MetricValue"

-- Why a text cannot be read: it ends too early, it is not JSON, or it is JSON of another shape.
-- Only the first problem in the order of the text is reported.
inductive Fault
  | ended
  | malformed
  | shape (fault : ShapeFault)
  deriving DecidableEq

def Fault.text : Fault → String
  | .ended => "unexpected end of the text"
  | .malformed => "the text is not JSON"
  | .shape fault => fault.text

end TableProfiling.Json
