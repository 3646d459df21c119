import TableProfiling.Catalog.Partition
import TableProfiling.Json.Value

namespace TableProfiling

-- Each setting stands on its own; the unit is kept as it is spelled until it is used.
structure Override where
  enabled : Bool := true
  column : Option String := none
  kind : Option PartitionKind := none
  unit : Option String := none
  interval : Option UInt32 := none
  values : Option (List Json.Value) := none
  rangeStart : Option Int64 := none
  rangeEnd : Option Int64 := none

namespace Override

def disabled : Override where
  enabled := false

def withColumn (o : Override) (column : String) : Override :=
  { o with column := some column }

def withKind (o : Override) (kind : PartitionKind) : Override :=
  { o with kind := some kind }

def withUnit (o : Override) (unit : String) : Override :=
  { o with unit := some unit }

def withInterval (o : Override) (interval : UInt32) : Override :=
  { o with interval := some interval }

def withValues (o : Override) (values : List Json.Value) : Override :=
  { o with values := some values }

def withRange (o : Override) (first last : Int64) : Override :=
  { o with rangeStart := some first, rangeEnd := some last }

end TableProfiling.Override
