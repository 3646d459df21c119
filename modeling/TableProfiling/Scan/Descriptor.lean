import TableProfiling.Catalog.Override

namespace TableProfiling

-- What a scan of a table is restricted to.
structure Descriptor where
  enabled : Bool
  column : String
  kind : Option PartitionKind := none
  unit : Option IntervalUnit := none
  interval : Option UInt32 := none
  values : Option (List Json.Value) := none
  rangeStart : Option Int64 := none
  rangeEnd : Option Int64 := none

end TableProfiling
