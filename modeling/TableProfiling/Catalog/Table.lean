import TableProfiling.Catalog.Dialect
import TableProfiling.Catalog.Override

namespace TableProfiling

structure Settings where
  partitioning : Option Override := none

structure Table where
  name : String
  dialect : Dialect
  declaration : Option Declaration := none
  settings : Option Settings := none

-- The override that is stored with a table.
def Table.override (t : Table) : Option Override :=
  t.settings.bind Settings.partitioning

end TableProfiling
