import TableProfiling.Catalog.Table
import TableProfiling.Json.Record
import TableProfiling.Scan.Descriptor

namespace TableProfiling

open Json

def Dialect.codec : Codec Dialect :=
  .names ⟨all.map fun d => (d, [d.name]), name⟩

def IntervalUnit.codec : Codec IntervalUnit :=
  .names ⟨all.map fun u => (u, [u.name]), name⟩

def DeclaredKind.codec : Codec DeclaredKind :=
  .names ⟨[.timeUnit, .ingestionTime, .integerRange].map fun k : DeclaredKind =>
    (k, [(k : PartitionKind).name, (k : PartitionKind).olderName]), fun k => (k : PartitionKind).name⟩

def PartitionKind.codec : Codec PartitionKind :=
  .names ⟨[timeUnit, ingestionTime, integerRange, columnValue].map fun k =>
    (k, [k.name, k.olderName]), name⟩

def Declaration.codec : Codec Declaration :=
  .record "TablePartition"
    (.cons (.defaulted "columns" (.list .string) [])
      (.cons (.required "intervalType" DeclaredKind.codec)
        (.cons (.optional "interval" .string) .nil)))
    (fun (columns, kind, interval, ()) => { columns, kind, interval })
    (fun d => (d.columns, d.kind, d.interval, ()))

def Override.codec : Codec Override :=
  .record "PartitionProfilerConfig"
    (.cons (.defaulted "enablePartitioning" .bool true)
      (.cons (.optional "partitionColumnName" .string)
        (.cons (.optional "partitionIntervalType" PartitionKind.codec)
          (.cons (.optional "partitionIntervalUnit" .string)
            (.cons (.optional "partitionInterval" .uint32)
              (.cons (.optional "partitionValues" (.list .value))
                (.cons (.optional "partitionIntegerRangeStart" .int64)
                  (.cons (.optional "partitionIntegerRangeEnd" .int64) .nil))))))))
    (fun (enabled, column, kind, unit, interval, values, rangeStart, rangeEnd, ()) =>
      { enabled, column, kind, unit, interval, values, rangeStart, rangeEnd })
    (fun o => (o.enabled, o.column, o.kind, o.unit, o.interval, o.values, o.rangeStart,
      o.rangeEnd, ()))

def Descriptor.codec : Codec Descriptor :=
  .record "PartitionDetails"
    (.cons (.required "enablePartitioning" .bool)
      (.cons (.required "partitionColumnName" .string)
        (.cons (.optional "partitionIntervalType" PartitionKind.codec)
          (.cons (.optional "partitionIntervalUnit" IntervalUnit.codec)
            (.cons (.optional "partitionInterval" .uint32)
              (.cons (.optional "partitionValues" (.list .value))
                (.cons (.optional "partitionIntegerRangeStart" .int64)
                  (.cons (.optional "partitionIntegerRangeEnd" .int64) .nil))))))))
    (fun (enabled, column, kind, unit, interval, values, rangeStart, rangeEnd, ()) =>
      { enabled, column, kind, unit, interval, values, rangeStart, rangeEnd })
    (fun d => (d.enabled, d.column, d.kind, d.unit, d.interval, d.values, d.rangeStart,
      d.rangeEnd, ()))

def Settings.codec : Codec Settings :=
  .record "TableProfilerConfig"
    (.cons (.optional "partitioning" Override.codec) .nil)
    (fun (partitioning, ()) => { partitioning })
    (fun s => (s.partitioning, ()))

def Table.codec : Codec Table :=
  .record "Table"
    (.cons (.required "fullyQualifiedName" .string)
      (.cons (.required "serviceType" Dialect.codec)
        (.cons (.optional "tablePartition" Declaration.codec)
          (.cons (.optional "tableProfilerConfig" Settings.codec) .nil))))
    (fun (name, dialect, declaration, settings, ()) => { name, dialect, declaration, settings })
    (fun t => (t.name, t.dialect, t.declaration, t.settings, ()))

end TableProfiling
