namespace TableProfiling

inductive Dialect
  | bigQuery
  | redshift
  | snowflake
  | postgres
  | mysql
  | mssql
  | oracle
  | hive
  | trino
  | databricks
  | athena
  | clickhouse
  deriving DecidableEq, Repr

namespace Dialect

def name : Dialect → String
  | bigQuery => "BigQuery"
  | redshift => "Redshift"
  | snowflake => "Snowflake"
  | postgres => "Postgres"
  | mysql => "Mysql"
  | mssql => "Mssql"
  | oracle => "Oracle"
  | hive => "Hive"
  | trino => "Trino"
  | databricks => "Databricks"
  | athena => "Athena"
  | clickhouse => "Clickhouse"

def all : List Dialect :=
  [bigQuery, redshift, snowflake, postgres, mysql, mssql, oracle, hive, trino, databricks, athena,
    clickhouse]

theorem mem_all (d : Dialect) : d ∈ all := by
  cases d <;> decide

-- Whether the tables of a dialect have columns that name the partition of a row.
def hasPseudoColumns (d : Dialect) : Bool :=
  d = bigQuery

end TableProfiling.Dialect
