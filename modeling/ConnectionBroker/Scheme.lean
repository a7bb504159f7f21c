import ConnectionBroker.Mapper

/-! # Built-in schemes

Each scheme knows the URI layout of one kind of database: its schema, its mapper and whether its
drivers take a number of threads.
-/

namespace ConnectionBroker

/-- A kind of database with a known URI layout. -/
inductive Scheme where
  | postgresql
  | mysql
  | oracle
  | redshift
  | snowflake
  | presto
  | trino
  | bigquery
  | databricks
  | clickhouse
  | vertica
  | duckdb
  | sqlite
  deriving DecidableEq, Inhabited, Repr

namespace Scheme

def all : List Scheme :=
  [postgresql, mysql, oracle, redshift, snowflake, presto, trino, bigquery, databricks, clickhouse,
    vertica, duckdb, sqlite]

/-! ## Names -/

/-- The scheme of the URI, which is also the driver's name. -/
def name : Scheme → String
  | postgresql => "postgresql"
  | mysql => "mysql"
  | oracle => "oracle"
  | redshift => "redshift"
  | snowflake => "snowflake"
  | presto => "presto"
  | trino => "trino"
  | bigquery => "bigquery"
  | databricks => "databricks"
  | clickhouse => "clickhouse"
  | vertica => "vertica"
  | duckdb => "duckdb"
  | sqlite => "sqlite"

def ofName (name : String) : Except Fault Scheme :=
  match all.find? (·.name == name) with
  | some scheme => .ok scheme
  | none => .error (.unsupportedDriver name)

/-! ## Layout -/

/-- The URI template of a server with a host, credentials and a database. -/
def serverUsage (name : String) : String :=
  name ++ "://<user>:<password>@<host>/<database>"

def usage : Scheme → String
  | snowflake =>
      "snowflake://<user>:<password>@<account>/<database>/<SCHEMA>?warehouse=<WAREHOUSE>"
  | presto => "presto://<user>@<host>/<catalog>/<schema>"
  | trino => "trino://<user>@<host>/<catalog>/<schema>"
  | bigquery => "bigquery://<project>/<dataset>"
  | databricks => "databricks://:<access_token>@<server_hostname>/<http_path>"
  | duckdb => "duckdb://<dbname>@<filepath>"
  | sqlite => "sqlite://<filepath>"
  | scheme => serverUsage scheme.name

def positional : Scheme → List String
  | snowflake => ["database", "schema"]
  | presto => ["catalog", "schema"]
  | trino => ["catalog", "schema"]
  | bigquery => ["dataset"]
  | databricks => ["catalog", "schema"]
  | duckdb => ["database", "dbpath"]
  | sqlite => []
  | _ => ["database?"]

def keyword : Scheme → List String
  | snowflake => ["warehouse"]
  | _ => []

def schema (scheme : Scheme) : Except Fault Schema :=
  Schema.declare scheme.usage scheme.positional scheme.keyword

/-- Whether the scheme's drivers take a number of threads. -/
def takesThreads : Scheme → Bool
  | snowflake => false
  | presto => false
  | trino => false
  | bigquery => false
  | duckdb => false
  | _ => true

def mapper : Scheme → Mapper
  | snowflake => .account
  | bigquery => .project
  | databricks => .token
  | duckdb => .file
  | sqlite => .path
  | _ => .network

end Scheme

end ConnectionBroker
