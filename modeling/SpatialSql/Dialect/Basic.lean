import SpatialSql.Dialect.Postgres
import SpatialSql.Dialect.MySql
import SpatialSql.Dialect.Sqlite
import SpatialSql.Dialect.SqlServer
import SpatialSql.Error

/-!
# The built-in dialects
-/

namespace SpatialSql

/-- A built-in SQL dialect. -/
inductive Dialect where
  | postgres
  | mysql
  | sqlite
  | sqlserver
  deriving DecidableEq, Repr

namespace Dialect

/-- All dialects, in order. -/
def all : List Dialect := [postgres, mysql, sqlite, sqlserver]

/-- The dialect used when none is named. -/
def default : Dialect := postgres

/-- The name of a dialect. -/
def name : Dialect → String
  | postgres => "postgres"
  | mysql => "mysql"
  | sqlite => "sqlite"
  | sqlserver => "sqlserver"

/-- The renderer of a dialect. -/
def renderer {α : Type} [Numeral α] : Dialect → Renderer α
  | postgres => Postgres.renderer
  | mysql => MySql.renderer
  | sqlite => Sqlite.renderer
  | sqlserver => SqlServer.renderer

/-- The dialect with exactly the given name or alias. -/
def ofName? (name : String) : Option Dialect :=
  match name with
  | "postgres" | "postgresql" | "postgis" => some postgres
  | "mysql" => some mysql
  | "sqlite" => some sqlite
  | "sqlserver" | "mssql" => some sqlserver
  | _ => none

/-- The dialect with the given name or alias, in any mix of upper and lower case. -/
def parse (name : String) : Except Error Dialect :=
  match ofName? (String.ofList (name.toList.map Char.toLower)) with
  | some dialect => .ok dialect
  | none => .error (.unknownDialect name)

end Dialect

end SpatialSql
