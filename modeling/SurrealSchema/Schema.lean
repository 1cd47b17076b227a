import SurrealSchema.Closure
import SurrealSchema.Ddl.Document
import SurrealSchema.Info.Tables
import SurrealSchema.Shape.OfQuery

namespace SurrealSchema

/-!
# Schemas

Tables whose references are closed, together with the catalog that shapes are inferred with.
-/

/-- Tables and the catalog of them. -/
structure Schema where
  tables : List Table
  catalog : Catalog

namespace Schema

/-- The schema of some tables.  Pointers to tables that are not among them are dropped first. -/
def ofTables (conventions : Conventions) (tables : List Table) : Schema :=
  let closed := Table.closeReferences conventions tables
  ⟨closed, Catalog.ofTables closed⟩

/-- The schema that a document defines. -/
def ofDocument (conventions : Conventions) (document : String) : Schema :=
  ofTables conventions (Ddl.parse document)

/-- The schema that a database response and the responses about its tables describe. -/
def ofResponses (conventions : Conventions) (response responses : Value) :
    Except Failure Schema :=
  (Info.tables conventions response responses).map (ofTables conventions)

/-- The schema that a provider describes. -/
def ofProvider (conventions : Conventions) (provider : Info.Provider) : Except Failure Schema :=
  (Info.fetch conventions provider).map fun fetched => ofTables conventions fetched.result

/-- The first table of a name, case ignored. -/
def table (schema : Schema) (name : String) : Except Failure Table :=
  match schema.tables.find? (Table.isNamed name) with
  | some table => .ok table
  | none => .error (.unknownTable name)

/-- The names of the tables in declaration order. -/
def tableNames (schema : Schema) : List String :=
  schema.tables.map Table.name

/-- The shape of a query's answer. -/
def answerShape (schema : Schema) (query : String) : Shape :=
  schema.catalog.answerShape (Query.parse query)

end Schema
end SurrealSchema
