import SurrealSchema.Entries
import SurrealSchema.Table

namespace SurrealSchema

/-!
# Catalogs

The index of tables that shapes are inferred with.  Tables are found by name with case ignored, and
fields by their exact names.
-/

/-- What the shape of an answer depends on in a field. -/
structure Column where
  name : String
  kind : Kind
  isOptional : Bool
  reference : Option Reference
  deriving DecidableEq, Repr

/-- The column of a field. -/
def Column.ofField (field : Field) : Column :=
  ⟨field.name, field.kind, field.isOptional, field.reference⟩

/-- A table with its columns by name, in declaration order. -/
structure Layout where
  name : String
  columns : Entries Column
  deriving DecidableEq, Repr

/-- The layout of a table. -/
def Layout.ofTable (table : Table) : Layout :=
  ⟨table.name, Entries.ofList (table.fields.map fun field => (field.name, Column.ofField field))⟩

/-- How many records of the target one record of the source points at. -/
inductive Cardinality where
  | one
  | many
  deriving DecidableEq, Repr

/-- A pointer of one table to another one through a column. -/
structure Link where
  source : String
  target : String
  column : String
  cardinality : Cardinality
  deriving DecidableEq, Repr

/-- The layouts of tables under their lower-case names. -/
structure Catalog where
  layouts : Entries Layout
  deriving DecidableEq, Repr

namespace Catalog

/-- A catalog without tables. -/
def empty : Catalog :=
  ⟨[]⟩

/-- A catalog with a table registered in it; a table of the same name is replaced. -/
def register (catalog : Catalog) (table : Table) : Catalog :=
  ⟨Entries.put (lowerName table.name) (Layout.ofTable table) catalog.layouts⟩

/-- A catalog with several tables registered in it, one after the other. -/
def registerAll (catalog : Catalog) (tables : List Table) : Catalog :=
  tables.foldl register catalog

/-- The catalog of some tables. -/
def ofTables (tables : List Table) : Catalog :=
  empty.registerAll tables

/-- The layout of the table of a name. -/
def layout? (catalog : Catalog) (name : String) : Option Layout :=
  Entries.get? (lowerName name) catalog.layouts

/-- Whether a table of a name is registered. -/
def contains (catalog : Catalog) (name : String) : Bool :=
  (catalog.layout? name).isSome

/-- How many tables are registered. -/
def size (catalog : Catalog) : Nat :=
  catalog.layouts.length

/-- The names of the tables as they were declared. -/
def tableNames (catalog : Catalog) : List String :=
  (Entries.values catalog.layouts).map Layout.name

/-- The layout of the table that a column points at. -/
def target? (catalog : Catalog) (column : Column) : Option Layout :=
  column.reference.bind fun reference => catalog.layout? reference.table

/-- The column at the end of a path of names from a layout on, following pointers. -/
def follow? (catalog : Catalog) (layout : Layout) : List String → Option Column
  | [] => none
  | [name] => Entries.get? name layout.columns
  | name :: next :: path =>
    match (Entries.get? name layout.columns).bind catalog.target? with
    | some target => follow? catalog target (next :: path)
    | none => none

/-- The column at the end of a path of names from a table on. -/
def resolve? (catalog : Catalog) (table : String) (path : List String) : Option Column :=
  (catalog.layout? table).bind fun layout => catalog.follow? layout path

/-- The link that a column of a table makes. -/
def link? (table : String) (column : Column) : Option Link :=
  column.reference.map fun reference =>
    { source := table
      target := reference.table
      column := column.name
      cardinality := if column.kind.isCollection then .many else .one }

/-- The links that the columns of a table make, in declaration order. -/
def links (catalog : Catalog) (table : String) : List Link :=
  match catalog.layout? table with
  | none => []
  | some layout => (Entries.values layout.columns).filterMap (link? layout.name)

end Catalog
end SurrealSchema
