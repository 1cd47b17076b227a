import SurrealSchema.Conventions
import SurrealSchema.Table

namespace SurrealSchema

/-!
# Closing tables under references

Dropping the pointers of fields to tables that are not declared, and typing the fields that always
hold vectors.  Tables and fields are neither added nor removed.
-/

namespace Field

/-- A field whose pointer is dropped unless its table is among the declared ones, which are given in
lower case.  A collection of records becomes a list of anything; a single link keeps its kind. -/
def dropDangling (declared : List String) (field : Field) : Field :=
  match field.reference with
  | none => field
  | some reference =>
    if declared.contains (lowerName reference.table) then field
    else if field.kind.isCollection then { field with kind := .array, reference := none }
    else { field with reference := none }

/-- A field that is a list of floating-point numbers if it always holds a vector and is a list of
anything. -/
def typeVector (conventions : Conventions) (field : Field) : Field :=
  if conventions.isVectorField field.name && field.kind = .array then
    { field with kind := .arrayOfFloat }
  else field

end Field

namespace Table

/-- The names of some tables in lower case. -/
def declaredNames (tables : List Table) : List String :=
  tables.map fun table => lowerName table.name

/-- Tables whose fields only point at tables among them. -/
def closeReferences (conventions : Conventions) (tables : List Table) : List Table :=
  tables.map fun table =>
    { table with
      fields := table.fields.map fun field =>
        (field.dropDangling (declaredNames tables)).typeVector conventions }

end Table
end SurrealSchema
