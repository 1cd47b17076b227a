import SurrealSchema.Kind
import SurrealSchema.Text.Case

namespace SurrealSchema

/-!
# Tables and fields

The model of a schema: tables with their fields in declaration order.
-/

/-- A field declared on a table. -/
structure Field where
  name : String
  kind : Kind
  isOptional : Bool
  description : Option String
  defaultValue : Option String
  reference : Option Reference
  deriving DecidableEq, Repr

/-- A table with its fields in declaration order. -/
structure Table where
  name : String
  description : Option String
  fields : List Field
  deriving DecidableEq, Repr

namespace Table

/-- The first field of a name. -/
def field? (table : Table) (name : String) : Option Field :=
  table.fields.find? fun field => field.name = name

/-- The names of the fields in declaration order. -/
def fieldNames (table : Table) : List String :=
  table.fields.map Field.name

/-- Some fields with one more: it takes the place of the first field of its name, or the end. -/
def addField (added : Field) : List Field → List Field
  | [] => [added]
  | field :: fields =>
    if field.name = added.name then added :: fields else field :: addField added fields

/-- Declaring a field adds its name at the end if it is new and leaves the names alone if it is
not. -/
theorem map_name_addField (added : Field) (fields : List Field) :
    (addField added fields).map Field.name =
      if added.name ∈ fields.map Field.name then fields.map Field.name
      else fields.map Field.name ++ [added.name] := by
  induction fields with
  | nil => simp [addField]
  | cons field fields ih =>
    by_cases h : field.name = added.name
    · simp [addField, h]
    · by_cases hm : added.name ∈ fields.map Field.name
      · simp only [addField, h, if_false, List.map_cons, ih, hm, if_true, List.mem_cons, or_true]
      · simp only [addField, h, if_false, List.map_cons, ih, hm, List.mem_cons, or_false,
          Ne.symm h, List.cons_append]

/-- A table with a field declared on it; the last declaration of a name wins and the order stays. -/
def withField (table : Table) (added : Field) : Table :=
  { table with fields := addField added table.fields }

/-- Whether a table has a name when case is ignored. -/
def isNamed (name : String) (table : Table) : Bool :=
  lowerName table.name = lowerName name

/-- The place of the first table of a name, case ignored. -/
def indexOf? (tables : List Table) (name : String) : Option Nat :=
  tables.findIdx? (isNamed name)

end Table
end SurrealSchema
