import SurrealSchema.Catalog
import SurrealSchema.Query.Parse
import SurrealSchema.Shape.Basic

namespace SurrealSchema

/-!
# The shape of a query's answer

Selecting fields of a table gives a struct.  A pointer that is selected together with fields of the
record behind it is replaced by the struct of those fields.
-/

/-! ## Leaves -/

/-- The shape of the values of a kind, for a column with the given pointer. -/
def Kind.shape (kind : Kind) (reference : Option Reference) : Shape :=
  let element :=
    match reference with
    | some reference => Shape.recordId reference.table
    | none => .scalar .string
  if kind = .record then element
  else if kind.isCollection then .array element
  else if kind.name = "string" then .scalar .string
  else if kind.name = "number" ∨ kind.name = "float" ∨ kind.name = "decimal" then .scalar .number
  else if kind.name = "int" ∨ kind.name = "integer" then .scalar .integer
  else if kind.name = "bool" ∨ kind.name = "boolean" then .scalar .boolean
  else if kind.name = "datetime" then .scalar .date
  else if kind.name = "object" then .scalar .openMap
  else if kind.name = "array" then .array .unknown
  else if kind.name = "array_of_float" then .array (.scalar .number)
  else .unknown

/-- The shape of a column that is selected by itself. -/
def Column.shape (column : Column) : Shape :=
  let shape := column.kind.shape column.reference
  if column.isOptional then .optional shape else shape

/-- The shapes of all columns of a table. -/
def Layout.shapes (layout : Layout) : Entries Shape :=
  layout.columns.map fun (name, column) => (name, column.shape)

namespace Catalog

/-! ## Nested selections -/

/-- The answer for a pointer, given what is selected from the record behind it. -/
def behind (catalog : Catalog) (column : Column) (select : Layout → Entries Shape) : Shape :=
  match catalog.target? column with
  | none => .unknown
  | some target =>
    let shape := Shape.struct (select target)
    if column.kind.isCollection then .array shape else shape

mutual

/-- Writes the shapes that selections name after the ones found before. -/
def pick (catalog : Catalog) : List Selection → Layout → Entries Shape → Entries Shape
  | [], _, found => found
  | selection :: selections, layout, found =>
    pick catalog selections layout (pickOne catalog selection layout found)

/-- Writes the shapes that one selection names: those of all columns for a star, and else that of
the column it names, if there is one. -/
def pickOne (catalog : Catalog) : Selection → Layout → Entries Shape → Entries Shape
  | .mk field nested, layout, found =>
    if field = "*" then Entries.putAll found layout.shapes
    else
      match Entries.get? field layout.columns with
      | none => found
      | some column =>
        let shape :=
          if nested.isEmpty then column.shape
          else catalog.behind column fun target => pick catalog nested target []
        Entries.put field shape found

end

/-- The shape of a pointer from whose record some fields are selected. -/
def expansion (catalog : Catalog) (column : Column) (nested : List Selection) : Shape :=
  catalog.behind column fun target => catalog.pick nested target []

/-! ## Whole selections -/

/-- Replaces the shape of a column by its expansion if fields are selected from its record. -/
def expandIn (catalog : Catalog) (layout : Layout) (found : Entries Shape)
    (selection : Selection) : Entries Shape :=
  if selection.isWildcard || selection.nested.isEmpty then found
  else
    match Entries.get? selection.field layout.columns with
    | none => found
    | some column =>
      Entries.put selection.field (catalog.expansion column selection.nested) found

/-- The fields that a selection list takes from a table.  A star among them, or an empty list,
takes all columns in declaration order, the expanded ones in their places. -/
def select (catalog : Catalog) (layout : Layout) (selections : List Selection) : Entries Shape :=
  if selections.isEmpty || selections.any Selection.isWildcard then
    selections.foldl (catalog.expandIn layout) layout.shapes
  else catalog.pick selections layout []

/-- What a statement that changes records answers, whatever its table. -/
def statementShape : Shape :=
  .struct [
    ("status", .literal (.text "OK")),
    ("time", .scalar .string),
    ("result", .union [.literal (.bool true), .array .unknown])]

/-- The layout of the table a query reads from; an empty name denotes no table. -/
def queried? (catalog : Catalog) (query : Query) : Option Layout :=
  (query.table?.filter (· != "")).bind catalog.layout?

/-- The shape of a query's answer. -/
def answerShape (catalog : Catalog) (query : Query) : Shape :=
  match query.kind with
  | .select =>
    match catalog.queried? query with
    | none => .unknown
    | some layout =>
      let shape := Shape.struct (catalog.select layout query.selections)
      if query.returnsMany then .array shape else shape
  | _ => statementShape

end Catalog
end SurrealSchema
