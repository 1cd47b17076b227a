import SurrealSchema.Query.Head

namespace SurrealSchema

/-!
# Selections

An entry of a selection list: a star, a field, or a field whose record is to be replaced by a
selection from the table it points at.
-/

/-- A selected field and what is selected from the record it points at; an empty list selects the
field itself. -/
inductive Selection where
  | mk (field : String) (nested : List Selection)
  deriving Inhabited

namespace Selection

/-- The name of the selected field. -/
def field : Selection → String
  | mk field _ => field

/-- What is selected from the record the field points at. -/
def nested : Selection → List Selection
  | mk _ nested => nested

/-- Whether all fields are selected. -/
def isWildcard (selection : Selection) : Bool :=
  selection.field = "*"

/-- The selection of a field by itself. -/
def leaf (field : String) : Selection :=
  mk field []

/-- The nested selections along some segments, the stars among them skipped. -/
def chain : List String → List Selection
  | [] => []
  | segment :: segments =>
    if segment = "*" then chain segments else [mk segment (chain segments)]

/-- The selection a path stands for.  Behind the first segment, a star that is not the last
segment turns the path into a chain; any other path keeps just its second segment.  An empty path
stands for nothing. -/
def ofPath? : Query.Path → Option Selection
  | [] => none
  | [field] => some (leaf field)
  | field :: next :: rest =>
    if (next :: rest).dropLast.contains "*" then some (mk field (chain (next :: rest)))
    else some (mk field [leaf next])

end Selection
end SurrealSchema
