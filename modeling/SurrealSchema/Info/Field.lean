import SurrealSchema.Ddl.Definition
import SurrealSchema.Value

namespace SurrealSchema
namespace Info

/-!
# Responses about a field

A field is described by its definition statement or by a map of its properties.
-/

/-- The properties of a field. -/
structure Properties where
  type : String
  kind : Value
  isOptional : Bool
  value : Value
  comment : Option String

/-- A description of a field. -/
inductive FieldInfo where
  | statement (definition : String)
  | properties (found : Properties)

namespace Properties

/-- The properties in a map.  The type is a text unless it is given as a text that is not empty,
and only the truth value makes a field optional. -/
def ofEntries (entries : Entries Value) : Properties :=
  let property (name : String) : Value := (Entries.get? name entries).getD .null
  { type :=
      match property "type" with
      | .text type => if type = "" then "string" else type
      | _ => "string"
    kind := property "kind"
    isOptional :=
      match property "optional" with
      | .bool value => value
      | _ => false
    value := property "value"
    comment := (property "comment").text? }

/-- What the type of a field says about it.  The ends of a relation are links even if the type does
not say so. -/
def descriptor (properties : Properties) : Descriptor :=
  let declared := Descriptor.ofTypeText properties.type.toList
  if properties.kind.text? == some "relation" && !declared.isReference then
    ⟨.record, declared.isOptional, none⟩
  else declared

/-- The field of some properties. -/
def toField (name : String) (properties : Properties) : Field :=
  let declared := properties.descriptor
  let descriptor := if properties.isOptional then declared.optional else declared
  { name
    kind := descriptor.kind
    isOptional := descriptor.isOptional
    description := properties.comment
    defaultValue :=
      match properties.value with
      | .null => none
      | value => some value.display
    reference := descriptor.reference }

end Properties

namespace FieldInfo

/-- The description that a value of free form is, if it is one. -/
def ofValue? : Value → Option FieldInfo
  | .text definition => some (statement definition)
  | .map entries => some (properties (Properties.ofEntries entries))
  | _ => none

/-- The field that a definition declares under a name.  A text that does not define a field is taken
for a type and what follows it. -/
def fieldOfStatement (name definition : String) : Field :=
  let text := Text.collapseBlanks definition.toList
  match Ddl.fieldParts? text with
  | some parts => Ddl.fieldOfClauses name parts.clauses
  | none => Ddl.fieldOfClauses name ("TYPE ".toList ++ text)

/-- The field of a description. -/
def toField (name : String) : FieldInfo → Field
  | statement definition => fieldOfStatement name definition
  | properties found => found.toField name

end FieldInfo
end Info
end SurrealSchema
