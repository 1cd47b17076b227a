import SurrealSchema.Shape.Basic
import SurrealSchema.Text.Case

namespace SurrealSchema
namespace Shape

/-!
# Rendering shapes

The compact written form of shapes: fields between braces, a question mark at the name of a field
that may be absent, and brackets behind the element of a list.
-/

/-- A literal value: a text between quotes, and anything else in lower case. -/
def renderLiteral : Value → List Char
  | .text value => Text.quoted value.toList
  | value => Text.lower value.written

mutual

/-- The written form of a shape. -/
def renderChars : Shape → List Char
  | scalar leaf => leaf.name.toList
  | literal value => renderLiteral value
  | recordId table => "record<".toList ++ table.toList ++ ['>']
  | array element =>
    let inner := renderChars element
    (if element.isUnion then '(' :: inner ++ [')'] else inner) ++ ['[', ']']
  | struct fields => '\x7b' :: ", ".toList.intercalate (fieldTexts fields) ++ ['\x7d']
  | optional inner => renderChars inner ++ " | none".toList
  | union options => " | ".toList.intercalate (optionTexts options)

/-- The written forms of the fields of a struct; one that may be absent is marked at its name. -/
def fieldTexts : List (String × Shape) → List (List Char)
  | [] => []
  | (name, optional inner) :: fields =>
    (name.toList ++ "?: ".toList ++ renderChars inner) :: fieldTexts fields
  | (name, shape) :: fields =>
    (name.toList ++ ": ".toList ++ renderChars shape) :: fieldTexts fields

/-- The written forms of the options of a union. -/
def optionTexts : List Shape → List (List Char)
  | [] => []
  | option :: options => renderChars option :: optionTexts options

end

/-- The written form of a shape. -/
def render (shape : Shape) : String :=
  String.ofList shape.renderChars

end Shape
end SurrealSchema
