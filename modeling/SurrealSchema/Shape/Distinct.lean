import SurrealSchema.Shape.Basic

namespace SurrealSchema
namespace Shape

/-!
# Telling shapes apart

Two shapes are the same when they are built alike, with the fields of structs in the same order and
with literals that have the same value.
-/

mutual

/-- Whether two shapes are the same. -/
def same : Shape → Shape → Bool
  | scalar leaf, scalar leaf' => leaf == leaf'
  | literal value, literal value' => value.sameScalar value'
  | recordId table, recordId table' => table == table'
  | array element, array element' => same element element'
  | struct fields, struct fields' => sameFields fields fields'
  | optional inner, optional inner' => same inner inner'
  | union options, union options' => sameOptions options options'
  | _, _ => false

/-- Whether two lists of fields have the same names and shapes. -/
def sameFields : List (String × Shape) → List (String × Shape) → Bool
  | [], [] => true
  | (name, shape) :: fields, (name', shape') :: fields' =>
    name == name' && same shape shape' && sameFields fields fields'
  | _, _ => false

/-- Whether two lists of options are the same one by one. -/
def sameOptions : List Shape → List Shape → Bool
  | [], [] => true
  | shape :: shapes, shape' :: shapes' => same shape shape' && sameOptions shapes shapes'
  | _, _ => false

end

mutual

/-- Whether a shape can be told apart from others: none of its literals is a list or a map. -/
def isComparable : Shape → Bool
  | literal value => value.isScalar
  | array element => isComparable element
  | struct fields => allFieldsComparable fields
  | optional inner => isComparable inner
  | union options => allComparable options
  | scalar _ => true
  | recordId _ => true

/-- Whether the shapes of all fields can be told apart from others. -/
def allFieldsComparable : List (String × Shape) → Bool
  | [] => true
  | (_, shape) :: fields => isComparable shape && allFieldsComparable fields

/-- Whether all shapes of a list can be told apart from others. -/
def allComparable : List Shape → Bool
  | [] => true
  | shape :: shapes => isComparable shape && allComparable shapes

end

/-- The shapes of a list, of those that are the same just the first. -/
def distinct : List Shape → List Shape
  | [] => []
  | shape :: shapes => shape :: (distinct shapes).filter fun other => !shape.same other

end Shape
end SurrealSchema
