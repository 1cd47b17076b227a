import SurrealSchema.Value

namespace SurrealSchema

/-!
# Shapes

The structure of a query's answer.
-/

/-- Leaves of a shape. -/
inductive Scalar where
  | string
  | number
  | integer
  | boolean
  | date
  | openMap
  | unknown
  deriving DecidableEq, Repr

/-- The name a leaf is written with. -/
def Scalar.name : Scalar → String
  | string => "string"
  | number => "number"
  | integer => "integer"
  | boolean => "boolean"
  | date => "date"
  | openMap => "open_map"
  | unknown => "unknown"

/-- The structure of an answer.  The fields of a struct have distinct names and are in the order of
selection. -/
inductive Shape where
  | scalar (scalar : Scalar)
  | literal (value : Value)
  | recordId (table : String)
  | array (element : Shape)
  | struct (fields : List (String × Shape))
  | optional (inner : Shape)
  | union (options : List Shape)
  deriving Inhabited

namespace Shape

/-- A shape about which nothing is known. -/
def unknown : Shape :=
  scalar .unknown

/-- Whether a shape is a union. -/
def isUnion : Shape → Bool
  | union _ => true
  | _ => false

end Shape
end SurrealSchema
