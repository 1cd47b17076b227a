import SurrealSchema.Binary64.Decimal

namespace SurrealSchema

/-!
# Type expressions

The syntax trees of the types a field can be declared with: named types with arguments, unions and
literals.
-/

/-- A literal that is used as a type. -/
inductive Literal where
  | text (value : String)
  | integer (value : Int)
  | decimal (value : Binary64)
  deriving DecidableEq, Repr

/-- The text of a literal's value. -/
def Literal.display : Literal → String
  | text value => value
  | integer value => toString value
  | decimal value => String.ofList value.text

/-- A type expression. -/
inductive TypeExpr where
  | named (name : String) (arguments : List TypeExpr)
  | union (alternatives : List TypeExpr)
  | literal (value : Literal)
  deriving Inhabited

namespace TypeExpr

/-- The union of some alternatives; a single one is not a union. -/
def ofAlternatives : List TypeExpr → TypeExpr
  | [alternative] => alternative
  | alternatives => union alternatives

end TypeExpr
end SurrealSchema
