import SurrealSchema.Kind
import SurrealSchema.Text.Case
import SurrealSchema.Text.Keyword
import SurrealSchema.TypeExpr.Parser

namespace SurrealSchema
namespace TypeExpr

/-!
# What a type says about a field

A type expression is described by a kind, by whether the value may be absent, and by the table it
points at.  Resolving the text of a type never fails: what is not a type expression is a required
text.
-/

/-- Whether an alternative only says that the value may be absent. -/
def isAbsence : TypeExpr → Bool
  | named name _ => lowerName name = "none" || lowerName name = "null"
  | _ => false

/-- The one table that a list of arguments names. -/
def singleTable? : List TypeExpr → Option String
  | [named name []] => some name
  | _ => none

/-- A link to records, pointing at the one table among the arguments if there is just one. -/
def link (kind : Kind) (arguments : List TypeExpr) : Descriptor :=
  match singleTable? arguments with
  | some table => .pointing kind table
  | none => .plain kind

/-- A list, told by its first argument: records of one table, floating-point numbers, or
anything. -/
def listOf : List TypeExpr → Descriptor
  | named name arguments :: _ =>
    if lowerName name = "record" then
      match singleTable? arguments with
      | some table => .pointing .arrayOfRecord table
      | none => .plain .array
    else if lowerName name = "float" && arguments.isEmpty then .plain .arrayOfFloat
    else .plain .array
  | _ => .plain .array

/-- The kind a plain type name stands for. -/
def scalarKind (name : String) : Kind :=
  if name = "int" ∨ name = "integer" ∨ name = "number" then .integer
  else if name = "bool" ∨ name = "boolean" then .boolean
  else if name = "datetime" then .datetime
  else ⟨name⟩

/-- The one kind that all of some kinds are, else text. -/
def commonKind : List Kind → Kind
  | [] => .string
  | kind :: kinds => if kinds.all (· = kind) then kind else .string

/-- The description of a union, given whether some of its alternatives only say that the value may
be absent, and the descriptions of the others.  Several alternatives never share one pointer. -/
def describeUnion (admitsAbsence : Bool) (present : List Descriptor) : Descriptor :=
  if admitsAbsence then
    match present with
    | [descriptor] => descriptor.optional
    | _ => (Descriptor.plain (commonKind (present.map Descriptor.kind))).optional
  else .plain (commonKind (present.map Descriptor.kind))

mutual

/-- What a type expression says about a field. -/
def describe : TypeExpr → Descriptor
  | literal (.text _) => .plain .string
  | literal (.integer _) => .plain .number
  | literal (.decimal _) => .plain .number
  | union alternatives =>
    describeUnion (alternatives.any isAbsence) (describePresent alternatives)
  | named name arguments =>
    if lowerName name = "option" then (describeFirst arguments).optional
    else if lowerName name = "record" then link .record arguments
    else if lowerName name = "references" then link .references arguments
    else if lowerName name = "array" then listOf arguments
    else .plain (scalarKind (lowerName name))

/-- What the first of some type expressions says; none at all is a text. -/
def describeFirst : List TypeExpr → Descriptor
  | [] => .plain .string
  | first :: _ => describe first

/-- What the alternatives that do not stand for absence say. -/
def describePresent : List TypeExpr → List Descriptor
  | [] => []
  | alternative :: alternatives =>
    if isAbsence alternative then describePresent alternatives
    else describe alternative :: describePresent alternatives

end

end TypeExpr

/-! ## Resolving the text of a type -/

namespace Descriptor

/-- The blanks and the keyword that start the part of a type text which is no type. -/
def atReferenceClause (text : List Char) : Bool :=
  match Text.afterBlanks? text with
  | some rest => (Text.keywordAnyCase? "REFERENCE" none rest).isSome
  | none => false

/-- A type text without a reference clause, semicolons at its end and blanks around it. -/
def typeText (token : List Char) : List Char :=
  let declared := Text.upTo (fun _ rest => atReferenceClause rest) none (Text.trim token)
  Text.trim (Text.dropTrailing (· == ';') (Text.trimEnd declared))

/-- What the text of a type says about a field. -/
def ofTypeText (token : List Char) : Descriptor :=
  match typeText token with
  | [] => .plain .string
  | text =>
    match TypeExpr.parse text with
    | .ok type => type.describe
    | .error _ => .plain .string

end Descriptor
end SurrealSchema
