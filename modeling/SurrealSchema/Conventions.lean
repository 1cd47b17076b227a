import SurrealSchema.Failure
import SurrealSchema.Text.Scan

namespace SurrealSchema

/-!
# Naming conventions

Which tables belong to the store itself, which fields describe the elements of arrays, and which
fields always hold vectors.  The conventions are settings and may hold any values; one of the wrong
kind fails when it is first needed.
-/

/-- The conventions that a schema is built with. -/
structure Conventions where
  systemPrefixes : List Value
  elementMarker : Value
  vectorFields : List Value

namespace Conventions

/-- The conventions that hold unless others are set. -/
def standard : Conventions where
  systemPrefixes := [.text "_", .text "sdb_"]
  elementMarker := .text "[*]"
  vectorFields := [.text "embedding"]

/-- Whether a name starts with one of some values, which are tried in order. -/
def startsWithAny (name : List Char) : List Value → Except Failure Bool
  | [] => .ok false
  | .text start :: starts =>
    if start.toList.isPrefixOf name then .ok true else startsWithAny name starts
  | _ :: _ => .error .wrongKind

/-- Whether a table is a user's one and not one of the store's own. -/
def isUserTable (conventions : Conventions) (name : String) : Except Failure Bool :=
  (startsWithAny name.toList conventions.systemPrefixes).map not

/-- Whether a text occurs in another one. -/
def occursIn (part : List Char) (text : List Char) : Bool :=
  (Text.search (fun _ rest => part.isPrefixOf? rest) none text).isSome

/-- Whether a field describes the elements of an array. -/
def isElementField (conventions : Conventions) (name : String) : Except Failure Bool :=
  match conventions.elementMarker with
  | .text marker => .ok (occursIn marker.toList name.toList)
  | _ => .error .wrongKind

/-- Whether a field always holds a vector. -/
def isVectorField (conventions : Conventions) (name : String) : Bool :=
  conventions.vectorFields.any fun value => value.text? == some name

end Conventions
end SurrealSchema
