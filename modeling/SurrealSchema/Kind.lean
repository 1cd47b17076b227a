namespace SurrealSchema

/-!
# Kinds of values

The base kind a type resolves to.  The set of kinds is open: a type that has no special meaning is
its own kind, under its lower-case name.
-/

/-- The base kind of a field's values, by name. -/
structure Kind where
  name : String
  deriving DecidableEq, Repr

namespace Kind

/-- Texts. -/
def string : Kind := ⟨"string"⟩

/-- Numbers of any kind. -/
def number : Kind := ⟨"number"⟩

/-- Whole numbers. -/
def integer : Kind := ⟨"integer"⟩

/-- Truth values. -/
def boolean : Kind := ⟨"boolean"⟩

/-- Points in time. -/
def datetime : Kind := ⟨"datetime"⟩

/-- Lists of anything. -/
def array : Kind := ⟨"array"⟩

/-- Lists of floating-point numbers. -/
def arrayOfFloat : Kind := ⟨"array_of_float"⟩

/-- Lists of links to records of one table. -/
def arrayOfRecord : Kind := ⟨"array_of_record"⟩

/-- A link to a record. -/
def record : Kind := ⟨"record"⟩

/-- The records of another table that link here. -/
def references : Kind := ⟨"references"⟩

/-- Whether values of the kind are collections of records. -/
def isCollection (kind : Kind) : Bool :=
  kind = references || kind = arrayOfRecord

/-- Whether values of the kind point at another table. -/
def isReference (kind : Kind) : Bool :=
  kind = record || kind.isCollection

end Kind

/-- A pointer from a field to another table. -/
structure Reference where
  table : String
  isOptional : Bool
  deriving DecidableEq, Repr

/-- What a type says about the values of a field. -/
structure Descriptor where
  kind : Kind
  isOptional : Bool
  reference : Option Reference
  deriving DecidableEq, Repr

namespace Descriptor

/-- A required value of a kind, without a pointer. -/
def plain (kind : Kind) : Descriptor :=
  ⟨kind, false, none⟩

/-- A required value that points at a table. -/
def pointing (kind : Kind) (table : String) : Descriptor :=
  ⟨kind, false, some ⟨table, false⟩⟩

/-- Whether the values point at another table. -/
def isReference (descriptor : Descriptor) : Bool :=
  descriptor.kind.isReference

/-- The same values or none.  The pointer becomes optional with the value, except that the
elements of a list of records are never optional one by one. -/
def optional (descriptor : Descriptor) : Descriptor :=
  { descriptor with
    isOptional := true
    reference :=
      if descriptor.kind = Kind.arrayOfRecord then descriptor.reference
      else descriptor.reference.map fun reference => { reference with isOptional := true } }

end Descriptor
end SurrealSchema
