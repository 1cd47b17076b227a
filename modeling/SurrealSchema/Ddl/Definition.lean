import SurrealSchema.Ddl.Clause
import SurrealSchema.Ddl.Statement
import SurrealSchema.Table
import SurrealSchema.TypeExpr.Descriptor

namespace SurrealSchema
namespace Ddl

/-!
# Definition statements

Recognising `DEFINE TABLE` and `DEFINE FIELD`, and building a field from its clauses.  Statement
keywords may be written in either case.
-/

/-! ## Heads of statements -/

/-- What follows one of the words that may stand between the kind of a definition and its name. -/
def afterModifier? (text : List Char) : Option (List Char) :=
  (Text.keywordThenBlanks? "OVERWRITE" text).or
    (((Text.keywordThenBlanks? "IF" text).bind (Text.keywordThenBlanks? "NOT")).bind
      (Text.keywordThenBlanks? "EXISTS"))

/-- Reads behind a word that may be there; where that fails, the word is taken for part of what is
read. -/
def behindOptional {α : Type} (word? : List Char → Option (List Char))
    (read : List Char → Option α) (text : List Char) : Option α :=
  ((word? text).bind read).or (read text)

/-- The name of a table, with or without backticks around it, and what follows it. -/
def tableName? (text : List Char) : Option (List Char × List Char) :=
  let bare := (Text.afterLiteral? ['`'] text).getD text
  let name := bare.takeWhile Text.isWord
  let rest := bare.dropWhile Text.isWord
  if name.isEmpty then none else some (name, (Text.afterLiteral? ['`'] rest).getD rest)

/-- What follows the first two words of a definition. -/
def afterDefine? (kind : String) (text : List Char) : Option (List Char) :=
  (Text.keywordThenBlanks? "DEFINE" text).bind (Text.keywordThenBlanks? kind)

/-- The name of the table that a statement defines. -/
def definedTable? (statement : List Char) : Option String :=
  ((afterDefine? "TABLE" statement).bind (behindOptional afterModifier? tableName?)).map
    fun (name, _) => String.ofList name

/-- The parts of a statement that defines a field. -/
structure FieldParts where
  name : String
  table : String
  clauses : List Char

/-- The name of a field, its table and its clauses, from the name on. -/
def fieldAndTable? (text : List Char) : Option FieldParts :=
  let name := text.takeWhile fun c => !Text.isBlank c
  if name.isEmpty then none
  else
    (((Text.afterBlanks? (text.dropWhile fun c => !Text.isBlank c)).bind
        (Text.keywordThenBlanks? "ON")).bind
      (behindOptional (Text.keywordThenBlanks? "TABLE") tableName?)).map
      fun (table, clauses) => ⟨String.ofList name, String.ofList table, clauses⟩

/-- The parts of a statement that defines a field, if it is one. -/
def fieldParts? (statement : List Char) : Option FieldParts :=
  (afterDefine? "FIELD" (Text.trim statement)).bind
    (behindOptional afterModifier? fieldAndTable?)

/-! ## Fields -/

/-- The field that clauses declare under a name.  The type and the marker of an optional field are
looked for before the comment, whose payload may mention them. -/
def fieldOfClauses (name : String) (clauses : List Char) : Field :=
  let declared := beforeComment clauses
  let descriptor := Descriptor.ofTypeText (declaredType declared)
  { name
    kind := descriptor.kind
    isOptional := descriptor.isOptional || hasOptionalMarker declared
    description := (comment? clauses).map String.ofList
    defaultValue := (default? clauses).map String.ofList
    reference := descriptor.reference }

/-- Whether a name denotes the elements of an array or a part of an object. -/
def isPartName (name : String) : Bool :=
  name.toList.contains '[' || name.toList.contains '.'

/-- The table and the field that a statement defines; parts of fields are left out. -/
def definedField? (statement : List Char) : Option (String × Field) :=
  match fieldParts? statement with
  | none => none
  | some definition =>
    if isPartName definition.name then none
    else some (definition.table, fieldOfClauses definition.name definition.clauses)

/-! ## Kinds of lines -/

/-- What a line of a document is. -/
inductive Line where
  | blank
  /-- A comment line, by the text after its dashes. -/
  | comment (text : List Char)
  /-- A statement that defines the table of a name. -/
  | table (name : String)
  /-- A statement that starts like the definition of a field; `none` if it defines no field. -/
  | field (definition : Option (String × Field))
  /-- A definition of something else. -/
  | definition
  /-- Anything else: a continuation, if a statement is open. -/
  | other

/-- Whether a line starts with a keyword of its own. -/
def startsWith (word : String) (text : List Char) : Bool :=
  (Text.keywordAnyCase? word none text).isSome

/-- Whether a line starts like the definition of a field. -/
def startsField (text : List Char) : Bool :=
  ((Text.keywordThenBlanks? "DEFINE" text).map (startsWith "FIELD")).getD false

/-- What a line without blanks around it is. -/
def Line.ofTrimmed (text : List Char) : Line :=
  match text with
  | [] => .blank
  | '-' :: '-' :: rest => .comment (Text.trim rest)
  | _ =>
    match definedTable? text with
    | some name => .table name
    | none =>
      if startsField text then .field (definedField? text)
      else if startsWith "DEFINE" text then .definition
      else .other

end Ddl
end SurrealSchema
