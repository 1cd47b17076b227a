import SurrealSchema.Text.Keyword
import SurrealSchema.Text.Trim

namespace SurrealSchema
namespace Ddl

/-!
# Clauses of definition statements

The `COMMENT`, `DEFAULT`, `VALUE`, `OPTIONAL` and `TYPE` clauses of a statement, and where a
statement ends.  Clause keywords are written in capitals.
-/

/-! ## Comments -/

/-- The text before and after the first place at which a literal stands. -/
def cutAt? (literal : List Char) (text : List Char) : Option (List Char × List Char) :=
  Text.search (fun _ rest => Text.afterLiteral? literal rest) none text

/-- The content up to the next quote that does not directly follow a backslash, and what follows
the quote; `before` is the character before the text. -/
def untilQuote? (quote : Char) : (before : Char) → List Char → Option (List Char × List Char)
  | _, [] => none
  | before, c :: text =>
    if c = quote ∧ before ≠ '\\' then some ([], text)
    else (untilQuote? quote c text).map fun (content, rest) => (c :: content, rest)

/-- The first quoted payload of a text and what follows it.  A double quote anywhere in the text
is preferred to a single one, even if it is never closed. -/
def payload? (text : List Char) : Option (List Char × List Char) :=
  match cutAt? ['"'] text with
  | some (_, opened) => untilQuote? '"' '"' opened
  | none =>
    match cutAt? ['\''] text with
    | some (_, opened) => untilQuote? '\'' '\'' opened
    | none => none

/-- The payload of the comment clause, unless there is none or it is empty. -/
def comment? (line : List Char) : Option (List Char) :=
  match cutAt? "COMMENT".toList line with
  | none => none
  | some (_, rest) => ((payload? rest).map Prod.fst).filter fun content => !content.isEmpty

/-- A line without its comment clause; one without a whole payload reaches to the end. -/
def withoutComment (line : List Char) : List Char :=
  match cutAt? "COMMENT".toList line with
  | none => line
  | some (before, rest) =>
    match payload? rest with
    | none => before
    | some (_, after) => before ++ after

/-- A line up to its comment clause. -/
def beforeComment (line : List Char) : List Char :=
  match cutAt? "COMMENT".toList line with
  | none => line
  | some (before, _) => before

/-! ## Defaults -/

/-- Whether the expression of a default ends at a place. -/
def endsExpression (before : Option Char) (text : List Char) : Bool :=
  text.head? == some ';' ||
    Text.atKeyword ["COMMENT", "PERMISSIONS", "ASSERT", "READONLY"] before text

/-- The expression after a keyword: what follows the blanks there, at least one character of it,
up to the next clause.  Two blanks and nothing else make an empty expression. -/
def expression? (text : List Char) : Option (List Char) :=
  match Text.afterBlanks? text with
  | none => none
  | some [] => if 2 ≤ text.length then some [] else none
  | some (c :: rest) => some (Text.trimEnd (c :: Text.upTo endsExpression (some c) rest))

/-- The expression after the word that makes a default hold always. -/
def alwaysExpression? (text : List Char) : Option (List Char) :=
  ((Text.afterBlanks? text).bind (Text.afterLiteral? "ALWAYS".toList)).bind expression?

/-- Reads a default clause.  The keyword must not be the end of a longer word or of a parameter's
name. -/
def defaultClause? : Text.Reader (List Char) := fun before text =>
  if Text.afterWord before || before == some '$' then none
  else
    match Text.afterLiteral? "DEFAULT".toList text with
    | some rest => (alwaysExpression? rest).or (expression? rest)
    | none => (Text.afterLiteral? "VALUE".toList text).bind expression?

/-- The expression of the default clause of a line, unless there is none or it is empty.  The
payload of a comment is no place for a clause. -/
def default? (line : List Char) : Option (List Char) :=
  ((Text.search defaultClause? none (withoutComment line)).map Prod.snd).filter fun expression =>
    !expression.isEmpty

/-! ## Markers and types -/

/-- Whether a line has the marker of an optional field. -/
def hasOptionalMarker (line : List Char) : Bool :=
  (Text.search (Text.keyword? "OPTIONAL") none line).isSome

/-- Whether the text of a type ends at a place. -/
def endsType (before : Option Char) (text : List Char) : Bool :=
  text.head? == some ';' ||
    Text.atKeyword
      ["DEFAULT", "VALUE", "COMMENT", "PERMISSIONS", "ASSERT", "READONLY", "OPTIONAL", "FLEXIBLE"]
      before text

/-- Reads a type clause and gives the text of the type. -/
def typeClause? : Text.Reader (List Char) := fun before text =>
  if Text.afterWord before then none
  else
    ((Text.afterLiteral? "TYPE".toList text).bind Text.afterBlanks?).map fun rest =>
      Text.trimEnd (Text.upTo endsType (some ' ') rest)

/-- The text of the type in some clauses, empty if there is no type clause. -/
def declaredType (clauses : List Char) : List Char :=
  match Text.search typeClause? none clauses with
  | some (_, type) => type
  | none => []

end Ddl
end SurrealSchema
