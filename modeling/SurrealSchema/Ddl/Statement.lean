import SurrealSchema.Text.Trim

namespace SurrealSchema
namespace Ddl

/-!
# Statements on a line

A semicolon ends a statement, so one line may hold several.  Semicolons between quotes end
nothing.
-/

/-- Whether a text starts with the two dashes of a line comment. -/
def startsComment : List Char → Bool
  | '-' :: '-' :: _ => true
  | _ => false

/-- Whether a line ends its statement. -/
def isTerminated (line : List Char) : Bool :=
  (Text.trimEnd line).getLast? == some ';'

/-- A definition without blanks around it and with a semicolon at its end. -/
def terminated (definition : List Char) : List Char :=
  let trimmed := Text.trim definition
  if isTerminated trimmed then trimmed else trimmed ++ [';']

/-- The pieces of a text, cut after every semicolon that is not between quotes; `quote` is the
quote that is open.  Between quotes a backslash takes the next character with it. -/
def pieces : (quote : Option Char) → List Char → List (List Char)
  | _, [] => [[]]
  | none, c :: text =>
    if c = ';' then [c] :: pieces none text
    else if c = '"' ∨ c = '\'' then Text.consFirst c (pieces (some c) text)
    else Text.consFirst c (pieces none text)
  | some quote, c :: text =>
    if c = '\\' then
      match text with
      | [] => [[c]]
      | d :: rest => Text.consFirst c (Text.consFirst d (pieces (some quote) rest))
    else if c = quote then Text.consFirst c (pieces none text)
    else Text.consFirst c (pieces (some quote) text)

/-- The pieces of a text make up the text. -/
theorem flatten_pieces (quote : Option Char) (text : List Char) :
    (pieces quote text).flatten = text := by
  fun_induction pieces quote text <;> simp_all [Text.flatten_consFirst]

/-- The statements on a line, without blanks around them.  A comment after a complete statement
ends the line; a line that is blank or only a comment is passed on as it is. -/
def statements (line : List Char) : List (List Char) :=
  let text := Text.trim line
  if text.isEmpty || startsComment text then [text]
  else
    match pieces none text with
    | [] => []
    | first :: others =>
      let read := first :: others.takeWhile fun piece => !startsComment (Text.trimStart piece)
      (read.map Text.trim).filter fun statement => !statement.isEmpty

end Ddl
end SurrealSchema
