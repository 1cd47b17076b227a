import SurrealSchema.Text.Case
import SurrealSchema.Token

namespace SurrealSchema
namespace Query

/-!
# Tokens of a query's head

The words and marks between `SELECT` and the first table.  A name between backticks is a name even
if it spells one of the two keywords.
-/

/-- A token of a query's head; the keywords keep the spelling they were written in. -/
inductive TokenKind where
  | name (value : String)
  | selectWord (spelling : String)
  | fromWord (spelling : String)
  | star
  | comma
  | dot
  deriving DecidableEq

/-- The value of a token as it is reported. -/
def TokenKind.display : TokenKind → String
  | name value => value
  | selectWord spelling => spelling
  | fromWord spelling => spelling
  | star => "*"
  | comma => ","
  | dot => "."

/-- A bare word as a token: one of the two keywords in either case, or a name. -/
def TokenKind.ofWord (word : String) : TokenKind :=
  if lowerName word = "select" then selectWord word
  else if lowerName word = "from" then fromWord word
  else name word

/-- The token at the front of a text and how many characters it has after its first one. -/
def readToken : List Char → Option (TokenKind × Nat)
  | [] => none
  | '*' :: _ => some (.star, 0)
  | ',' :: _ => some (.comma, 0)
  | '.' :: _ => some (.dot, 0)
  | c :: rest =>
    if c = '`' then
      (Token.backtickName? rest).map fun name => (.name (String.ofList name), name.length + 1)
    else if Token.startsName c then
      let more := rest.takeWhile Token.continuesName
      some (TokenKind.ofWord (String.ofList (c :: more)), more.length)
    else none

/-- The tokens of the text of a query's head. -/
def tokens (text : List Char) : Tokens TokenKind :=
  Tokens.read readToken text

end Query
end SurrealSchema
