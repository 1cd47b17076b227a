import SurrealSchema.Token
import SurrealSchema.TypeExpr.Basic

namespace SurrealSchema
namespace TypeExpr

/-!
# Tokens of type expressions

Numbers with digits of any script, texts in either quote with backslash escapes, names bare or
between backticks, and four punctuation marks.
-/

/-- A token of a type expression. -/
inductive TokenKind where
  | name (value : String)
  | text (value : String)
  | number (value : Literal)
  | opening
  | closing
  | bar
  | comma
  deriving DecidableEq

/-- The value of a token as it is reported. -/
def TokenKind.display : TokenKind → String
  | name value => value
  | text value => value
  | number value => value.display
  | opening => "<"
  | closing => ">"
  | bar => "|"
  | comma => ","

/-- The content of a text whose quote has just been opened, up to the same quote.  A backslash
takes the next character with it, which must not be a line feed. -/
def quotedContent? (quote : Char) : List Char → Option (List Char)
  | [] => none
  | c :: text =>
    if c = quote then some []
    else if c = '\\' then
      match text with
      | [] => none
      | d :: rest =>
        if d = '\n' then none
        else (quotedContent? quote rest).map fun content => c :: d :: content
    else (quotedContent? quote text).map (c :: ·)

/-- A number without its sign at the front of a text: its digits before the point and, if a point
with at least one digit after it follows, the digits after the point. -/
def digits? (text : List Char) : Option (List Char × Option (List Char)) :=
  let whole := text.takeWhile Text.isDigit
  let part :=
    match text.dropWhile Text.isDigit with
    | '.' :: rest => rest.takeWhile Text.isDigit
    | _ => []
  if whole.isEmpty then none
  else some (whole, if part.isEmpty then none else some part)

/-- A number at the front of a text and how many characters it has. -/
def number? (text : List Char) : Option (Literal × Nat) :=
  let (negative, body) :=
    match text with
    | '-' :: rest => (true, rest)
    | _ => (false, text)
  let sign := if negative then 1 else 0
  (digits? body).map fun
    | (whole, none) =>
      let size : Int := Text.natOfDigits whole
      (.integer (if negative then -size else size), sign + whole.length)
    | (whole, some part) =>
      (.decimal (Binary64.ofDecimal negative (Text.natOfDigits (whole ++ part)) (-part.length)),
        sign + whole.length + 1 + part.length)

/-- The token at the front of a text and how many characters it has after its first one. -/
def readToken (text : List Char) : Option (TokenKind × Nat) :=
  match number? text with
  | some (value, length) => some (.number value, length - 1)
  | none =>
    match text with
    | [] => none
    | '<' :: _ => some (.opening, 0)
    | '>' :: _ => some (.closing, 0)
    | '|' :: _ => some (.bar, 0)
    | ',' :: _ => some (.comma, 0)
    | c :: rest =>
      if c = '"' ∨ c = '\'' then
        (quotedContent? c rest).map fun content =>
          (.text (String.ofList content), content.length + 1)
      else if c = '`' then
        (Token.backtickName? rest).map fun name => (.name (String.ofList name), name.length + 1)
      else if Token.startsName c then
        let more := rest.takeWhile Token.continuesName
        some (.name (String.ofList (c :: more)), more.length)
      else none

/-- The tokens of the text of a type expression. -/
def tokens (text : List Char) : Tokens TokenKind :=
  Tokens.read readToken text

end TypeExpr
end SurrealSchema
