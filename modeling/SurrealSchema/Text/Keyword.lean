import SurrealSchema.Text.Scan

namespace SurrealSchema
namespace Text

/-!
# Keywords

Keywords are written in capitals here.  Clause keywords are compared letter by letter; statement
keywords are found in either case, and then the letters that fold to `i`, `s` and `k` count too.
-/

/-- Whether a character stands for a capital letter when case is ignored. -/
def matchesLetter (letter c : Char) : Bool :=
  c == letter || c == letter.toLower
    || (letter == 'I' && (c == 'ı' || c == 'İ'))
    || (letter == 'S' && c == 'ſ')
    || (letter == 'K' && c == '\u212a')

/-- What follows a literal at the front of a text. -/
def afterLiteral? (literal text : List Char) : Option (List Char) :=
  literal.isPrefixOf? text

/-- What follows a literal at the front of a text when case is ignored. -/
def afterLiteralAnyCase? : List Char → List Char → Option (List Char)
  | [], text => some text
  | _ :: _, [] => none
  | letter :: literal, c :: text =>
    if matchesLetter letter c then afterLiteralAnyCase? literal text else none

/-- Reads a keyword that is a word of its own and gives what follows it. -/
def keyword? (word : String) : Reader (List Char) := fun before text =>
  if afterWord before then none
  else (afterLiteral? word.toList text).filter fun rest => !startsWord rest

/-- Reads a keyword in either case that is a word of its own and gives what follows it. -/
def keywordAnyCase? (word : String) : Reader (List Char) := fun before text =>
  if afterWord before then none
  else (afterLiteralAnyCase? word.toList text).filter fun rest => !startsWord rest

/-- Whether one of the keywords stands at a place as a word of its own. -/
def atKeyword (keywords : List String) (before : Option Char) (text : List Char) : Bool :=
  keywords.any fun word => (keyword? word before text).isSome

/-- Reads a keyword in either case together with the blanks that must follow it. -/
def keywordThenBlanks? (word : String) (text : List Char) : Option (List Char) :=
  (afterLiteralAnyCase? word.toList text).bind afterBlanks?

end Text
end SurrealSchema
