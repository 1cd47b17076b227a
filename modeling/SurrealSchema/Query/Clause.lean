import SurrealSchema.Text.Keyword
import SurrealSchema.Text.Trim

namespace SurrealSchema
namespace Query

/-!
# Clauses after the head of a query

Further tables, the conditions of `WHERE`, the lists of `GROUP` and `ORDER` and the number of
`LIMIT`.  Keywords may be written in either case.
-/

/-! ## Tables -/

/-- A table name at the front of a text, with its backticks if it has them, and what follows. -/
def tableText? (text : List Char) : Option (List Char × List Char) :=
  let quoted :=
    match text with
    | '`' :: rest =>
      let name := rest.takeWhile (· != '`')
      match rest.dropWhile (· != '`') with
      | _ :: after => if name.isEmpty then none else some ('`' :: name ++ ['`'], after)
      | [] => none
    | _ => none
  let word := text.takeWhile Text.isWord
  quoted.or (if word.isEmpty then none else some (word, text.dropWhile Text.isWord))

/-- A table name without backticks. -/
def bareTable (text : List Char) : String :=
  String.ofList (Text.dropTrailing (· == '`') (text.dropWhile (· == '`')))

/-- A comma and the table name after it, and what follows. -/
def nextTable? (text : List Char) : Option (String × List Char) :=
  match Text.trimStart text with
  | ',' :: rest =>
    (tableText? (Text.trimStart rest)).map fun (table, after) => (bareTable table, after)
  | _ => none

/-- The further tables at the front of a text, at most a given number of them, and what follows. -/
def moreTables : (most : Nat) → List Char → List String × List Char
  | 0, text => ([], text)
  | most + 1, text =>
    match nextTable? text with
    | none => ([], text)
    | some (table, after) =>
      let (tables, rest) := moreTables most after
      (table :: tables, rest)

/-! ## Expressions -/

/-- Whether a clause keyword stands at the front of a text. -/
def startsClause (text : List Char) : Bool :=
  ["WHERE", "SPLIT", "GROUP", "ORDER", "LIMIT", "START", "FETCH", "TIMEOUT", "PARALLEL",
    "EXPLAIN"].any fun word => (Text.keywordAnyCase? word none text).isSome

/-- Whether the expression of a clause ends at a place: there is nothing more, a semicolon or,
behind blanks, the next clause. -/
def endsClause (_before : Option Char) (text : List Char) : Bool :=
  match Text.afterBlanks? text with
  | some rest => rest.isEmpty || rest.head? == some ';' || startsClause rest
  | none => text.head? == some ';'

/-- The expression of a clause: at least one character, up to the end of the clause. -/
def expression? : List Char → Option (List Char)
  | [] => none
  | c :: text => some (c :: Text.upTo endsClause (some c) text)

/-- Reads a keyword and the blanks after it. -/
def clauseKeyword? (word : String) : Text.Reader (List Char) := fun before text =>
  if Text.afterWord before then none else Text.keywordThenBlanks? word text

/-- The expression of the first clause that a keyword starts. -/
def clause? (word : String) (text : List Char) : Option (List Char) :=
  (Text.search (fun before rest => (clauseKeyword? word before rest).bind expression?) none
    text).map Prod.snd

/-- The expression of the first clause that a keyword starts, which may have `BY` after it. -/
def clauseBy? (word : String) (text : List Char) : Option (List Char) :=
  (Text.search (fun before rest =>
    (clauseKeyword? word before rest).bind fun after =>
      ((Text.keywordThenBlanks? "BY" after).bind expression?).or (expression? after)) none
    text).map Prod.snd

/-- The non-empty items of a list with commas between them, without blanks around them. -/
def listItems (expression : List Char) : List String :=
  ((Text.splitAt ',' expression).map Text.trim).filterMap fun item =>
    if item.isEmpty then none else some (String.ofList item)

/-! ## Conditions -/

/-- A condition that compares a field with a value. -/
structure Condition where
  field : String
  operator : String
  value : String
  deriving DecidableEq, Repr

/-- Characters that comparison operators are made of. -/
def isOperator (c : Char) : Bool :=
  ['=', '<', '>', '!', '~', '?'].contains c

/-- Characters that bare values are made of. -/
def isBareValue (c : Char) : Bool :=
  Text.isWord c || c == '.' || c == ':' || c == '-'

/-- A value at the front of a text, without its quotes, and what follows it. -/
def conditionValue? (text : List Char) : Option (List Char × List Char) :=
  match text with
  | [] => none
  | c :: rest =>
    if c = '\'' ∨ c = '"' then
      match rest.dropWhile (· != c) with
      | _ :: after => some (rest.takeWhile (· != c), after)
      | [] => none
    else
      let value := text.takeWhile isBareValue
      if value.isEmpty then none else some (value, text.dropWhile isBareValue)

/-- A condition at the front of a text and what follows it. -/
def condition? (text : List Char) : Option (Condition × List Char) :=
  let field := text.takeWhile Text.isWord
  let rest := Text.trimStart (text.dropWhile Text.isWord)
  let operator := rest.takeWhile isOperator
  if field.isEmpty || operator.isEmpty then none
  else
    (conditionValue? (Text.trimStart (rest.dropWhile isOperator))).map fun (value, after) =>
      (⟨String.ofList field, String.ofList operator, String.ofList value⟩, after)

/-- The conditions in a text from left to right, `skip` more characters of which belong to a
condition that has been read already. -/
def conditionsFrom : (skip : Nat) → List Char → List Condition
  | _, [] => []
  | skip + 1, _ :: text => conditionsFrom skip text
  | 0, c :: text =>
    match condition? (c :: text) with
    | some (condition, after) => condition :: conditionsFrom (text.length - after.length) text
    | none => conditionsFrom 0 text

/-- The conditions in the expression of a `WHERE` clause. -/
def conditionsIn (expression : List Char) : List Condition :=
  conditionsFrom 0 expression

/-! ## Limits -/

/-- A number at the front of a text. -/
def count? (text : List Char) : Option Nat :=
  let digits := text.takeWhile Text.isDigit
  if digits.isEmpty then none else some (Text.natOfDigits digits)

/-- The number of the first limit clause. -/
def limit? (text : List Char) : Option Nat :=
  (Text.search (fun before rest =>
    (clauseKeyword? "LIMIT" before rest).bind fun after =>
      ((Text.keywordThenBlanks? "BY" after).bind count?).or (count? after)) none text).map Prod.snd

end Query
end SurrealSchema
