import SurrealSchema.Query.Clause
import SurrealSchema.Query.Selection

namespace SurrealSchema

/-!
# Queries

What a query asks for, as far as the shape of its answer depends on it.  Parsing never fails: what
is not understood is left out.
-/

/-- The kind of a statement, told by its first word. -/
inductive StatementKind where
  | select
  | create
  | update
  | delete
  | unknown
  deriving DecidableEq, Repr

/-- A clause that changes how results are returned. -/
inductive Modifier where
  | group (items : List String)
  | order (items : List String)
  | limit (count : Nat)
  deriving DecidableEq, Repr

/-- The parts of a query.  `returnsMany` says whether the answer is a list of results. -/
structure Query where
  kind : StatementKind
  tables : List String
  selections : List Selection
  conditions : List Query.Condition
  modifiers : List Modifier
  returnsMany : Bool

namespace Query

/-- A query of which nothing is known but its kind. -/
def ofKind (kind : StatementKind) : Query :=
  ⟨kind, [], [], [], [], true⟩

/-- The first table. -/
def table? (query : Query) : Option String :=
  query.tables.head?

/-- The number of the limit clause. -/
def limitCount? (query : Query) : Option Nat :=
  query.modifiers.findSome? fun
    | .limit count => some count
    | _ => none

/-- The kind of statement that an upper-case word starts. -/
def kindOfWord (word : List Char) : StatementKind :=
  if word = "SELECT".toList then .select
  else if word = "CREATE".toList then .create
  else if word = "UPDATE".toList then .update
  else if word = "DELETE".toList then .delete
  else .unknown

/-- Reads `FROM` and a table name; gives the name and what follows it. -/
def fromTable? : Text.Reader (List Char × List Char) := fun before text =>
  (clauseKeyword? "FROM" before text).bind tableText?

/-- A query's head, the table name it ends with, and what follows it.  The head ends at the first
`FROM` with a table name. -/
def splitHead? (text : List Char) : Option (List Char × List Char × List Char) :=
  match Text.keywordAnyCase? "SELECT" none text with
  | none => none
  | some rest =>
    (Text.search fromTable? (some 'T') rest).map fun (_, table, tail) =>
      (text.take (text.length - tail.length), table, tail)

/-- The selections and the table of a head.  A head that is not understood selects everything from
the table it ends with. -/
def readHead (head table : List Char) : List Selection × String :=
  match parseHead head with
  | .ok parsed => (parsed.paths.filterMap Selection.ofPath?, parsed.table)
  | .error _ => ([], bareTable table)

/-- The modifiers in the text after the tables, in a fixed order. -/
def modifiersOf (tail : List Char) : List Modifier :=
  ((clauseBy? "GROUP" tail).map fun items => Modifier.group (listItems items)).toList
    ++ ((clauseBy? "ORDER" tail).map fun items => Modifier.order (listItems items)).toList
    ++ ((limit? tail).map Modifier.limit).toList

/-- The query of a text that starts with `SELECT` and has single blanks between its words.  A limit
of one makes the answer a single result. -/
def parseSelect (text : List Char) : Query :=
  match splitHead? text with
  | none => ofKind .select
  | some (head, table, tail) =>
    let (selections, first) := readHead head table
    let (others, tail) := moreTables tail.length tail
    { kind := .select
      tables := first :: others
      selections
      conditions := ((clause? "WHERE" tail).map conditionsIn).getD []
      modifiers := modifiersOf tail
      returnsMany := limit? tail != some 1 }

/-- Parses a query. -/
def parse (query : String) : Query :=
  let text := Text.words query.toList
  match kindOfWord (Text.upper (text.head?.getD [])) with
  | .select => parseSelect ([' '].intercalate text)
  | kind => ofKind kind

end Query
end SurrealSchema
