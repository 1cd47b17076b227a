import SurrealSchema.Ddl.Definition
import SurrealSchema.Text.Lines

namespace SurrealSchema
namespace Ddl

/-!
# Documents of definitions

Reading a document line by line.  A statement that does not end on its line stays open and takes
the following lines as its continuation, up to a blank line, a comment or the next definition.

A description comes from the comment clause on the statement's line, from a comment clause on one of
its further lines, or from the comment line right above it, in this order.
-/

/-- A statement that may still be continued: the place of its table, its field if it defines one,
and the description to fall back on. -/
structure Ongoing where
  table : Nat
  field : Option Field
  fallback : Option String
  deriving DecidableEq, Repr

/-- How far a document has been read. -/
structure State where
  tables : List Table
  current : Option Nat
  heading : Option String
  ongoing : Option Ongoing
  deriving DecidableEq, Repr

namespace State

/-- Nothing has been read yet. -/
def initial : State :=
  ⟨[], none, none, none⟩

end State

/-! ## Closing a statement -/

/-- A table whose description falls back on another one. -/
def describeTable (fallback : Option String) (table : Table) : Table :=
  { table with description := table.description.or fallback }

/-- A field whose description falls back on another one. -/
def describeField (fallback : Option String) (field : Field) : Field :=
  { field with description := field.description.or fallback }

/-- The tables after a statement has ended. -/
def Ongoing.apply (statement : Ongoing) (tables : List Table) : List Table :=
  tables.modify statement.table fun table =>
    match statement.field with
    | none => describeTable statement.fallback table
    | some field => table.withField (describeField statement.fallback field)

/-- Ends the open statement, if there is one. -/
def State.close (state : State) : State :=
  match state.ongoing with
  | none => state
  | some statement => { state with tables := statement.apply state.tables, ongoing := none }

/-! ## Continuing a statement -/

/-- A field with the description and the default that a further line of its statement gives, where
it has none yet. -/
def continueField (line : List Char) (field : Field) : Field :=
  { field with
    description := field.description.or ((comment? line).map String.ofList)
    defaultValue := field.defaultValue.or ((default? line).map String.ofList) }

/-- Takes a line as a continuation of the open statement. -/
def State.continueWith (state : State) (statement : Ongoing) (line : List Char) : State :=
  let extended :=
    match statement.field with
    | none =>
      { state with
        tables := state.tables.modify statement.table
          (describeTable ((comment? line).map String.ofList)) }
    | some field =>
      { state with ongoing := some { statement with field := some (continueField line field) } }
  if isTerminated line then extended.close else extended

/-! ## Opening a statement -/

/-- The tables with one of a name among them: a new one at the end, or the one that is there with
the description replaced if a new one is given. -/
def declareTable (tables : List Table) (name : String) (description : Option String) :
    List Table × Nat :=
  match Table.indexOf? tables name with
  | none => (tables ++ [⟨name, description, []⟩], tables.length)
  | some index =>
    (tables.modify index fun table =>
      { table with description := description.or table.description }, index)

/-- Takes a line that defines a table. -/
def State.defineTable (state : State) (name : String) (line : List Char) : State :=
  let (tables, index) := declareTable state.tables name ((comment? line).map String.ofList)
  let opened : State := ⟨tables, some index, none, some ⟨index, none, state.heading⟩⟩
  if isTerminated line then opened.close else opened

/-- Takes a line that defines a field of a table.  A field of an unknown table is dropped. -/
def State.defineField (state : State) (table : String) (field : Field) (line : List Char) : State :=
  match Table.indexOf? state.tables table with
  | none => { state with heading := none }
  | some index =>
    let opened : State :=
      { state with heading := none, ongoing := some ⟨index, some field, state.heading⟩ }
    if isTerminated line then opened.close else opened

/-! ## Reading a document -/

/-- Takes a line that does not continue a statement. -/
def State.enter (state : State) (kind : Line) (line : List Char) : State :=
  match kind with
  | .blank => { state with heading := none }
  | .comment text =>
    if text.any (· != '-') then { state with heading := some (String.ofList text) } else state
  | .table name => state.defineTable name line
  | .field definition =>
    if state.current.isNone then state
    else
      match definition with
      | none => { state with heading := none }
      | some (table, field) => state.defineField table field line
  | .definition => state
  | .other => state

/-- Takes the next line of a document. -/
def State.step (state : State) (line : List Char) : State :=
  let text := Text.trim line
  match Line.ofTrimmed text, state.ongoing with
  | .other, some statement => state.continueWith statement text
  | kind, _ => state.close.enter kind text

/-- The tables once there are no more lines. -/
def State.finish (state : State) : List Table :=
  state.close.tables

/-- The logical lines of a document: the statements on each of its lines. -/
def logicalLines (document : String) : List (List Char) :=
  (Text.lines document.toList).flatMap statements

/-- The tables that a document defines. -/
def parse (document : String) : List Table :=
  ((logicalLines document).foldl State.step State.initial).finish

end Ddl
end SurrealSchema
