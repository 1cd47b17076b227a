import SurrealSchema.Query.Token

namespace SurrealSchema
namespace Query

/-!
# The head of a query

`SELECT`, a list of paths with commas between them, `FROM` and a table.  A path is a star or a name
followed by any number of names and stars with dots before them.
-/

/-- The segments of an entry of a selection list, first to last. -/
abbrev Path := List String

/-- What a head says: its paths in order and its table. -/
structure Head where
  paths : List Path
  table : String
  deriving DecidableEq

/-- How far a head has been read.  Finished paths and the segments of the path being read are in
reverse order. -/
inductive HeadState where
  /-- Nothing has been read. -/
  | start
  /-- A path has to follow. -/
  | expectingPath (done : List Path)
  /-- A star that is a whole path has been read. -/
  | afterStar (done : List Path)
  /-- A segment of a path has been read. -/
  | inPath (done : List Path) (segments : List String)
  /-- A segment has to follow a dot. -/
  | afterDot (done : List Path) (segments : List String)
  /-- The table has to follow. -/
  | expectingTable (paths : List Path)
  /-- The table has been read. -/
  | complete (head : Head)

namespace HeadState

/-- Consumes a token. -/
def step : HeadState → TokenKind → Option HeadState
  | start, .selectWord _ => some (expectingPath [])
  | expectingPath done, .star => some (afterStar done)
  | expectingPath done, .name value => some (inPath done [value])
  | afterStar done, .comma => some (expectingPath (["*"] :: done))
  | afterStar done, .fromWord _ => some (expectingTable (["*"] :: done).reverse)
  | inPath done segments, .dot => some (afterDot done segments)
  | inPath done segments, .comma => some (expectingPath (segments.reverse :: done))
  | inPath done segments, .fromWord _ => some (expectingTable (segments.reverse :: done).reverse)
  | afterDot done segments, .name value => some (inPath done (value :: segments))
  | afterDot done segments, .star => some (inPath done ("*" :: segments))
  | expectingTable paths, .name value => some (complete ⟨paths, value⟩)
  | _, _ => none

/-- The head of a text that ends in a state. -/
def finish : HeadState → Option Head
  | complete head => some head
  | _ => none

end HeadState

/-- The grammar of heads. -/
def headGrammar : Grammar TokenKind HeadState Head where
  start := .start
  step := HeadState.step
  finish := HeadState.finish
  spelling := TokenKind.display

/-- Parses the text of a head. -/
def parseHead (text : List Char) : Except Rejection Head :=
  headGrammar.parse (tokens text)

end Query
end SurrealSchema
