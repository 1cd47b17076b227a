import SurrealSchema.TypeExpr.Token

namespace SurrealSchema
namespace TypeExpr

/-!
# Parsing type expressions

A type expression is a union of terms with bars between them.  A term is a name, a name with a
list of type expressions between angle brackets, or a literal.  The parser keeps one frame for
every bracket that is open.
-/

/-- What stands before an open bracket: the alternatives already read beside the generic type, its
name, and the arguments already read; lists are in reverse order. -/
structure Frame where
  beside : List TypeExpr
  name : String
  arguments : List TypeExpr

/-- Where the parser is in a term. -/
inductive Focus where
  /-- A term has to follow. -/
  | expecting
  /-- A name has been read, which may turn out to be a generic type. -/
  | named (name : String)
  /-- A whole term has been read. -/
  | finished (term : TypeExpr)

/-- The open brackets, innermost first, the alternatives already read at the present level in
reverse order, and the term being read. -/
structure State where
  frames : List Frame
  alternatives : List TypeExpr
  focus : Focus

namespace State

/-- The term that has been read, if a whole one has. -/
def term? (state : State) : Option TypeExpr :=
  match state.focus with
  | .expecting => none
  | .named name => some (.named name [])
  | .finished term => some term

/-- The union that ends with the term being read. -/
def union? (state : State) : Option TypeExpr :=
  state.term?.map fun term => ofAlternatives (term :: state.alternatives).reverse

/-- Consumes a token. -/
def step (state : State) : TokenKind → Option State
  | .name value =>
    match state.focus with
    | .expecting => some { state with focus := .named value }
    | _ => none
  | .text value =>
    match state.focus with
    | .expecting => some { state with focus := .finished (.literal (.text value)) }
    | _ => none
  | .number value =>
    match state.focus with
    | .expecting => some { state with focus := .finished (.literal value) }
    | _ => none
  | .opening =>
    match state.focus with
    | .named name => some ⟨⟨state.alternatives, name, []⟩ :: state.frames, [], .expecting⟩
    | _ => none
  | .closing =>
    match state.frames, state.union? with
    | frame :: frames, some last =>
      some ⟨frames, frame.beside, .finished (.named frame.name (last :: frame.arguments).reverse)⟩
    | _, _ => none
  | .bar =>
    state.term?.map fun term => ⟨state.frames, term :: state.alternatives, .expecting⟩
  | .comma =>
    match state.frames, state.union? with
    | frame :: frames, some argument =>
      some ⟨{ frame with arguments := argument :: frame.arguments } :: frames, [], .expecting⟩
    | _, _ => none

/-- The type expression of a text that ends in a state: no bracket may be open. -/
def finish (state : State) : Option TypeExpr :=
  match state.frames with
  | [] => state.union?
  | _ :: _ => none

end State

/-- The grammar of type expressions. -/
def grammar : Grammar TokenKind State TypeExpr where
  start := ⟨[], [], .expecting⟩
  step := State.step
  finish := State.finish
  spelling := TokenKind.display

/-- Parses the text of a type expression. -/
def parse (text : List Char) : Except Rejection TypeExpr :=
  grammar.parse (tokens text)

end TypeExpr
end SurrealSchema
