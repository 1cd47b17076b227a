import SurrealSchema.Text.Trim

namespace SurrealSchema

/-!
# Tokens and grammars

What the small languages of this library share.  A text is cut into tokens from left to right; a
character at which no token starts ends the cutting.  A grammar consumes the tokens one at a time
and refuses at the first token that no sentence allows, so it never looks past its first error.
-/

/-- A token: what it is, the place of its first character, and the characters it was read from. -/
structure Token (κ : Type) where
  kind : κ
  position : Nat
  source : List Char

/-- The tokens of a text, up to the character at which no token starts, if there is one. -/
structure Tokens (κ : Type) where
  tokens : List (Token κ)
  illegal : Option (Char × Nat)

/-- Why a text is not a sentence of a language. -/
inductive Rejection where
  | illegalCharacter (c : Char) (position : Nat)
  | unexpectedToken (value : String) (position : Nat)
  | unexpectedEnd
  deriving DecidableEq

/-- The words in which a rejection is reported. -/
def Rejection.message : Rejection → String
  | illegalCharacter c position => s!"Illegal character '{c}' at position {position}"
  | unexpectedToken value position => s!"Syntax error at '{value}' (position {position})"
  | unexpectedEnd => "Syntax error at end of input"

namespace Tokens

variable {κ : Type}

/-- Puts a token in front. -/
def cons (token : Token κ) (rest : Tokens κ) : Tokens κ :=
  ⟨token :: rest.tokens, rest.illegal⟩

/-- Characters that may stand between two tokens. -/
def isGap (c : Char) : Bool :=
  c == ' ' || c == '\t' || c == '\r' || c == '\n'

/-- Cuts a text into tokens, `skip` more characters of which belong to a token that has been read
already.  The reader gives the kind of the token at the front and how many characters it has after
its first one. -/
def readFrom (read : List Char → Option (κ × Nat)) : (skip position : Nat) → List Char → Tokens κ
  | _, _, [] => ⟨[], none⟩
  | skip + 1, position, _ :: text => readFrom read skip (position + 1) text
  | 0, position, c :: text =>
    if isGap c then readFrom read 0 (position + 1) text
    else
      match read (c :: text) with
      | none => ⟨[], some (c, position)⟩
      | some (kind, more) =>
        cons ⟨kind, position, c :: text.take more⟩ (readFrom read more (position + 1) text)

/-- Characters that belong to a token already read are passed over. -/
theorem readFrom_append (read : List Char → Option (κ × Nat)) (position : Nat)
    (passed text : List Char) :
    readFrom read passed.length position (passed ++ text) =
      readFrom read 0 (position + passed.length) text := by
  induction passed generalizing position with
  | nil => rfl
  | cons c passed ih =>
    rw [List.cons_append, List.length_cons, readFrom, ih]
    congr 1
    omega

/-- Cuts a text into tokens. -/
def read (reader : List Char → Option (κ × Nat)) (text : List Char) : Tokens κ :=
  readFrom reader 0 0 text

/-- All tokens of a text, provided that a token starts wherever one has to. -/
def complete (tokens : Tokens κ) : Except Rejection (List (Token κ)) :=
  match tokens.illegal with
  | none => .ok tokens.tokens
  | some (c, position) => .error (.illegalCharacter c position)

end Tokens

/-- A language over tokens: states, what a token does in a state, and the result of a text that
ends in a state. -/
structure Grammar (κ σ α : Type) where
  start : σ
  step : σ → κ → Option σ
  finish : σ → Option α
  spelling : κ → String

namespace Grammar

variable {κ σ α : Type}

/-- Consumes tokens from a state on; `illegal` is the character that ends them, if one does. -/
def run (grammar : Grammar κ σ α) (illegal : Option (Char × Nat)) :
    σ → List (Token κ) → Except Rejection α
  | state, [] =>
    match illegal with
    | some (c, position) => .error (.illegalCharacter c position)
    | none =>
      match grammar.finish state with
      | some result => .ok result
      | none => .error .unexpectedEnd
  | state, token :: tokens =>
    match grammar.step state token.kind with
    | some next => run grammar illegal next tokens
    | none => .error (.unexpectedToken (grammar.spelling token.kind) token.position)

/-- Reads the tokens of a text as a sentence. -/
def parse (grammar : Grammar κ σ α) (tokens : Tokens κ) : Except Rejection α :=
  grammar.run tokens.illegal grammar.start tokens.tokens

end Grammar

/-! ## Names in tokens -/

namespace Token

/-- Characters a bare name may start with. -/
def startsName (c : Char) : Bool :=
  c.isAlpha || c == '_'

/-- Characters a bare name may go on with. -/
def continuesName (c : Char) : Bool :=
  c.isAlphanum || c == '_'

/-- The name between backticks at the front of a text, which has just been opened: at least one
character, and then the closing backtick. -/
def backtickName? (text : List Char) : Option (List Char) :=
  let name := text.takeWhile (· != '`')
  if name.isEmpty || name.length = text.length then none else some name

end Token
end SurrealSchema
