import SurrealSchema.Text.Class

namespace SurrealSchema
namespace Text

/-!
# Quoted texts

A text between quotes with escapes for the quote, the backslash and everything that is not
printable.  Single quotes are used unless the text holds a single quote and no double quote.
-/

/-- A lower-case hexadecimal digit. -/
def hexDigit (value : Nat) : Char :=
  if value < 10 then Char.ofNat (0x30 + value) else Char.ofNat (0x57 + value)

/-- The last `width` hexadecimal digits of a number. -/
def hexDigits : (width : Nat) → Nat → List Char
  | 0, _ => []
  | width + 1, value => hexDigits width (value / 16) ++ [hexDigit (value % 16)]

/-- The written form of a character between the given quotes: two, four or eight hexadecimal
digits for a character that is not printable, as few as its code point allows. -/
def quotedChar (quote c : Char) : List Char :=
  if c == quote || c == '\\' then ['\\', c]
  else if c == '\n' then ['\\', 'n']
  else if c == '\r' then ['\\', 'r']
  else if c == '\t' then ['\\', 't']
  else if isPrintable c then [c]
  else if c.toNat < 0x100 then '\\' :: 'x' :: hexDigits 2 c.toNat
  else if c.toNat < 0x10000 then '\\' :: 'u' :: hexDigits 4 c.toNat
  else '\\' :: 'U' :: hexDigits 8 c.toNat

/-- The quote a text is written between. -/
def quoteFor (text : List Char) : Char :=
  if text.contains '\'' && !text.contains '"' then '"' else '\''

/-- A text between quotes. -/
def quoted (text : List Char) : List Char :=
  quoteFor text :: text.flatMap (quotedChar (quoteFor text)) ++ [quoteFor text]

end Text
end SurrealSchema
