import SurrealSchema.Text.Trim

namespace SurrealSchema
namespace Text

/-!
# Lines

A line ends at a line feed, a carriage return (with the line feed after it, if there is one), a
vertical tab, a form feed, one of three information separators, or one of the three line breaks
above ASCII.  A break at the very end opens no further line.
-/

/-- Characters that end a line on their own. -/
def isLineBreak (c : Char) : Bool :=
  ['\n', '\r', '\x0b', '\x0c', '\x1c', '\x1d', '\x1e', '\u0085', '\u2028', '\u2029'].contains c

/-- The lines of a text without the breaks that end them. -/
def lines : List Char → List (List Char)
  | [] => []
  | '\r' :: '\n' :: text => [] :: lines text
  | c :: text => if isLineBreak c then [] :: lines text else consFirst c (lines text)

end Text
end SurrealSchema
