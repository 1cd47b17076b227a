import SurrealSchema.Text.CaseRuns
import SurrealSchema.Text.CasedRanges
import SurrealSchema.Text.Class

namespace SurrealSchema
namespace Text

/-!
# Lower and upper case

The full case mappings.  Two of them are not letter by letter: an upper-case form may have several
characters, and a capital sigma becomes the final form at the end of a word.
-/

/-- Where a run sends a code point that belongs to it. -/
def CaseRun.image? (run : CaseRun) (code : Nat) : Option Nat :=
  if run.first ≤ code && code ≤ run.last && (code - run.first) % run.stride == 0 then
    some (code + run.shift).toNat
  else none

/-- The image of a code point under the first run it belongs to, or itself. -/
def throughRuns (runs : List CaseRun) (code : Nat) : Nat :=
  (runs.findSome? (·.image? code)).getD code

/-- The lower-case form of a character that does not depend on its neighbours. -/
def lowerChar (c : Char) : List Char :=
  if c.toNat < 0x80 then [c.toLower]
  else if c == 'İ' then ['i', '\u0307']
  else [Char.ofNat (throughRuns lowerRuns c.toNat)]

/-- The upper-case form of a character. -/
def upperChar (c : Char) : List Char :=
  if c.toNat < 0x80 then [c.toUpper]
  else
    match upperExpansions.lookup c.toNat with
    | some codes => codes.map Char.ofNat
    | none => [Char.ofNat (throughRuns upperRuns c.toNat)]

/-- Characters that are passed over when the neighbours of a capital sigma are looked up. -/
def isCaseIgnorable (c : Char) : Bool :=
  if c.toNat < 0x80 then ['\'', '.', ':', '^', '`'].contains c
  else inRanges caseIgnorableRanges c.toNat

/-- Letters that have case, the case-ignorable ones left out. -/
def isCased (c : Char) : Bool :=
  if c.toNat < 0x80 then c.isAlpha else inRanges casedRanges c.toNat

/-- Whether the first character that is not case-ignorable has case. -/
def leadsCased (text : List Char) : Bool :=
  (text.dropWhile isCaseIgnorable).head?.any isCased

/-- Lower case, knowing whether the last character before the text that is not case-ignorable has
case. -/
def lowerAfter (afterCased : Bool) : List Char → List Char
  | [] => []
  | c :: text =>
    let image :=
      if c == 'Σ' then [if afterCased && !leadsCased text then 'ς' else 'σ'] else lowerChar c
    image ++ lowerAfter (if isCaseIgnorable c then afterCased else isCased c) text

/-- A text in lower case. -/
def lower (text : List Char) : List Char :=
  lowerAfter false text

/-- A text in upper case. -/
def upper (text : List Char) : List Char :=
  text.flatMap upperChar

end Text

/-- A name in lower case: names that agree in it are the same name when case is ignored. -/
def lowerName (name : String) : String :=
  String.ofList (Text.lower name.toList)

end SurrealSchema
