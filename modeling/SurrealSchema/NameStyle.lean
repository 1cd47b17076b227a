import SurrealSchema.Text.Case
import SurrealSchema.Text.Trim

namespace SurrealSchema
namespace NameStyle

/-!
# Names derived from table names

Names with a capital at the start of every part, the names of types, and names with underscores
between their parts.
-/

/-- A text with its first character in upper case. -/
def capitalized : List Char → List Char
  | [] => []
  | c :: text => Text.upperChar c ++ text

/-- A name with the parts between its underscores and hyphens capitalized and joined. -/
def pascalCase (name : String) : String :=
  let parts := Text.splitAt '_' ((Text.lower name.toList).map fun c => if c = '-' then '_' else c)
  String.ofList (parts.flatMap capitalized)

/-- The name of the type that describes a table. -/
def typeName (table : String) : String :=
  pascalCase table ++ "Type"

/-- A text with an underscore between a small ASCII letter and a capital one right after it. -/
def separateCapitals : List Char → List Char
  | [] => []
  | c :: text =>
    if c.isLower && text.head?.any Char.isUpper then c :: '_' :: separateCapitals text
    else c :: separateCapitals text

/-- A text with every run of blanks and hyphens replaced by one underscore; `inRun` says whether
the text continues a run. -/
def joinRuns : (inRun : Bool) → List Char → List Char
  | _, [] => []
  | inRun, c :: text =>
    if Text.isBlank c || c == '-' then
      if inRun then joinRuns true text else '_' :: joinRuns true text
    else c :: joinRuns false text

/-- A name in lower case with underscores between its parts. -/
def snakeCase (name : String) : String :=
  String.ofList (Text.lower (joinRuns false (separateCapitals name.toList)))

end NameStyle
end SurrealSchema
