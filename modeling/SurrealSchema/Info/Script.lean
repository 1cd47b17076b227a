import SurrealSchema.Info.Tables

namespace SurrealSchema
namespace Info

/-!
# Scripts from responses

Writing what a database says about itself as a document of definitions, one on each line, under
headings that are comments.
-/

/-- How definitions are changed on the way; an empty type or mode changes nothing. -/
structure ScriptOptions where
  overwrite : Bool
  tableType : Option String
  schemaMode : Option String

/-- Definitions are written as they are. -/
def ScriptOptions.unchanged : ScriptOptions :=
  ⟨false, none, none⟩

/-! ## Definitions -/

/-- Whether a definition of a kind already overwrites, given without blanks around it. -/
def overwrites (kind : String) (definition : List Char) : Bool :=
  match (Ddl.afterDefine? kind definition).bind (Text.keywordAnyCase? "OVERWRITE" none) with
  | some _ => true
  | none => false

/-- A definition of a kind after its first two words, which end at the end of a word. -/
def afterKind? (kind : String) (definition : List Char) : Option (List Char) :=
  (Text.keywordThenBlanks? "DEFINE" (Text.trimStart definition)).bind
    (Text.keywordAnyCase? kind none)

/-- A definition with the word that makes it overwrite behind its first two words; anything else is
left as it is. -/
def insertOverwrite (kind : String) (definition : List Char) : List Char :=
  match afterKind? kind definition with
  | none => definition
  | some rest =>
    definition.take (definition.length - rest.length) ++ " OVERWRITE".toList ++ rest

/-- A definition of a kind as it is written to a script. -/
def writeDefinition (overwrite : Bool) (kind : String) (definition : List Char) : List Char :=
  Ddl.terminated
    (if overwrite && !overwrites kind (Text.trim definition) then insertOverwrite kind definition
    else definition)

/-- A text with the first thing that is read in it replaced. -/
def replaceFirst (read : Text.Reader (List Char)) (replacement text : List Char) : List Char :=
  match Text.search read none text with
  | none => text
  | some (before, rest) => before ++ replacement ++ rest

/-- Reads the type clause of a table and gives what follows it. -/
def tableTypeClause? : Text.Reader (List Char) := fun before text =>
  if Text.afterWord before then none
  else
    ((Text.keywordThenBlanks? "TYPE" text).filter Text.startsWord).map fun rest =>
      rest.dropWhile Text.isWord

/-- Reads the word for the schema mode of a table and gives what follows it. -/
def schemaModeWord? : Text.Reader (List Char) := fun before text =>
  (Text.keywordAnyCase? "SCHEMAFULL" before text).or
    (Text.keywordAnyCase? "SCHEMALESS" before text)

/-- The definition of a table of which only the name is known. -/
def plainDefinition (name : String) : List Char :=
  "DEFINE TABLE ".toList ++ name.toList ++ " TYPE NORMAL SCHEMAFULL PERMISSIONS NONE".toList

/-- A text in upper case, unless there is none or it is empty. -/
def chosen? (choice : Option String) : Option (List Char) :=
  (choice.filter (· != "")).map fun text => Text.upper text.toList

/-- A table definition with another type. -/
def retype (choice : Option String) (definition : List Char) : List Char :=
  match chosen? choice with
  | none => definition
  | some type => replaceFirst tableTypeClause? ("TYPE ".toList ++ type) definition

/-- A table definition with another schema mode. -/
def changeMode (choice : Option String) (definition : List Char) : List Char :=
  match chosen? choice with
  | none => definition
  | some mode => replaceFirst schemaModeWord? mode definition

/-- The definition of a table as it is written to a script. -/
def writeTable (options : ScriptOptions) (name : String) (raw : Value) : List Char :=
  let definition :=
    match raw with
    | .text definition => definition.toList
    | _ => plainDefinition name
  writeDefinition options.overwrite "TABLE"
    (changeMode options.schemaMode (retype options.tableType definition))

/-- The texts among some entries, each written as a definition of a kind. -/
def writeEntries (overwrite : Bool) (kind : String) (entries : Entries Value) :
    List (List Char) :=
  (Entries.values entries).filterMap fun raw =>
    raw.text?.map fun definition => writeDefinition overwrite kind definition.toList

/-! ## Lines of a script -/

/-- The line that sets off headings. -/
def rule : List Char :=
  "-- ------------------------------".toList

/-- An empty line and a heading between two rules. -/
def heading (title : List Char) : List (List Char) :=
  [[], rule, "-- ".toList ++ title, rule]

/-- The sections of a database response that are written: section, heading, kind of definition. -/
def databaseParts : List (Part × String × String) := [
  (.functions, "FUNCTIONS", "FUNCTION"),
  (.configs, "CONFIGS", "CONFIG"),
  (.analyzers, "ANALYZERS", "ANALYZER"),
  (.apis, "APIS", "API"),
  (.models, "MODELS", "MODEL"),
  (.params, "PARAMS", "PARAM")]

/-- The sections of a table response that are written besides the fields: section, heading, kind
of definition. -/
def tableParts : List (String × String × String) := [
  ("indexes", "Indexes", "INDEX"),
  ("events", "Events", "EVENT"),
  ("lives", "Lives", "LIVE"),
  ("scopes", "Scopes", "SCOPE"),
  ("params", "Params", "PARAM"),
  ("accesses", "Accesses", "ACCESS")]

/-- The lines for a section of a database response; an empty one has none. -/
def databaseLines (overwrite : Bool) (database : Database) (part : Part) (title kind : String) :
    List (List Char) :=
  let entries := database.part part
  if entries.isEmpty then []
  else
    heading title.toList ++ [[]]
      ++ (writeEntries overwrite kind entries).flatMap fun definition => [definition, []]

/-- The lines for a section of a table response; an empty one has none. -/
def tablePartLines (overwrite : Bool) (response : Entries Value) (name title kind : String) :
    List (List Char) :=
  let entries := entriesUnder name response
  if entries.isEmpty then []
  else [[], "-- ".toList ++ title.toList] ++ writeEntries overwrite kind entries

/-- The lines for the response about a table. -/
def responseLines (overwrite : Bool) (response : Entries Value) : List (List Char) :=
  writeEntries overwrite "FIELD" (entriesUnder "fields" response)
    ++ tableParts.flatMap fun (name, title, kind) =>
      tablePartLines overwrite response name title kind

/-- The lines for a table. -/
def tableLines (options : ScriptOptions) (name : String) (raw response : Value) :
    List (List Char) :=
  heading ("TABLE: ".toList ++ name.toList) ++ [[], writeTable options name raw, []]
    ++ responseLines options.overwrite (response.entries?.getD [])

/-- The lines that every script starts with. -/
def openingLines : List (List Char) :=
  [rule, "-- SCHEMA DEFINITIONS".toList, rule, [], "OPTION IMPORT;".toList, []]

/-- The user tables among those of a database response. -/
def userTables (conventions : Conventions) (tables : Entries Value) :
    Except Failure (Entries Value) :=
  gather (fun (name, raw) => do
    if ← conventions.isUserTable name then .ok (some (name, raw)) else .ok none) tables

/-- The script for a database and the responses about its tables. -/
def script (conventions : Conventions) (options : ScriptOptions) (response responses : Value) :
    Except Failure String := do
  let database := Database.ofValue response
  let tables ← userTables conventions database.tables
  let lines ← tables.mapM fun (name, raw) => do
    .ok (tableLines options name raw (← lookUp responses name))
  .ok (String.ofList (['\n'].intercalate (openingLines
    ++ databaseParts.flatMap (fun (part, title, kind) =>
      databaseLines options.overwrite database part title kind)
    ++ (if tables.isEmpty then [] else heading "TABLES".toList)
    ++ lines.flatten)))

/-- The script for the database of a provider. -/
def fetchScript (conventions : Conventions) (options : ScriptOptions) (provider : Provider) :
    Except Failure (Fetched String) := do
  let database := Database.ofValue provider.database
  let answers ← provider.collect conventions (Entries.names database.tables)
  let text ← script conventions options provider.database (.map answers)
  .ok ⟨text, Entries.names answers⟩

end Info
end SurrealSchema
