import SurrealSchema.Value

namespace SurrealSchema

/-!
# Failures

Why settings, introspection responses or look-ups cannot be used.  Parsing and inference never
fail.
-/

/-- The cause of a failure. -/
inductive Failure where
  /-- The settings as a whole are not a map. -/
  | settingsNotMap
  /-- A part of the settings is not a map. -/
  | sectionNotMap (name : String)
  /-- A part of the settings has keys that mean nothing; they are in ascending order. -/
  | unknownKeys (name : String) (keys : List String)
  /-- A setting that is needed is not there. -/
  | missingSetting (key : String)
  /-- An introspection response lists no tables. -/
  | noTables
  /-- No table has the name that is looked up. -/
  | unknownTable (name : String)
  /-- A value stands where one of its kind cannot be used. -/
  | wrongKind
  /-- Table responses are looked up in a value that is not a map. -/
  | notLookup
  /-- A selection is asked for a path without segments. -/
  | emptyPath
  /-- A value stands where a shape is expected. -/
  | notShape (value : Value)

namespace Failure

/-- The words in which a failure is reported. -/
def message : Failure → String
  | settingsNotMap => "Configuration must be a mapping"
  | sectionNotMap name => s!"Configuration section '{name}' must be a mapping"
  | unknownKeys name keys =>
    "Unknown keys in '" ++ name ++ "': " ++ ", ".intercalate keys
  | missingSetting key => s!"Missing required configuration value: '{key}'"
  | noTables => "No tables found in schema information"
  | unknownTable name => "Unknown table: " ++ name
  | wrongKind => "A value of the wrong kind"
  | notLookup => "Table responses are not a map"
  | emptyPath => "An empty path"
  | notShape value => "Not a shape: " ++ String.ofList value.written

end Failure

/-- What is read from the elements of a list, in order; reading an element may give nothing, and the
first failure ends the reading. -/
def gather {α β : Type} (read : α → Except Failure (Option β)) : List α → Except Failure (List β)
  | [] => .ok []
  | x :: xs => do
    match ← read x with
    | some y => .ok (y :: (← gather read xs))
    | none => gather read xs

end SurrealSchema
