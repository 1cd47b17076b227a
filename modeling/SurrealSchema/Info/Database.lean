import SurrealSchema.Value

namespace SurrealSchema
namespace Info

/-!
# Responses about a database

The sections of the response to a request for everything a database defines.
-/

/-- The sections of a database response. -/
inductive Part where
  | tables
  | databases
  | functions
  | configs
  | analyzers
  | apis
  | models
  | params
  | users
  | accesses
  deriving DecidableEq, Repr

namespace Part

/-- All sections, in the order in which a database is described. -/
def all : List Part :=
  [tables, databases, functions, configs, analyzers, apis, models, params, users, accesses]

/-- The name of a section in a response. -/
def name : Part → String
  | tables => "tables"
  | databases => "databases"
  | functions => "functions"
  | configs => "configs"
  | analyzers => "analyzers"
  | apis => "apis"
  | models => "models"
  | params => "params"
  | users => "users"
  | accesses => "accesses"

/-- The section of a name. -/
def ofName? (name : String) : Option Part :=
  all.find? fun part => part.name = name

end Part

/-- The sections of a response that are maps; everything else in a response means nothing. -/
structure Database where
  parts : List (Part × Entries Value)

namespace Database

/-- The sections of a response of any form. -/
def ofValue (response : Value) : Database :=
  match response with
  | .map entries =>
    ⟨Part.all.filterMap fun part =>
      ((Entries.get? part.name entries).bind Value.entries?).map fun found => (part, found)⟩
  | _ => ⟨[]⟩

/-- A section, if the response has it. -/
def part? (database : Database) (part : Part) : Option (Entries Value) :=
  database.parts.lookup part

/-- The entries of a section, none if the response does not have it. -/
def part (database : Database) (part : Part) : Entries Value :=
  (database.part? part).getD []

/-- The entries of the section of a name, none if there is no such section. -/
def partNamed (database : Database) (name : String) : Entries Value :=
  match Part.ofName? name with
  | some part => database.part part
  | none => []

/-- What the response says about each table. -/
def tables (database : Database) : Entries Value :=
  database.part .tables

end Database
end Info
end SurrealSchema
