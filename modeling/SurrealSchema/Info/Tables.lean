import SurrealSchema.Conventions
import SurrealSchema.Info.Database
import SurrealSchema.Info.Field

namespace SurrealSchema
namespace Info

/-!
# Tables from responses

Building the tables of a database from what it says about itself and about each of its tables.
-/

/-- Looks up the response about a table. -/
def lookUp (responses : Value) (name : String) : Except Failure Value :=
  match responses with
  | .map entries => .ok ((Entries.get? name entries).getD .null)
  | _ => .error .notLookup

/-- The field that an entry of a table response describes.  Fields for the elements of arrays and
values that describe no field give none. -/
def field? (conventions : Conventions) (name : String) (raw : Value) :
    Except Failure (Option Field) := do
  if ← conventions.isElementField name then .ok none
  else .ok ((FieldInfo.ofValue? raw).map (FieldInfo.toField name))

/-- The fields in a table response. -/
def fields (conventions : Conventions) (entries : Entries Value) : Except Failure (List Field) :=
  gather (fun (name, raw) => field? conventions name raw) entries

/-- The entries under a name of a table response, none if they are not a map. -/
def entriesUnder (name : String) (response : Entries Value) : Entries Value :=
  ((Entries.get? name response).bind Value.entries?).getD []

/-- The comment of the definition of a table. -/
def description? : Value → Option String
  | .text definition => (Ddl.comment? definition.toList).map String.ofList
  | _ => none

/-- The table that an entry of a database response and the response about it describe.  The store's
own tables and those without a response that is a map give none. -/
def table? (conventions : Conventions) (responses : Value) (name : String) (raw : Value) :
    Except Failure (Option Table) := do
  if ← conventions.isUserTable name then
    match ← lookUp responses name with
    | .map response =>
      let fields ← fields conventions (entriesUnder "fields" response)
      .ok (some ⟨name, description? raw, fields⟩)
    | _ => .ok none
  else .ok none

/-- The tables of a database, in the order in which it lists them. -/
def tablesOf (conventions : Conventions) (database : Database) (responses : Value) :
    Except Failure (List Table) :=
  gather (fun (name, raw) => table? conventions responses name raw) database.tables

/-- The tables that a database response and the responses about its tables describe. -/
def tables (conventions : Conventions) (response responses : Value) :
    Except Failure (List Table) :=
  tablesOf conventions (Database.ofValue response) responses

/-! ## Asking a provider -/

/-- A source of responses. -/
structure Provider where
  database : Value
  table : String → Except Failure Value

/-- The provider that serves given responses. -/
def Provider.serving (response responses : Value) : Provider :=
  ⟨response, lookUp responses⟩

/-- Asks a provider about a table, unless it is one of the store's own. -/
def Provider.ask (provider : Provider) (conventions : Conventions) (name : String) :
    Except Failure (Option (String × Value)) := do
  if ← conventions.isUserTable name then .ok (some (name, ← provider.table name)) else .ok none

/-- Asks a provider about the user tables among some names, in order; gives the answers under the
names that were asked about. -/
def Provider.collect (provider : Provider) (conventions : Conventions) (names : List String) :
    Except Failure (Entries Value) :=
  gather (provider.ask conventions) names

/-- What was learnt from a provider, and the tables it was asked about in order. -/
structure Fetched (α : Type) where
  result : α
  requested : List String

/-- The tables that a provider describes; there must be at least one in its database response. -/
def fetch (conventions : Conventions) (provider : Provider) :
    Except Failure (Fetched (List Table)) := do
  let database := Database.ofValue provider.database
  if database.tables.isEmpty then .error .noTables
  else
    let answers ← provider.collect conventions (Entries.names database.tables)
    let tables ← tablesOf conventions database (.map answers)
    .ok ⟨tables, Entries.names answers⟩

end Info
end SurrealSchema
