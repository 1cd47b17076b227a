import SurrealSchema.Conventions

namespace SurrealSchema

/-!
# Settings

Reading the connection details and the naming conventions from a value of free form.
-/

/-- The details of a connection, none of which is checked. -/
structure Connection where
  url : Value
  username : Value
  password : Value
  namespaceName : Value
  database : Value

/-- All settings. -/
structure Settings where
  connection : Connection
  conventions : Conventions

namespace Connection

/-- A connection of which nothing is set. -/
def unset : Connection :=
  ⟨.null, .null, .null, .null, .null⟩

/-- The address to connect to, which has to be set. -/
def requireUrl (connection : Connection) : Except Failure Value :=
  if connection.url.isTruthy then .ok connection.url else .error (.missingSetting "connection.url")

/-- The connection of a section of the settings. -/
def ofSection (entries : Entries Value) : Connection :=
  let setting (name : String) : Value := (Entries.get? name entries).getD .null
  ⟨setting "url", setting "username", setting "password", setting "namespace", setting "database"⟩

end Connection

namespace Conventions

/-- The values that a collection goes through: the characters of a text, the items of a list and
the keys of a map. -/
def items : Value → Except Failure (List Value)
  | .text value => .ok (value.toList.map fun c => .text (String.ofList [c]))
  | .list items => .ok items
  | .map entries => .ok ((Entries.names entries).map .text)
  | _ => .error .wrongKind

/-- The values of a list, of those that are equal just the first. -/
def distinct : List Value → List Value
  | [] => []
  | value :: values => value :: (distinct values).filter fun other => !value.sameScalar other

/-- The values that a collection goes through, each once; lists and maps cannot be compared. -/
def distinctItems (value : Value) : Except Failure (List Value) := do
  let values ← items value
  if values.all Value.isScalar then .ok (distinct values) else .error .wrongKind

/-- The conventions of a section of the settings. -/
def ofSection (entries : Entries Value) : Except Failure Conventions := do
  let systemPrefixes ←
    match Entries.get? "system_table_prefixes" entries with
    | some value => items value
    | none => .ok standard.systemPrefixes
  let vectorFields ←
    match Entries.get? "float_vector_fields" entries with
    | some value => distinctItems value
    | none => .ok standard.vectorFields
  let elementMarker := (Entries.get? "array_element_marker" entries).getD standard.elementMarker
  .ok { systemPrefixes, elementMarker, vectorFields }

/-! ## Ascending order -/

/-- Inserts a value before the first one that it is below. -/
def insertSorted (below : Value → Value → Bool) (value : Value) : List Value → List Value
  | [] => [value]
  | other :: values =>
    if below value other then value :: other :: values
    else other :: insertSorted below value values

/-- Whether a number is below another one. -/
def numberBelow (value other : Value) : Bool :=
  match value.number?, other.number? with
  | some n, some n' => Value.numberBelow n n'
  | _, _ => false

/-- Whether a text is below another one, by code points. -/
def textBelow (value other : Value) : Bool :=
  match value.text?, other.text? with
  | some s, some s' => s < s'
  | _, _ => false

/-- The names of the fields that hold vectors, in ascending order.  Only texts among themselves
and numbers among themselves have an order. -/
def sortedVectorFields (conventions : Conventions) : Except Failure (List Value) :=
  let values := conventions.vectorFields
  if values.length ≤ 1 then .ok values
  else if values.all fun value => value.text?.isSome then
    .ok (values.foldl (fun sorted value => insertSorted textBelow value sorted) [])
  else if values.all fun value => value.number?.isSome then
    .ok (values.foldl (fun sorted value => insertSorted numberBelow value sorted) [])
  else .error .wrongKind

end Conventions

namespace Settings

/-- What holds when nothing is set. -/
def standard : Settings :=
  ⟨.unset, .standard⟩

/-- The names of a map that are not among the known ones, in ascending order. -/
def unknownNames (known : List String) (entries : Entries Value) : List String :=
  ((Entries.names entries).filter fun name => !known.contains name).mergeSort fun s s' => s ≤ s'

/-- Refuses entries with unknown names. -/
def checkNames (name : String) (known : List String) (entries : Entries Value) :
    Except Failure Unit :=
  match unknownNames known entries with
  | [] => .ok ()
  | keys => .error (.unknownKeys name keys)

/-- A section of the settings, empty if it is absent or null. -/
def sectionOf (data : Entries Value) (name : String) (known : List String) :
    Except Failure (Entries Value) :=
  match (Entries.get? name data).getD .null with
  | .null => .ok []
  | .map entries => do
    checkNames name known entries
    .ok entries
  | _ => .error (.sectionNotMap name)

/-- The settings that a value of free form holds; null holds none. -/
def ofValue : Value → Except Failure Settings
  | .null => .ok standard
  | .map data => do
    checkNames "config" ["connection", "conventions"] data
    let connection ← sectionOf data "connection"
      ["url", "username", "password", "namespace", "database"]
    let conventions ← sectionOf data "conventions"
      ["system_table_prefixes", "array_element_marker", "float_vector_fields"]
    let conventions ← Conventions.ofSection conventions
    .ok ⟨Connection.ofSection connection, conventions⟩
  | _ => .error .settingsNotMap

end Settings
end SurrealSchema
