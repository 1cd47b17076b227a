import SurrealSchema.Info.Script
import SurrealSchema.Info.Tables
import SurrealSchema.Proofs.Ddl.FieldClauses
import SurrealSchema.Proofs.Ddl.Heads
import SurrealSchema.Proofs.Ddl.Items

namespace SurrealSchema
namespace Info

/-!
# Databases that can be exported

A script says the same about the tables of a database as the responses do if the definitions in the
responses are written the way a store writes them.  Here this is spelled out: what names, table
definitions and field definitions look like, and that what a script carries besides the tables and
their fields, the functions and indexes and so on, defines no tables or fields.
-/

/-! ## Tables -/

/-- Whether a table may have a name: word characters, and no word that stands before names. -/
structure IsTableName (name : String) : Prop where
  isWordName : Ddl.IsWordName name.toList
  notOverwrite : ¬ Text.Spells "OVERWRITE".toList name.toList
  notTable : ¬ Text.Spells "TABLE".toList name.toList

/-- The definition of a table by the clauses behind its name: on one line, with quotes around one
payload at most and semicolons only in it. -/
structure IsTableText (name text : String) (clauses : List Char) : Prop where
  written : text.toList = Ddl.definition "TABLE" (name.toList ++ clauses)
  ends : Text.Halts (fun c => !Text.isBlank c) clauses
  confined : Ddl.Confined clauses
  notExists : Text.Spells "IF".toList name.toList → ¬ Ddl.StartsNotExists clauses

/-! ## Fields -/

/-- Whether a field of a table may have a key: one word, which the conventions take for a part of
another field exactly when its form says so. -/
structure IsFieldKey (conventions : Conventions) (table key : String) : Prop where
  solid : Text.Solid key.toList
  clear : Ddl.Clear key.toList
  element : conventions.isElementField key = .ok (Ddl.isPartName key)
  notOverwrite : Text.Spells "OVERWRITE".toList key.toList → ¬ Text.Spells "ON".toList table.toList

/-- The definition of a field of a table by its clauses. -/
structure IsFieldText (table key text : String) (clauses : Ddl.FieldClauses) : Prop where
  written : text.toList =
    Ddl.definition "FIELD" (Ddl.onTable key.toList table.toList clauses.text)
  valid : clauses.Valid

/-! ## Responses -/

/-- What the response about a table has to be like. -/
structure IsTableResponse (conventions : Conventions) (name : String) (response : Entries Value) :
    Prop where
  distinct : (Entries.names (entriesUnder "fields" response)).Nodup
  keys : ∀ entry ∈ entriesUnder "fields" response, IsFieldKey conventions name entry.1
  fields : ∀ entry ∈ entriesUnder "fields" response,
    ∃ text clauses, entry.2 = .text text ∧ IsFieldText name entry.1 text clauses
  parts : ∀ part ∈ tableParts,
    ∀ item ∈ writeEntries false part.2.2 (entriesUnder part.1 response), Ddl.Quiet item

/-- What an entry for a user table and the response about it have to be like. -/
structure IsTableEntry (conventions : Conventions) (responses : Value) (entry : String × Value) :
    Prop where
  name : IsTableName entry.1
  definition : ∀ text, entry.2 = .text text → ∃ clauses, IsTableText entry.1 text clauses
  response : ∃ response, lookUp responses entry.1 = .ok (.map response) ∧
    IsTableResponse conventions entry.1 response

/-- What the responses about a database have to be like. -/
structure Exportable (conventions : Conventions) (response responses : Value) : Prop where
  prefixes : ∀ value ∈ conventions.systemPrefixes, ∃ text, value = .text text
  entries : ∀ entry ∈ (Database.ofValue response).tables,
    conventions.isUserTable entry.1 = .ok true → IsTableEntry conventions responses entry
  distinct : (Database.ofValue response).tables.Pairwise fun entry other =>
    conventions.isUserTable entry.1 = .ok true → conventions.isUserTable other.1 = .ok true →
      lowerName entry.1 ≠ lowerName other.1
  parts : ∀ part ∈ databaseParts,
    ∀ item ∈ writeEntries false part.2.2 ((Database.ofValue response).part part.1), Ddl.Quiet item

end Info
end SurrealSchema
