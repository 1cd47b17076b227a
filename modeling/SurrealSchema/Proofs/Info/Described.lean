import SurrealSchema.Proofs.Info.Definitions

namespace SurrealSchema
namespace Info

/-!
# What responses describe

Where the responses about a database can be exported, reading them and writing them as a script both
succeed.  The tables that are read are the described tables, one for every user table, and the
script is made of the items for every user table.
-/

/-! ## Reading the responses -/

/-- Where every reading succeeds, what is gathered is what is kept. -/
theorem gather_eq_ok {α β : Type} {read : α → Except Failure (Option β)} {keep : α → Bool}
    {value : α → β} {items : List α}
    (h : ∀ item ∈ items, read item = .ok (if keep item then some (value item) else none)) :
    gather read items = .ok ((items.filter keep).map value) := by
  induction items with
  | nil => rfl
  | cons item items ih =>
      have hrest := ih fun other hmem => h other (List.mem_cons_of_mem _ hmem)
      rw [gather, h item List.mem_cons_self, hrest]
      cases hkeep : keep item with
      | true => simp [hkeep, bind, Except.bind]
      | false => simp [hkeep, bind, Except.bind]

/-- Where every item succeeds, so do all together. -/
theorem mapM_eq_ok {α β : Type} {read : α → Except Failure β} {value : α → β} {items : List α}
    (h : ∀ item ∈ items, read item = .ok (value item)) :
    items.mapM read = .ok (items.map value) := by
  induction items with
  | nil => rfl
  | cons item items ih =>
      have hrest := ih fun other hmem => h other (List.mem_cons_of_mem _ hmem)
      rw [List.mapM_cons, h item List.mem_cons_self, hrest]
      rfl

/-- Whether a table is a user's one; none is if this cannot be told. -/
def isUser (conventions : Conventions) (entry : String × Value) : Bool :=
  match conventions.isUserTable entry.1 with
  | .ok value => value
  | .error _ => false

/-- The entries of the user tables of a database. -/
def users (conventions : Conventions) (response : Value) : Entries Value :=
  (Database.ofValue response).tables.filter (isUser conventions)

/-- The response about a table, empty if there is none. -/
def responseOf (responses : Value) (name : String) : Entries Value :=
  match lookUp responses name with
  | .ok (.map response) => response
  | _ => []

/-- The field that an entry with a definition describes. -/
def describedField (entry : String × Value) : Field :=
  FieldInfo.fieldOfStatement entry.1 (entry.2.text?.getD "")

/-- The fields that entries with definitions describe, parts of fields left out. -/
def describedFields (entries : Entries Value) : List Field :=
  (entries.filter fun entry => !Ddl.isPartName entry.1).map describedField

theorem name_describedField (entry : String × Value) : (describedField entry).name = entry.1 := by
  unfold describedField FieldInfo.fieldOfStatement
  dsimp only
  split <;> rfl

theorem describedFields_cons (entry : String × Value) (entries : Entries Value) :
    describedFields (entry :: entries) = describedFields [entry] ++ describedFields entries := by
  unfold describedFields
  rw [← List.map_append, ← List.filter_append, List.singleton_append]

/-- Described fields are named by their entries. -/
theorem name_of_mem_describedFields {entries : Entries Value} {field : Field}
    (h : field ∈ describedFields entries) : field.name ∈ Entries.names entries := by
  obtain ⟨entry, hmem, rfl⟩ := List.mem_map.mp h
  rw [name_describedField]
  exact List.mem_map_of_mem (List.mem_of_mem_filter hmem)

/-- The table that an entry and the response about it describe. -/
def describedTable (responses : Value) (entry : String × Value) : Table :=
  ⟨entry.1, description? entry.2,
    describedFields (entriesUnder "fields" (responseOf responses entry.1))⟩

theorem startsWithAny_eq_ok {values : List Value}
    (hvalues : ∀ value ∈ values, ∃ text, value = .text text)
    (name : List Char) : ∃ value, Conventions.startsWithAny name values = .ok value := by
  induction values with
  | nil => exact ⟨false, rfl⟩
  | cons value values ih =>
      obtain ⟨text, rfl⟩ := hvalues value List.mem_cons_self
      rw [Conventions.startsWithAny]
      split
      · exact ⟨true, rfl⟩
      · exact ih fun other hmem => hvalues other (List.mem_cons_of_mem _ hmem)

section Prefixes

variable {conventions : Conventions}
  (hprefixes : ∀ value ∈ conventions.systemPrefixes, ∃ text, value = .text text)
include hprefixes

/-- Where the prefixes of the store's own tables are texts, a table is a user's one or not. -/
theorem isUserTable_of_prefixes (entry : String × Value) :
    conventions.isUserTable entry.1 = .ok (isUser conventions entry) := by
  obtain ⟨value, hvalue⟩ := startsWithAny_eq_ok hprefixes entry.1.toList
  unfold isUser Conventions.isUserTable
  rw [hvalue]
  rfl

theorem userTables_eq_ok (response : Value) :
    userTables conventions (Database.ofValue response).tables =
      .ok (users conventions response) := by
  have hgather : userTables conventions (Database.ofValue response).tables =
      .ok ((users conventions response).map id) := by
    apply gather_eq_ok
    intro entry hmem
    obtain ⟨name, raw⟩ := entry
    have huser := isUserTable_of_prefixes hprefixes (name, raw)
    dsimp only at huser ⊢
    rw [huser]
    cases isUser conventions (name, raw) <;> rfl
  rw [hgather, List.map_id]

end Prefixes

section Described

variable {conventions : Conventions} {response responses : Value}

theorem isUserTable_eq_ok (h : Exportable conventions response responses) (entry : String × Value) :
    conventions.isUserTable entry.1 = .ok (isUser conventions entry) :=
  isUserTable_of_prefixes h.prefixes entry

theorem isTableEntry_of_mem_users (h : Exportable conventions response responses)
    {entry : String × Value} (hmem : entry ∈ users conventions response) :
    IsTableEntry conventions responses entry := by
  obtain ⟨hentry, huser⟩ := List.mem_filter.mp hmem
  apply h.entries entry hentry
  rw [isUserTable_eq_ok h, huser]

theorem responseOf_eq {name : String} {found : Entries Value}
    (h : lookUp responses name = .ok (.map found)) : responseOf responses name = found := by
  unfold responseOf
  rw [h]

/-- The fields in a response are the described ones. -/
theorem fields_eq_ok {name : String} {found : Entries Value}
    (h : IsTableResponse conventions name found) :
    fields conventions (entriesUnder "fields" found) =
      .ok (describedFields (entriesUnder "fields" found)) := by
  apply gather_eq_ok
  intro entry hmem
  obtain ⟨key, raw⟩ := entry
  obtain ⟨text, clauses, hraw, -⟩ := h.fields _ hmem
  have helement := (h.keys _ hmem).element
  dsimp only at hraw helement ⊢
  rw [hraw, field?, helement]
  cases Ddl.isPartName key <;> rfl

/-- **The tables that the responses describe**: one for every user table. -/
theorem tables_eq_ok (h : Exportable conventions response responses) :
    tables conventions response responses =
      .ok ((users conventions response).map (describedTable responses)) := by
  apply gather_eq_ok
  intro entry hmem
  obtain ⟨name, raw⟩ := entry
  have huser := isUserTable_eq_ok h (name, raw)
  dsimp only at huser ⊢
  rw [table?, huser]
  cases hkept : isUser conventions (name, raw) with
  | false => rfl
  | true =>
      obtain ⟨found, hfound, hresponse⟩ :=
        (isTableEntry_of_mem_users h (List.mem_filter.mpr ⟨hmem, hkept⟩)).response
      have hfields := fields_eq_ok hresponse
      dsimp only at hfound
      unfold describedTable
      dsimp only
      rw [responseOf_eq hfound]
      simp only [bind, Except.bind, hfound, hfields, if_true]

/-! ## Writing the script -/

/-- The lines of a script before they are joined to a text. -/
def scriptLines (conventions : Conventions) (response responses : Value) :
    Except Failure (List (List Char)) := do
  let database := Database.ofValue response
  let tables ← userTables conventions database.tables
  let lines ← tables.mapM fun (name, raw) => do
    .ok (tableLines .unchanged name raw (← lookUp responses name))
  .ok (openingLines
    ++ databaseParts.flatMap (fun (part, title, kind) =>
      databaseLines false database part title kind)
    ++ (if tables.isEmpty then [] else heading "TABLES".toList)
    ++ lines.flatten)

/-- A script is its lines joined to a text. -/
theorem script_eq_map (conventions : Conventions) (response responses : Value) :
    script conventions .unchanged response responses =
      (scriptLines conventions response responses).map fun lines =>
        String.ofList (['\n'].intercalate lines) := by
  have hjoin : ∀ (front : List (List Char)) (lines : Except Failure (List (List (List Char)))),
      (lines >>= fun lines =>
          Except.ok (String.ofList (['\n'].intercalate (front ++ lines.flatten)))) =
        (lines >>= fun lines => Except.ok (front ++ lines.flatten)).map fun lines =>
          String.ofList (['\n'].intercalate lines) := by
    intro front lines
    cases lines <;> rfl
  unfold script scriptLines
  dsimp only
  cases userTables conventions (Database.ofValue response).tables with
  | error failure => rfl
  | ok tables => exact hjoin _ _

/-- The items of the script that is written where nothing is changed. -/
def scriptItems (conventions : Conventions) (response responses : Value) : List (List Char) :=
  openingLines
    ++ databaseParts.flatMap (fun (part, title, kind) =>
      databaseLines false (Database.ofValue response) part title kind)
    ++ (if (users conventions response).isEmpty then [] else heading "TABLES".toList)
    ++ (users conventions response).flatMap fun entry =>
      tableLines .unchanged entry.1 entry.2 (.map (responseOf responses entry.1))

/-- **The script that the responses give**: its items, each on lines of its own. -/
theorem script_eq_ok (h : Exportable conventions response responses) :
    script conventions .unchanged response responses =
      .ok (String.ofList (['\n'].intercalate (scriptItems conventions response responses))) := by
  have husers := userTables_eq_ok h.prefixes response
  have hlines : ((users conventions response).mapM fun (name, raw) => do
      .ok (tableLines .unchanged name raw (← lookUp responses name)) :
        Except Failure (List (List (List Char)))) =
      .ok ((users conventions response).map fun entry =>
        tableLines .unchanged entry.1 entry.2 (.map (responseOf responses entry.1))) := by
    apply mapM_eq_ok
    intro entry hmem
    obtain ⟨found, hfound, -⟩ := (isTableEntry_of_mem_users h hmem).response
    dsimp only
    rw [hfound, responseOf_eq hfound]
    rfl
  have hitems : scriptLines conventions response responses =
      .ok (scriptItems conventions response responses) := by
    unfold scriptLines
    dsimp only
    rw [husers]
    show (((users conventions response).mapM fun (name, raw) => do
      .ok (tableLines .unchanged name raw (← lookUp responses name)) :
        Except Failure (List (List (List Char)))) >>= fun lines => _) = _
    rw [hlines]
    rfl
  rw [script_eq_map, hitems]
  rfl

end Described

end Info
end SurrealSchema
