import SurrealSchema.Proofs.Info.Export
import SurrealSchema.Proofs.Info.OtherKinds
import SurrealSchema.Proofs.Info.Rewriting

namespace SurrealSchema
namespace Info

/-!
# Scripts with changed definitions

The options of a script change the text of its definitions and nothing of its layout, so two scripts
for one database are compared item by item.  If each definition of a table or a field is read alike
with and without the options, the scripts define the same tables.  The definitions of other kinds
are read alike whatever they are.
-/

/-! ## Items that read alike -/

theorem alike_refl (items : List (List Char)) : List.Forall₂ Ddl.ReadAlike items items :=
  List.forall₂_same.mpr fun item _ => Ddl.ReadAlike.refl item

theorem alike_flatMap {α : Type} {values : List α} {items others : α → List (List Char)}
    (h : ∀ value ∈ values, List.Forall₂ Ddl.ReadAlike (items value) (others value)) :
    List.Forall₂ Ddl.ReadAlike (values.flatMap items) (values.flatMap others) := by
  induction values with
  | nil => exact .nil
  | cons value values ih =>
      obtain ⟨hfirst, hmore⟩ := List.forall_mem_cons.mp h
      rw [List.flatMap_cons, List.flatMap_cons]
      exact List.rel_append hfirst (ih hmore)

/-- Entries that read alike one by one are written alike. -/
theorem alike_writeEntries {overwrite : Bool} {kind : String} {entries : Entries Value}
    (h : ∀ entry ∈ entries, ∀ text, entry.2 = .text text →
      Ddl.ReadAlike (Ddl.terminated text.toList) (writeDefinition overwrite kind text.toList)) :
    List.Forall₂ Ddl.ReadAlike (writeEntries false kind entries)
      (writeEntries overwrite kind entries) := by
  induction entries with
  | nil => exact .nil
  | cons entry entries ih =>
      obtain ⟨name, raw⟩ := entry
      obtain ⟨hfirst, hmore⟩ := List.forall_mem_cons.mp h
      have hrest := ih hmore
      cases raw with
      | text definition => exact .cons (hfirst definition rfl) hrest
      | _ => exact hrest

/-- The sections of a database are written alike. -/
theorem alike_databaseLines (overwrite : Bool) (database : Database)
    {part : Part × String × String} (hpart : part ∈ databaseParts) :
    List.Forall₂ Ddl.ReadAlike (databaseLines false database part.1 part.2.1 part.2.2)
      (databaseLines overwrite database part.1 part.2.1 part.2.2) := by
  have hkinds : ∀ part ∈ databaseParts, IsOtherKind part.2.2 := by decide
  have hentries : List.Forall₂ Ddl.ReadAlike
      (writeEntries false part.2.2 (database.part part.1))
      (writeEntries overwrite part.2.2 (database.part part.1)) :=
    alike_writeEntries fun _ _ text _ =>
      readAlike_writeDefinition (hkinds part hpart) overwrite text.toList
  unfold databaseLines
  dsimp only
  split
  · exact .nil
  · refine List.rel_append (alike_refl _) (List.rel_flatMap hentries ?_)
    intro definition other h
    exact .cons h (alike_refl _)

/-- The sections of a table besides the fields are, too. -/
theorem alike_tablePartLines (overwrite : Bool) (response : Entries Value)
    {part : String × String × String} (hpart : part ∈ tableParts) :
    List.Forall₂ Ddl.ReadAlike (tablePartLines false response part.1 part.2.1 part.2.2)
      (tablePartLines overwrite response part.1 part.2.1 part.2.2) := by
  have hkinds : ∀ part ∈ tableParts, IsOtherKind part.2.2 := by decide
  unfold tablePartLines
  dsimp only
  split
  · exact .nil
  · exact List.rel_append (alike_refl _) (alike_writeEntries fun _ _ text _ =>
      readAlike_writeDefinition (hkinds part hpart) overwrite text.toList)

/-! ## Databases -/

/-- Whether a definition of a field is kept when it is made to overwrite. -/
structure IsKeptField (overwrite : Bool) (definition : List Char) : Prop
    extends IsFieldLine definition where
  condition : overwrite = true → ¬ IsConditional "FIELD" definition

instance (overwrite : Bool) (definition : List Char) :
    Decidable (IsKeptField overwrite definition) :=
  decidable_of_iff
    (IsFieldLine definition ∧ (overwrite = true → ¬ IsConditional "FIELD" definition))
    ⟨fun h => ⟨h.1, h.2⟩, fun h => ⟨h.toIsFieldLine, h.condition⟩⟩

/-- Whether options change nothing but what they name in the definitions of a database: in those of
the user tables and of their fields.  The other definitions may be any. -/
structure KeepsDefinitions (conventions : Conventions) (options : ScriptOptions)
    (response responses : Value) : Prop where
  prefixes : ∀ value ∈ conventions.systemPrefixes, ∃ text, value = .text text
  answered : ∃ answers, responses = .map answers
  words : ForcesWords options
  tables : ∀ entry ∈ users conventions response,
    IsKeptTable options (tableDefinition entry.1 entry.2)
  fields : ∀ entry ∈ users conventions response,
    ∀ field ∈ entriesUnder "fields" (responseOf responses entry.1), ∀ text,
      field.2 = .text text → IsKeptField options.overwrite text.toList

/-- The items of a script. -/
def writtenItems (conventions : Conventions) (options : ScriptOptions)
    (response responses : Value) : List (List Char) :=
  openingLines
    ++ databaseParts.flatMap (fun (part, title, kind) =>
      databaseLines options.overwrite (Database.ofValue response) part title kind)
    ++ (if (users conventions response).isEmpty then [] else heading "TABLES".toList)
    ++ (users conventions response).flatMap fun entry =>
      tableLines options entry.1 entry.2 (.map (responseOf responses entry.1))

/-- A script is made of its items. -/
theorem script_eq_writtenItems {conventions : Conventions}
    (hprefixes : ∀ value ∈ conventions.systemPrefixes, ∃ text, value = .text text)
    (options : ScriptOptions) (response : Value) (answers : Entries Value) :
    script conventions options response (.map answers) =
      .ok (String.ofList (['\n'].intercalate
        (writtenItems conventions options response (.map answers)))) := by
  have hlines : ((users conventions response).mapM fun entry =>
      lookUp (.map answers) entry.1 >>= fun found =>
        .ok (tableLines options entry.1 entry.2 found) :
        Except Failure (List (List (List Char)))) =
      .ok ((users conventions response).map fun entry =>
        tableLines options entry.1 entry.2 (.map (responseOf (.map answers) entry.1))) := by
    apply mapM_eq_ok
    intro entry _
    dsimp only [lookUp, responseOf, tableLines]
    cases (Entries.get? entry.1 answers).getD .null <;> rfl
  unfold script
  dsimp only
  rw [userTables_eq_ok hprefixes]
  show (((users conventions response).mapM fun entry =>
    lookUp (.map answers) entry.1 >>= fun found =>
      .ok (tableLines options entry.1 entry.2 found) :
      Except Failure (List (List (List Char)))) >>= fun lines => _) = _
  rw [hlines]
  rfl

section Keeping

variable {conventions : Conventions} {options : ScriptOptions} {response responses : Value}
  (h : KeepsDefinitions conventions options response responses)
include h

/-- A table is written alike with its fields and other sections. -/
theorem alike_tableLines {entry : String × Value} (hmem : entry ∈ users conventions response) :
    List.Forall₂ Ddl.ReadAlike
      (tableLines .unchanged entry.1 entry.2 (.map (responseOf responses entry.1)))
      (tableLines options entry.1 entry.2 (.map (responseOf responses entry.1))) := by
  have htable := readAlike_writeTable h.words (h.tables entry hmem)
  have hfields : List.Forall₂ Ddl.ReadAlike
      (writeEntries false "FIELD" (entriesUnder "fields" (responseOf responses entry.1)))
      (writeEntries options.overwrite "FIELD"
        (entriesUnder "fields" (responseOf responses entry.1))) :=
    alike_writeEntries fun field hfield text htext =>
      (h.fields entry hmem field hfield text htext).readAlike_writeDefinition
        (h.fields entry hmem field hfield text htext).condition
  unfold tableLines responseLines
  refine List.rel_append (List.rel_append (alike_refl _)
    (.cons (Ddl.ReadAlike.refl _) (.cons htable (alike_refl _))))
    (List.rel_append hfields (alike_flatMap fun part hpart => ?_))
  exact alike_tablePartLines options.overwrite _ hpart

/-- All items of a script read alike with and without the options. -/
theorem alike_writtenItems :
    List.Forall₂ Ddl.ReadAlike (writtenItems conventions .unchanged response responses)
      (writtenItems conventions options response responses) := by
  unfold writtenItems
  refine List.rel_append (List.rel_append (List.rel_append (alike_refl _)
    (alike_flatMap fun part hpart => ?_)) (alike_refl _))
    (alike_flatMap fun entry hmem => alike_tableLines h hmem)
  exact alike_databaseLines options.overwrite _ hpart

/-- **Options that keep the definitions of tables and fields change no table.**  Both scripts are
written, and they define the same tables with the same descriptions and fields. -/
theorem parse_script_options :
    ∃ text changed, script conventions .unchanged response responses = .ok text ∧
      script conventions options response responses = .ok changed ∧
      Ddl.parse changed = Ddl.parse text := by
  obtain ⟨answers, rfl⟩ := h.answered
  exact ⟨_, _, script_eq_writtenItems h.prefixes .unchanged response answers,
    script_eq_writtenItems h.prefixes options response answers,
    (Ddl.parse_eq_of_readAlike (alike_writtenItems h)).symm⟩

end Keeping

/-! ## A database that is kept -/

/-- A database with a function, a table with a comment, and a table of which only the name is
known. -/
def edgeDatabase : Value :=
  .map [
    ("functions", .map [
      ("greet", .text "DEFINE FUNCTION fn::greet() \x7b RETURN 'Hi; you'; \x7d")]),
    ("tables", .map [
      ("_log", .null),
      ("likes", .text "DEFINE TABLE likes TYPE NORMAL SCHEMAFULL COMMENT 'Edge type; all'"),
      ("note", .null)])]

/-- The responses about its tables. -/
def edgeTables : Value :=
  .map [
    ("likes", .map [
      ("fields", .map [
        ("since", .text "DEFINE FIELD since ON likes TYPE datetime COMMENT 'Start'")]),
      ("indexes", .map [("since", .text "DEFINE INDEX since ON likes FIELDS since")])]),
    ("note", .map [])]

/-- The conditions hold of a database where all three options change something. -/
theorem parse_script_options_edge :
    KeepsDefinitions .standard ⟨true, some "any", some "schemaless"⟩ edgeDatabase edgeTables ∧
      ∃ text changed, script .standard .unchanged edgeDatabase edgeTables = .ok text ∧
        script .standard ⟨true, some "any", some "schemaless"⟩ edgeDatabase edgeTables =
          .ok changed ∧
        Ddl.parse changed = Ddl.parse text := by
  have hlikes : IsKeptTable ⟨true, some "any", some "schemaless"⟩
      "DEFINE TABLE likes TYPE NORMAL SCHEMAFULL COMMENT 'Edge type; all'".toList := by
    decide +kernel
  have hnote : IsKeptTable ⟨true, some "any", some "schemaless"⟩ (plainDefinition "note") := by
    decide +kernel
  have hsince : IsKeptField true
      "DEFINE FIELD since ON likes TYPE datetime COMMENT 'Start'".toList := by
    decide +kernel
  have hkeeps : KeepsDefinitions .standard ⟨true, some "any", some "schemaless"⟩ edgeDatabase
      edgeTables := by
    refine ⟨?_, ⟨_, rfl⟩, by decide +kernel, ?_, ?_⟩
    · exact List.forall_mem_cons.mpr ⟨⟨_, rfl⟩, List.forall_mem_singleton.mpr ⟨_, rfl⟩⟩
    · exact List.forall_mem_cons.mpr ⟨hlikes, List.forall_mem_singleton.mpr hnote⟩
    · refine List.forall_mem_cons.mpr ⟨List.forall_mem_singleton.mpr fun text htext => ?_,
        List.forall_mem_singleton.mpr (List.forall_mem_nil _)⟩
      rw [← Value.text.inj htext]
      exact hsince
  exact ⟨hkeeps, parse_script_options hkeeps⟩

/-! ## Databases that are changed -/

/-- Whether the script with options defines the tables of the script without. -/
def keepsTables (conventions : Conventions) (options : ScriptOptions) (response responses : Value) :
    Bool :=
  match script conventions .unchanged response responses,
    script conventions options response responses with
  | .ok text, .ok changed => Ddl.parse changed = Ddl.parse text
  | _, _ => false

/-- Reading the scripts needs their items only, not the texts they are joined to. -/
theorem keepsTables_eq (options : ScriptOptions) (response : Value) (answers : Entries Value) :
    keepsTables .standard options response (.map answers) =
      decide ((Ddl.State.initial.readText (['\n'].intercalate
          (writtenItems .standard options response (.map answers)))).finish =
        (Ddl.State.initial.readText (['\n'].intercalate
          (writtenItems .standard .unchanged response (.map answers)))).finish) := by
  have hprefixes : ∀ value ∈ Conventions.standard.systemPrefixes, ∃ text, value = .text text :=
    List.forall_mem_cons.mpr ⟨⟨_, rfl⟩, List.forall_mem_singleton.mpr ⟨_, rfl⟩⟩
  unfold keepsTables
  rw [script_eq_writtenItems hprefixes, script_eq_writtenItems hprefixes]
  dsimp only
  rw [Ddl.parse_ofList, Ddl.parse_ofList]

/-- A forced type takes the place of words in the comment of a table without a type clause. -/
theorem keepsTables_comment :
    let definition := "DEFINE TABLE likes SCHEMAFULL COMMENT 'Edge type between users'"
    (IsTableLine definition.toList ∧
      Ddl.definedTable? (Ddl.terminated definition.toList) = some "likes" ∧
      IsForcedWord "any") ∧
      keepsTables .standard ⟨false, some "any", none⟩ (oneTable "likes" definition)
        (.map [("likes", .map [])]) = false := by
  refine ⟨by decide +kernel, ?_⟩
  rw [keepsTables_eq]
  decide +kernel

/-- The other conditions on words and on where clauses stand are needed, too: types and modes in the
name of a table; modes in a comment; definitions with a condition that are made to overwrite; types
that are taken for the keyword of a comment; and modes that are taken for the end of a modifier. -/
theorem keepsTables_eq_false :
    keepsTables .standard ⟨false, some "any", none⟩ (oneTable "type" "DEFINE TABLE type SCHEMAFULL")
        (.map []) = false ∧
      keepsTables .standard ⟨false, none, some "schemaless"⟩
        (oneTable "schemafull" "DEFINE TABLE schemafull TYPE NORMAL") (.map []) = false ∧
      keepsTables .standard ⟨false, none, some "schemaless"⟩
        (oneTable "log" "DEFINE TABLE log COMMENT 'schemafull before'") (.map []) = false ∧
      keepsTables .standard ⟨true, none, none⟩
        (oneTable "user" "DEFINE TABLE IF NOT EXISTS user") (.map []) = false ∧
      keepsTables .standard ⟨true, none, none⟩ (oneTable "user" "DEFINE TABLE user")
        (oneEntry "user" "fields" "name"
          "DEFINE FIELD IF NOT EXISTS name ON user TYPE string") = false ∧
      keepsTables .standard ⟨false, some "comment", none⟩
        (oneTable "user" "DEFINE TABLE user TYPE NORMAL PERMISSIONS FOR select WHERE name = 'x'")
        (.map []) = false ∧
      keepsTables .standard ⟨false, none, some "not"⟩
        (oneTable "IF" "DEFINE TABLE IF SCHEMAFULL EXISTS user") (.map []) = false ∧
      keepsTables .standard ⟨false, none, some "exists"⟩
        (oneTable "IF" "DEFINE TABLE IF NOT SCHEMAFULL user") (.map []) = false := by
  unfold oneEntry
  simp only [keepsTables_eq]
  decide +kernel

end Info
end SurrealSchema
