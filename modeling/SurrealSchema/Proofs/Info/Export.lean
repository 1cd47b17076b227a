import SurrealSchema.Proofs.Info.Described

namespace SurrealSchema
namespace Info

/-!
# Exporting a database and reading the script

The tables of a database are built in two ways: straight from the responses about it, and by writing
the responses as a script and reading the script.  Both ways keep the user tables in their order, so
they are compared table by table, and within a table field by field.  Headings and the other
definitions of a script are quiet, and a blank line stands between a heading and the next
definition.
-/

/-! ## Quiet items -/

/-- Whether an item defines nothing and may be followed by another one. -/
def Passes (item : List Char) : Prop :=
  Ddl.Quiet item ∧ Text.EndsInLine item

instance (item : List Char) : Decidable (Passes item) :=
  inferInstanceAs (Decidable (_ ∧ _))

theorem passes_nil : Passes [] := by decide

/-- Titles are clear and do not end in a blank. -/
def IsTitle (title : List Char) : Prop :=
  Ddl.Clear title ∧ (title.getLast?.any fun c => !Text.isBlank c) = true

instance (title : List Char) : Decidable (IsTitle title) :=
  inferInstanceAs (Decidable (_ ∧ _))

/-- A title as a comment passes. -/
theorem IsTitle.passes {title : List Char} (h : IsTitle title) :
    Passes ("-- ".toList ++ title) := by
  have hdashes : Ddl.Clear "-- ".toList := by decide
  have hunbroken : Text.Unbroken ("-- ".toList ++ title) :=
    (Ddl.Confined.clear (hdashes.append h.1)).unbroken
  have hne : title ≠ [] := by
    rintro rfl
    exact absurd h.2 (by decide)
  have htrimmed : Text.Trimmed ("-- ".toList ++ title) := by
    constructor
    · intro c hc
      rw [← Option.some.inj hc]
      decide
    · intro c hc
      have hlast := h.2
      rw [List.getLast?_append_of_ne_nil _ hne] at hc
      rw [hc] at hlast
      simpa using hlast
  exact ⟨Ddl.quiet_of_comment hunbroken htrimmed rfl, hunbroken.endsInLine⟩

theorem passes_rule : Passes rule :=
  (by decide : IsTitle "------------------------------".toList).passes

/-- The lines that every script starts with pass. -/
theorem passes_of_mem_openingLines {item : List Char} (hmem : item ∈ openingLines) :
    Passes item := by
  have htitle : IsTitle "SCHEMA DEFINITIONS".toList := by decide
  have hoption : Passes "OPTION IMPORT;".toList := by decide +kernel
  simp only [openingLines, List.mem_cons, List.not_mem_nil, or_false] at hmem
  rcases hmem with rfl | rfl | rfl | rfl | rfl | rfl
  · exact passes_rule
  · exact htitle.passes
  · exact passes_rule
  · exact passes_nil
  · exact hoption
  · exact passes_nil

theorem isTitle_table {name : String} (hname : IsTableName name) :
    IsTitle ("TABLE: ".toList ++ name.toList) := by
  have hword := hname.isWordName
  have hhead : Ddl.Clear "TABLE: ".toList := by decide
  refine ⟨hhead.append (clear_of_isWordName hword), ?_⟩
  rw [List.getLast?_append_of_ne_nil _ hword.1, List.getLast?_eq_some_getLast hword.1]
  simp [hword.solid.2 _ (List.getLast_mem hword.1)]

/-- A heading passes. -/
theorem passes_of_mem_heading {title : List Char} (htitle : IsTitle title)
    {item : List Char} (hmem : item ∈ heading title) : Passes item := by
  simp only [heading, List.mem_cons, List.not_mem_nil, or_false] at hmem
  rcases hmem with rfl | rfl | rfl | rfl
  · exact passes_nil
  · exact passes_rule
  · exact htitle.passes
  · exact passes_rule

/-- What is written for entries are definitions with semicolons at their ends. -/
theorem endsInLine_of_mem_writeEntries {kind : String} {entries : Entries Value} {item : List Char}
    (h : item ∈ writeEntries false kind entries) : Text.EndsInLine item := by
  obtain ⟨raw, -, hitem⟩ := List.mem_filterMap.mp h
  obtain ⟨text, -, rfl⟩ := Option.map_eq_some_iff.mp hitem
  exact Ddl.endsInLine_terminated _

section Sections

variable {conventions : Conventions} {response responses : Value}

/-- The lines for a section of the database pass. -/
theorem passes_of_mem_databaseLines (h : Exportable conventions response responses)
    {part : Part × String × String} (hpart : part ∈ databaseParts) {item : List Char}
    (hmem : item ∈ databaseLines false (Database.ofValue response) part.1 part.2.1 part.2.2) :
    Passes item := by
  have htitles : ∀ part ∈ databaseParts, IsTitle part.2.1.toList := by decide
  unfold databaseLines at hmem
  dsimp only at hmem
  split at hmem
  · contradiction
  · rcases List.mem_append.mp hmem with hmem | hmem
    · rcases List.mem_append.mp hmem with hmem | hmem
      · exact passes_of_mem_heading (htitles part hpart) hmem
      · rw [List.mem_singleton.mp hmem]
        exact passes_nil
    · obtain ⟨definition, hdefinition, hmem⟩ := List.mem_flatMap.mp hmem
      rcases List.mem_cons.mp hmem with rfl | hmem
      · exact ⟨h.parts part hpart _ hdefinition, endsInLine_of_mem_writeEntries hdefinition⟩
      · rw [List.mem_singleton.mp hmem]
        exact passes_nil

/-- The lines for all sections of the database pass. -/
theorem passes_of_mem_sections (h : Exportable conventions response responses) {item : List Char}
    (hmem : item ∈ databaseParts.flatMap fun (part, title, kind) =>
      databaseLines false (Database.ofValue response) part title kind) : Passes item := by
  obtain ⟨part, hpart, hmem⟩ := List.mem_flatMap.mp hmem
  exact passes_of_mem_databaseLines h hpart hmem

/-- The lines for a section of a table pass. -/
theorem passes_of_mem_tablePartLines {name : String} {found : Entries Value}
    (h : IsTableResponse conventions name found) {part : String × String × String}
    (hpart : part ∈ tableParts) {item : List Char}
    (hmem : item ∈ tablePartLines false found part.1 part.2.1 part.2.2) : Passes item := by
  have htitles : ∀ part ∈ tableParts, IsTitle part.2.1.toList := by decide
  unfold tablePartLines at hmem
  dsimp only at hmem
  split at hmem
  · contradiction
  · rcases List.mem_append.mp hmem with hmem | hmem
    · rcases List.mem_cons.mp hmem with rfl | hmem
      · exact passes_nil
      · rw [List.mem_singleton.mp hmem]
        exact (htitles part hpart).passes
    · exact ⟨h.parts part hpart _ hmem, endsInLine_of_mem_writeEntries hmem⟩

end Sections

/-! ## Fields -/

theorem indexOf_append_of_none {tables : List Table} {table : Table}
    (hnew : Table.indexOf? tables table.name = none) :
    Table.indexOf? (tables ++ [table]) table.name = some tables.length := by
  unfold Table.indexOf? at hnew ⊢
  rw [List.findIdx?_append, hnew]
  simp [List.findIdx?_cons, Table.isNamed]

theorem addField_of_not_mem {fields : List Field} {added : Field}
    (h : added.name ∉ fields.map Field.name) : Table.addField added fields = fields ++ [added] := by
  induction fields with
  | nil => rfl
  | cons field fields ih =>
      have hne : field.name ≠ added.name := by
        intro heq
        exact h (by rw [List.map_cons, heq]; exact List.mem_cons_self)
      rw [Table.addField, if_neg hne, ih fun hmem => h (List.mem_cons_of_mem _ hmem)]
      rfl

section Reading

variable {conventions : Conventions} {response responses : Value}

/-- The line for a field of the last table adds the described field to it, if its key is not that of
a part. -/
theorem read_fieldLine {state : Ddl.State} {tables : List Table} {table : Table}
    (hrests : Ddl.Rests state (tables ++ [table])) (hheading : state.heading = none)
    (hname : IsTableName table.name) (hnew : Table.indexOf? tables table.name = none)
    {key text : String} {clauses : Ddl.FieldClauses} (hkey : IsFieldKey conventions table.name key)
    (htext : IsFieldText table.name key text clauses)
    (hfresh : key ∉ table.fields.map Field.name) :
    Ddl.Rests (state.read [Ddl.terminated text.toList])
        (tables ++ [{ table with fields := table.fields ++ describedFields [(key, .text text)] }]) ∧
      (state.read [Ddl.terminated text.toList]).heading = none := by
  have hone := htext.isOneStatement hname hkey
  have hdefined := htext.definedField_eq hname hkey
  cases hpart : Ddl.isPartName key with
  | true =>
      rw [hpart] at hdefined
      have hnothing : describedFields [(key, .text text)] = [] := by
        simp [describedFields, hpart]
      rw [hnothing, List.append_nil]
      exact hrests.read_part hheading hone (htext.definedTable_eq_none hkey) hdefined
  | false =>
      rw [hpart] at hdefined
      have hadded : table.withField (Ddl.fieldOfClauses key clauses.text) =
          { table with fields := table.fields ++ [Ddl.fieldOfClauses key clauses.text] } := by
        unfold Table.withField
        rw [addField_of_not_mem hfresh]
      have hdescribed : describedFields [(key, .text text)] =
          [Ddl.fieldOfClauses key clauses.text] := by
        rw [← htext.fieldOfStatement_eq hname hkey]
        simp [describedFields, hpart, describedField, Value.text?]
      rw [hdescribed, ← hadded]
      exact hrests.read_field hheading hone hdefined (indexOf_append_of_none hnew)

/-- **The lines for the fields of the last table add the described fields to it.** -/
theorem read_fields {state : Ddl.State} {tables : List Table} {table : Table}
    (hrests : Ddl.Rests state (tables ++ [table])) (hheading : state.heading = none)
    (hname : IsTableName table.name) (hnew : Table.indexOf? tables table.name = none)
    {entries : Entries Value} (hkeys : ∀ entry ∈ entries, IsFieldKey conventions table.name entry.1)
    (hfields : ∀ entry ∈ entries,
      ∃ text clauses, entry.2 = .text text ∧ IsFieldText table.name entry.1 text clauses)
    (hdistinct : (Entries.names entries).Nodup)
    (hfresh : ∀ entry ∈ entries, entry.1 ∉ table.fields.map Field.name) :
    Ddl.Rests (state.read (writeEntries false "FIELD" entries))
      (tables ++ [{ table with fields := table.fields ++ describedFields entries }]) := by
  induction entries generalizing state table with
  | nil =>
      have hnone : table.fields ++ describedFields [] = table.fields := List.append_nil _
      rw [hnone]
      exact hrests
  | cons entry entries ih =>
      obtain ⟨key, raw⟩ := entry
      obtain ⟨hkey, hrestKeys⟩ := List.forall_mem_cons.mp hkeys
      obtain ⟨⟨text, clauses, hraw, htext⟩, hrestFields⟩ := List.forall_mem_cons.mp hfields
      obtain ⟨hnewKey, hrestFresh⟩ := List.forall_mem_cons.mp hfresh
      obtain ⟨hother, hrestDistinct⟩ := List.nodup_cons.mp hdistinct
      dsimp only at hraw
      subst hraw
      have hlines : writeEntries false "FIELD" ((key, .text text) :: entries) =
          [Ddl.terminated text.toList] ++ writeEntries false "FIELD" entries := rfl
      obtain ⟨hnext, hheading'⟩ := read_fieldLine hrests hheading hname hnew hkey htext hnewKey
      rw [hlines, Ddl.State.read_append, describedFields_cons, ← List.append_assoc]
      refine ih hnext hheading' hname hnew hrestKeys hrestFields hrestDistinct ?_
      -- The field that was just added has another name than those that follow.
      intro other hmem hknown
      rw [List.map_append] at hknown
      rcases List.mem_append.mp hknown with hknown | hknown
      · exact hrestFresh other hmem hknown
      · obtain ⟨added, hadded, hsame⟩ := List.mem_map.mp hknown
        have hadded := name_of_mem_describedFields hadded
        rw [hsame] at hadded
        apply hother
        rw [← List.mem_singleton.mp hadded]
        exact List.mem_map_of_mem hmem

/-! ## Tables -/

/-- **The lines for a new table add the described table.** -/
theorem read_tableLines {state : Ddl.State} {tables : List Table} (hrests : Ddl.Rests state tables)
    {entry : String × Value} (h : IsTableEntry conventions responses entry)
    (hnew : Table.indexOf? tables entry.1 = none) :
    Ddl.Rests (state.read
        (tableLines .unchanged entry.1 entry.2 (.map (responseOf responses entry.1))))
      (tables ++ [describedTable responses entry]) := by
  obtain ⟨found, hfound, hresponse⟩ := h.response
  obtain ⟨text, clauses, htext, hwrite, hdescription⟩ := exists_tableText h
  have hname := h.name
  have hitems : tableLines .unchanged entry.1 entry.2 (.map (responseOf responses entry.1)) =
      heading ("TABLE: ".toList ++ entry.1.toList) ++ ([[]] ++ ([Ddl.terminated text.toList] ++
        ([[]] ++ responseLines false found))) := by
    unfold tableLines
    rw [hwrite, responseOf_eq hfound]
    rfl
  have htrim : Ddl.terminated text.toList = Ddl.terminated (Text.trim text.toList) := by
    unfold Ddl.terminated
    rw [Text.trim_trim]
  rw [hitems, htrim]
  unfold responseLines
  simp only [Ddl.State.read_append]
  -- The heading passes, the blank line behind it leaves no heading, and the table is declared.
  have hheadingRead := hrests.read_quiet fun item hmem =>
    (passes_of_mem_heading (isTitle_table hname) hmem).1
  obtain ⟨hblank, hclear⟩ := hheadingRead.read_blank
  have hdeclared := hblank.read_table hclear (htext.isOneStatement hname)
    (htext.definedTable hname) hnew
  obtain ⟨hready, hclear'⟩ := hdeclared.1.read_blank
  have hread := read_fields hready hclear' hname hnew hresponse.keys hresponse.fields
    hresponse.distinct (by simp)
  have hdescribed : describedTable responses entry =
      ⟨entry.1, (Ddl.comment? (Text.trim text.toList ++ [';'])).map String.ofList,
        [] ++ describedFields (entriesUnder "fields" found)⟩ := by
    unfold describedTable
    rw [hdescription, htext.comment_eq, responseOf_eq hfound]
    rfl
  rw [hdescribed]
  refine hread.read_quiet fun item hmem => ?_
  obtain ⟨part, hpart, hmem⟩ := List.mem_flatMap.mp hmem
  exact (passes_of_mem_tablePartLines hresponse hpart hmem).1

/-- The lines for user tables add the described tables. -/
theorem read_users {state : Ddl.State} {tables : List Table} (hrests : Ddl.Rests state tables)
    {entries : Entries Value}
    (hentries : ∀ entry ∈ entries, IsTableEntry conventions responses entry)
    (hdistinct : entries.Pairwise fun entry other => lowerName entry.1 ≠ lowerName other.1)
    (hfresh : ∀ table ∈ tables, ∀ entry ∈ entries, lowerName table.name ≠ lowerName entry.1) :
    Ddl.Rests (state.read (entries.flatMap fun entry =>
        tableLines .unchanged entry.1 entry.2 (.map (responseOf responses entry.1))))
      (tables ++ entries.map (describedTable responses)) := by
  induction entries generalizing state tables with
  | nil =>
      rw [List.flatMap_nil, List.map_nil, List.append_nil]
      exact hrests
  | cons entry entries ih =>
      obtain ⟨hothers, hrestDistinct⟩ := List.pairwise_cons.mp hdistinct
      have hnew : Table.indexOf? tables entry.1 = none := by
        unfold Table.indexOf?
        rw [List.findIdx?_eq_none_iff]
        intro table hmem
        have hne := hfresh table hmem entry List.mem_cons_self
        simpa [Table.isNamed] using hne
      have hread := read_tableLines hrests (hentries entry List.mem_cons_self) hnew
      have hrest := ih hread (fun other hmem => hentries other (List.mem_cons_of_mem _ hmem))
        hrestDistinct ?_
      · rw [List.flatMap_cons, Ddl.State.read_append, List.map_cons]
        rw [List.append_assoc] at hrest
        exact hrest
      · intro table hmem other hother
        rcases List.mem_append.mp hmem with hmem | hmem
        · exact hfresh table hmem other (List.mem_cons_of_mem _ hother)
        · rw [List.mem_singleton.mp hmem]
          exact hothers other hother

/-! ## Databases -/

theorem endsInLine_of_mem_tableLines {entry : String × Value}
    (h : IsTableEntry conventions responses entry) {item : List Char}
    (hmem : item ∈
      tableLines .unchanged entry.1 entry.2 (.map (responseOf responses entry.1))) :
    Text.EndsInLine item := by
  obtain ⟨found, hfound, hresponse⟩ := h.response
  obtain ⟨text, clauses, -, hwrite, -⟩ := exists_tableText h
  unfold tableLines responseLines at hmem
  rw [hwrite, responseOf_eq hfound] at hmem
  rcases List.mem_append.mp hmem with hmem | hmem
  · rcases List.mem_append.mp hmem with hmem | hmem
    · exact (passes_of_mem_heading (isTitle_table h.name) hmem).2
    · simp only [List.mem_cons, List.not_mem_nil, or_false] at hmem
      rcases hmem with rfl | rfl | rfl
      · exact passes_nil.2
      · exact Ddl.endsInLine_terminated _
      · exact passes_nil.2
  · rcases List.mem_append.mp hmem with hmem | hmem
    · exact endsInLine_of_mem_writeEntries hmem
    · obtain ⟨part, hpart, hmem⟩ := List.mem_flatMap.mp hmem
      exact (passes_of_mem_tablePartLines hresponse hpart hmem).2

/-- Every item of a script may be followed by another one. -/
theorem endsInLine_of_mem_scriptItems (h : Exportable conventions response responses)
    {item : List Char} (hmem : item ∈ scriptItems conventions response responses) :
    Text.EndsInLine item := by
  have htitle : IsTitle "TABLES".toList := by decide
  unfold scriptItems at hmem
  rcases List.mem_append.mp hmem with hmem | hmem
  · rcases List.mem_append.mp hmem with hmem | hmem
    · rcases List.mem_append.mp hmem with hmem | hmem
      · exact (passes_of_mem_openingLines hmem).2
      · exact (passes_of_mem_sections h hmem).2
    · split at hmem
      · contradiction
      · exact (passes_of_mem_heading htitle hmem).2
  · obtain ⟨entry, hentry, hmem⟩ := List.mem_flatMap.mp hmem
    exact endsInLine_of_mem_tableLines (isTableEntry_of_mem_users h hentry) hmem

/-- **Exporting a database and reading the script gives the tables that the responses describe.**
Both ways succeed, and they agree on the tables, their descriptions and their fields. -/
theorem parse_script (h : Exportable conventions response responses) :
    ∃ described text, tables conventions response responses = .ok described ∧
      script conventions .unchanged response responses = .ok text ∧ Ddl.parse text = described := by
  refine ⟨_, _, tables_eq_ok h, script_eq_ok h, ?_⟩
  rw [Ddl.parse_intercalate fun item hmem => endsInLine_of_mem_scriptItems h hmem]
  have htitle : IsTitle "TABLES".toList := by decide
  have hopened := Ddl.rests_initial.read_quiet fun item hmem => (passes_of_mem_openingLines hmem).1
  have htables : ∀ item ∈ (if (users conventions response).isEmpty then []
      else heading "TABLES".toList), Ddl.Quiet item := by
    intro item hmem
    split at hmem
    · contradiction
    · exact (passes_of_mem_heading htitle hmem).1
  have hparts := hopened.read_quiet fun item hmem => (passes_of_mem_sections h hmem).1
  have hready := hparts.read_quiet htables
  have hdistinct : (users conventions response).Pairwise fun entry other =>
      lowerName entry.1 ≠ lowerName other.1 := by
    refine List.pairwise_filter.mpr (h.distinct.imp fun hne huser hother => hne ?_ ?_)
    · rw [isUserTable_eq_ok h, huser]
    · rw [isUserTable_eq_ok h, hother]
  have hread := read_users hready (fun entry hmem => isTableEntry_of_mem_users h hmem) hdistinct
    (by simp)
  unfold scriptItems Ddl.State.finish
  simp only [Ddl.State.read_append]
  rw [Ddl.State.close_eq_self hread.closed, hread.known]
  exact List.nil_append _

end Reading

/-! ## A database with every clause -/

/-- The definition of a field with every clause. -/
def nameDefinition : String :=
  "DEFINE FIELD name ON user FLEXIBLE TYPE option<string> DEFAULT none READONLY VALUE $value " ++
    "ASSERT $value != none COMMENT 'In full; all' PERMISSIONS FULL"

/-- A database with a function, a table of the store, and two tables of a user. -/
def shopDatabase : Value :=
  .map [
    ("functions", .map [
      ("greet", .text "DEFINE FUNCTION fn::greet() \x7b RETURN 'Hi; you'; \x7d")]),
    ("tables", .map [
      ("_log", .null),
      ("user", .text "DEFINE TABLE user SCHEMAFULL COMMENT 'Buyers; all' PERMISSIONS NONE "),
      ("post", .null)])]

/-- The responses about the tables of a user. -/
def shopTables : Value :=
  .map [
    ("user", .map [
      ("fields", .map [
        ("name", .text nameDefinition),
        ("tags[*]", .text "DEFINE FIELD tags[*] ON user")]),
      ("indexes", .map [("name", .text "DEFINE INDEX name ON user FIELDS name")])]),
    ("post", .map [])]

def nameClauses : Ddl.FieldClauses where
  isFlexible := true
  type? := some "option<string>".toList
  default? := some "none".toList
  isReadonly := true
  value? := some "$value".toList
  assert? := some "$value != none".toList
  comment? := some "In full; all".toList
  permissions? := some "FULL".toList

def noClauses : Ddl.FieldClauses :=
  ⟨false, none, none, false, none, none, none, none⟩

/-- The conditions hold of a database with every clause, and both ways give its tables. -/
theorem parse_script_shop :
    Exportable .standard shopDatabase shopTables ∧
      ∃ described text, tables .standard shopDatabase shopTables = .ok described ∧
        script .standard .unchanged shopDatabase shopTables = .ok text ∧
        Ddl.parse text = described := by
  have hwordName : ∀ {name : String}, name.toList ≠ [] → name.toList.all Text.isWord = true →
      Ddl.IsWordName name.toList := fun hne hall => ⟨hne, List.all_eq_true.mp hall⟩
  have huser : IsTableName "user" :=
    ⟨hwordName (by decide) (by decide), by decide, by decide⟩
  have hpost : IsTableName "post" :=
    ⟨hwordName (by decide) (by decide), by decide, by decide⟩
  have hdefinition : IsTableText "user"
      "DEFINE TABLE user SCHEMAFULL COMMENT 'Buyers; all' PERMISSIONS NONE "
      (" SCHEMAFULL COMMENT ".toList ++ '\'' :: ("Buyers; all".toList ++
        '\'' :: " PERMISSIONS NONE ".toList)) := by
    refine ⟨by decide +kernel, Text.halts_cons (by decide) _,
      .quoted (by decide) (by decide) (by decide), fun hspells => ?_⟩
    exact absurd hspells (by decide)
  have hname : IsFieldText "user" "name" nameDefinition nameClauses :=
    ⟨by decide +kernel, by decide +kernel⟩
  have htags : IsFieldText "user" "tags[*]" "DEFINE FIELD tags[*] ON user" noClauses :=
    ⟨by decide +kernel, by decide +kernel⟩
  have hnameKey : IsFieldKey .standard "user" "name" :=
    ⟨by decide, by decide, rfl, fun hspells => absurd hspells (by decide)⟩
  have htagsKey : IsFieldKey .standard "user" "tags[*]" :=
    ⟨by decide, by decide, rfl, fun hspells => absurd hspells (by decide)⟩
  have huserResponse : IsTableResponse .standard "user" (responseOf shopTables "user") :=
    ⟨by decide +kernel, List.forall_mem_cons.mpr ⟨hnameKey, List.forall_mem_singleton.mpr htagsKey⟩,
      List.forall_mem_cons.mpr
        ⟨⟨_, _, rfl, hname⟩, List.forall_mem_singleton.mpr ⟨_, _, rfl, htags⟩⟩,
      by decide +kernel⟩
  have hpostResponse : IsTableResponse .standard "post" [] :=
    ⟨List.nodup_nil, List.forall_mem_nil _, List.forall_mem_nil _, by decide +kernel⟩
  have hstore : Conventions.standard.isUserTable "_log" ≠ .ok true := by
    intro hlog
    exact Bool.false_ne_true (Except.ok.inj hlog)
  have hexportable : Exportable .standard shopDatabase shopTables := by
    refine ⟨?_, ?_, ?_, by decide +kernel⟩
    · exact List.forall_mem_cons.mpr ⟨⟨_, rfl⟩, List.forall_mem_singleton.mpr ⟨_, rfl⟩⟩
    · refine List.forall_mem_cons.mpr ⟨fun hlog => absurd hlog hstore, List.forall_mem_cons.mpr
        ⟨fun _ => ?_, List.forall_mem_singleton.mpr fun _ => ?_⟩⟩
      · refine ⟨huser, fun text htext => ?_, _, rfl, huserResponse⟩
        rw [← Value.text.inj htext]
        exact ⟨_, hdefinition⟩
      · refine ⟨hpost, fun text htext => ?_, _, rfl, hpostResponse⟩
        contradiction
    · have hnames : lowerName "user" ≠ lowerName "post" := by decide +kernel
      exact List.pairwise_cons.mpr ⟨fun _ _ hlog => absurd hlog hstore, List.pairwise_cons.mpr
        ⟨List.forall_mem_singleton.mpr fun _ _ => hnames, List.pairwise_singleton _ _⟩⟩
  exact ⟨hexportable, parse_script hexportable⟩

/-! ## Databases on which the two ways differ -/

/-- Whether both ways succeed and give the same tables. -/
def agrees (conventions : Conventions) (response responses : Value) : Bool :=
  match tables conventions response responses,
    script conventions .unchanged response responses with
  | .ok described, .ok text => Ddl.parse text = described
  | _, _ => false

/-- Reading a script needs its characters only, not the text they are joined to. -/
theorem agrees_eq (conventions : Conventions) (response responses : Value) :
    agrees conventions response responses =
      match tables conventions response responses, scriptLines conventions response responses with
      | .ok described, .ok lines =>
        decide ((((Text.lines (['\n'].intercalate lines)).flatMap Ddl.statements).foldl
          Ddl.State.step Ddl.State.initial).finish = described)
      | _, _ => false := by
  unfold agrees
  rw [script_eq_map]
  cases tables conventions response responses with
  | error failure => rfl
  | ok described =>
      cases scriptLines conventions response responses with
      | error failure => rfl
      | ok lines =>
          unfold Ddl.parse Ddl.logicalLines
          simp only [Except.map, String.toList_ofList]

/-- A database with one table. -/
def oneTable (name definition : String) : Value :=
  .map [("tables", .map [(name, .text definition)])]

/-- The response about one table with one entry in a section. -/
def oneEntry (table part key definition : String) : Value :=
  .map [(table, .map [(part, .map [(key, .text definition)])])]

/-- No condition can be left out: keys that the conventions do not take for parts though a reading
does, or the other way round; keys with blanks, quotes or semicolons; names and keys that are read
as modifiers; and definitions of tables and fields where functions or indexes are listed. -/
theorem agrees_eq_false :
    agrees .standard (oneTable "user" "DEFINE TABLE user")
        (oneEntry "user" "fields" "address.city"
          "DEFINE FIELD address.city ON user TYPE string") = false ∧
      agrees { Conventions.standard with elementMarker := .text "x" }
        (oneTable "user" "DEFINE TABLE user")
        (oneEntry "user" "fields" "box" "DEFINE FIELD box ON user TYPE string") = false ∧
      agrees .standard (oneTable "user" "DEFINE TABLE user")
        (oneEntry "user" "fields" "first name"
          "DEFINE FIELD first name ON user TYPE string") = false ∧
      agrees .standard (oneTable "user" "DEFINE TABLE user")
        (oneEntry "user" "fields" "it's"
          "DEFINE FIELD it's ON user COMMENT 'here; there'") = false ∧
      agrees .standard (oneTable "user" "DEFINE TABLE user")
        (oneEntry "user" "fields" "a;b" "DEFINE FIELD a;b ON user TYPE string") = false ∧
      agrees .standard (oneTable "ON" "DEFINE TABLE ON")
        (oneEntry "ON" "fields" "OVERWRITE"
          "DEFINE FIELD OVERWRITE ON ON TYPE string") = false ∧
      agrees .standard (oneTable "IF" "DEFINE TABLE IF NOT EXISTS user")
        (.map [("IF", .map [])]) = false ∧
      agrees .standard (oneTable "overwrite" "DEFINE TABLE overwrite SCHEMAFULL")
        (.map [("overwrite", .map [])]) = false ∧
      agrees .standard (oneTable "table" "DEFINE TABLE table")
        (oneEntry "table" "fields" "name" "DEFINE FIELD name ON table TYPE string") = false ∧
      agrees .standard (.map [("functions", .map [("f", .text "DEFINE TABLE user")])])
        (.map []) = false ∧
      agrees .standard (oneTable "user" "DEFINE TABLE user")
        (oneEntry "user" "indexes" "name" "DEFINE FIELD name ON user TYPE string") = false := by
  simp only [agrees_eq]
  decide +kernel

end Info
end SurrealSchema
