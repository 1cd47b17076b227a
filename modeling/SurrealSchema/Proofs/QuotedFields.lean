import SurrealSchema.Proofs.Ddl.FieldKeys
import SurrealSchema.Proofs.QuotedNames
import SurrealSchema.Proofs.Shape.Writes

namespace SurrealSchema

/-!
# Fields between backticks

Backticks around the name of a field are a part of the name in a document and none in a query.  So a
field that is defined between backticks is there under another name, and no query selects it by its
own.

Main statement: `Schema.backticks_hide_field`.
-/

/-- The columns of a table are named by its fields. -/
theorem Layout.names_ofTable (table : Table) :
    Entries.names (ofTable table).columns = table.fieldNames.eraseDups := by
  unfold ofTable
  rw [Entries.names_ofList]
  simp [Entries.names, Table.fieldNames, Function.comp_def]

namespace Catalog

/-- Every entry in the answer to a query is named by a field of a table. -/
theorem exists_fieldName_of_entryOf? {tables : List Table} {query : Query}
    (hkind : query.kind = .select) {name : String} {shape : Shape}
    (h : (ofTables tables).entryOf? query name = some shape) :
    ∃ table ∈ tables, name ∈ table.fieldNames := by
  unfold entryOf? at h
  cases hqueried : (ofTables tables).queried? query with
  | none =>
      have hunknown : (ofTables tables).answerShape query = .unknown := by
        simp [answerShape, hkind, hqueried]
      rw [hunknown] at h
      cases hmany : query.returnsMany <;> rw [hmany] at h <;> contradiction
  | some layout =>
      have hentry : Entries.get? name ((ofTables tables).select layout query.selections) =
          some shape := by
        rw [answerShape_of_select _ hkind hqueried] at h
        cases hmany : query.returnsMany <;> rw [hmany] at h <;> exact h
      have hselected : name ∈
          Entries.names ((ofTables tables).select layout query.selections) := by
        rw [← Entries.isSome_get?_iff, hentry]
        rfl
      have hcolumn := (ofTables tables).mem_names_of_mem_select layout hselected
      obtain ⟨queried, -, hlayout⟩ := Option.bind_eq_some_iff.mp hqueried
      obtain ⟨table, htable, rfl⟩ := exists_of_mem_layouts (Entries.mem_of_get? hlayout)
      rw [Layout.names_ofTable, List.mem_eraseDups] at hcolumn
      exact ⟨table, htable, hcolumn⟩

end Catalog

namespace Query

/-- A text that starts with the word is a query that selects. -/
theorem kind_parse_select (rest : List Char) :
    (parse (String.ofList ("SELECT".toList ++ ' ' :: rest))).kind = .select := by
  have hselect : Text.Solid "SELECT".toList := by decide
  have hfirst : (Text.words ("SELECT".toList ++ ' ' :: rest)).head?.getD [] = "SELECT".toList := by
    rw [Text.words_append_blank (by decide), Text.words_of_solid hselect]
    rfl
  have hkind : kindOfWord (Text.upper "SELECT".toList) = .select := by decide
  have hparsed : ∀ text, (parseSelect text).kind = .select := by
    intro text
    unfold parseSelect
    split <;> rfl
  simp only [parse, String.toList_ofList, hfirst, hkind, hparsed]

/-- The query for a field between backticks selects the field of its bare name. -/
theorem parse_backticked {name : String} (hname : IsName name) {text : List Char} {table : String}
    (htable : IsTable text table) :
    parse (String.ofList ("SELECT".toList ++ ' ' :: (Token.backticked name.toList ++ ' ' ::
        ("FROM".toList ++ ' ' :: text)))) =
      { kind := .select
        tables := [table]
        selections := [.leaf name]
        conditions := []
        modifiers := []
        returnsMany := true } := by
  have hsolid := Token.solid_backticked fun c hc => (hname.chars c hc).2
  have hitems : Text.Spaced (Avoids "FROM") (Token.backticked name.toList) := by
    refine .word (avoids_from_of_mark hsolid.2 ?_)
    unfold Token.backticked
    rw [← List.cons_append, List.getLast?_concat]
    decide
  have hhead : IsHead ("SELECT".toList ++ ' ' :: (Token.backticked name.toList ++ ' ' ::
      ("FROM".toList ++ ' ' :: text))) text :=
    isHead_of_spaced (Text.spells_self (by decide)) hitems (Text.spells_self capitals_from) htable
  have hspace := continuesName_marks.2.2
  have hfrom : Reads ("FROM".toList ++ ' ' :: text) [.fromWord "FROM", .name table] :=
    Reads.word "ROM".toList (by decide) (List.all_eq_true.mp (by decide))
      (Text.halts_cons hspace _) htable.reads.space
  have hread : Reads ("SELECT".toList ++ ' ' :: (Token.backticked name.toList ++ ' ' ::
      ("FROM".toList ++ ' ' :: text)))
        [.selectWord "SELECT", .name name, .fromWord "FROM", .name table] :=
    Reads.word "ELECT".toList (by decide) (List.all_eq_true.mp (by decide))
      (Text.halts_cons hspace _)
      (Reads.backticked hname.ne_empty hname.no_backtick hfrom.space).space
  have hparse : parseHead ("SELECT".toList ++ ' ' :: (Token.backticked name.toList ++ ' ' ::
      ("FROM".toList ++ ' ' :: text))) = .ok ⟨[[name]], table⟩ :=
    Grammar.parse_of_cuts hread rfl rfl
  have hspaced : Text.Spaced Text.Solid (Token.backticked name.toList ++ ' ' ::
      ("FROM".toList ++ ' ' :: text)) :=
    .cons hsolid (.cons (by decide) (.word htable.solid))
  have hselect := parseSelect_of_isHead hhead (Text.halts_nil _)
  rw [List.append_nil] at hselect
  rw [parse_of_spaced hspaced, hselect, readHead, hparse]
  rfl

end Query

namespace Schema

open Ddl (quotedName)

/-- The schema of a table with a field of it; the key is the name of the field as it is written. -/
def fieldSchema (conventions : Conventions) (key table type : String) : Schema :=
  ofDocument conventions (Ddl.fieldDocument key table type)

/-- The query for a field by its name between backticks. -/
def fieldQuery (name table : String) : String :=
  "SELECT " ++ quotedName name ++ " FROM " ++ table

/-- Whether backticks around the name of a field make no difference in its definition, and the query
for it finds it. -/
structure BackticksAgree (conventions : Conventions) (name table type : String) : Prop where
  schema : fieldSchema conventions (quotedName name) table type =
    fieldSchema conventions name table type
  found : ((fieldSchema conventions (quotedName name) table type).catalog.entryOf?
    (Query.parse (fieldQuery name table)) name).isSome = true

variable {name table type : String}

/-! ## The schema -/

/-- The field of the schema under a key. -/
def keyedField (conventions : Conventions) (key table type : String) : Field :=
  ((Ddl.fieldOfClauses key (Ddl.typeClause type.toList)).dropDangling
    [lowerName table]).typeVector conventions

theorem name_keyedField (conventions : Conventions) (key table type : String) :
    (keyedField conventions key table type).name = key :=
  Field.name_dropDangling_typeVector _ _ _

section FieldSchema

variable (conventions : Conventions) {key : String} (hkey : Ddl.IsKey key)
  (htable : Ddl.IsWordName table.toList) (htype : Ddl.EndsDefinition type.toList)
include hkey htable htype

/-- The schema has the field under its key, unless a word of the definition is taken for another
one. -/
theorem fieldSchema_eq :
    fieldSchema conventions key table type =
      let tables := [⟨table, none,
        if Ddl.Misread key table then [] else [keyedField conventions key table type]⟩]
      ⟨tables, Catalog.ofTables tables⟩ := by
  apply ofDocument_eq
  rw [Ddl.parse_fieldDocument hkey htable htype]
  by_cases hmisread : Ddl.Misread key table <;>
    simp [hmisread, Table.closeReferences, Table.declaredNames, keyedField]

theorem fieldNames_fieldSchema :
    (fieldSchema conventions key table type).tables.map Table.fieldNames =
      [if Ddl.Misread key table then [] else [key]] := by
  rw [fieldSchema_eq conventions hkey htable htype]
  by_cases hmisread : Ddl.Misread key table <;>
    simp [hmisread, Table.fieldNames, name_keyedField]

/-- Its one table is found under its name. -/
theorem queried?_fieldSchema {query : Query} (hquery : query.table? = some table) :
    (fieldSchema conventions key table type).catalog.queried? query =
      some (Layout.ofTable ⟨table, none,
        if Ddl.Misread key table then [] else [keyedField conventions key table type]⟩) := by
  have hne : table ≠ "" := by
    rintro rfl
    exact htable.1 rfl
  rw [Catalog.queried?_eq_layout? _ hquery hne, fieldSchema_eq conventions hkey htable htype]
  simp [Catalog.layout?_ofTables_of_nodup, Table.declaredNames, Table.isNamed]

end FieldSchema

/-! ## The query for the field -/

theorem fieldQuery_text (name table : String) :
    fieldQuery name table = String.ofList ("SELECT".toList ++ ' ' ::
      (Token.backticked name.toList ++ ' ' :: ("FROM".toList ++ ' ' :: table.toList))) := by
  have hselect : "SELECT ".toList = "SELECT".toList ++ [' '] := rfl
  have hfrom : " FROM ".toList = ' ' :: ("FROM".toList ++ [' ']) := rfl
  apply String.toList_inj.mp
  refine Eq.trans ?_ String.toList_ofList.symm
  unfold fieldQuery
  rw [String.toList_append, String.toList_append, String.toList_append, hselect, hfrom,
    Ddl.toList_quotedName]
  simp only [List.append_assoc, List.cons_append, List.nil_append]

theorem parse_fieldQuery (hname : Query.IsName name) (hbare : Query.isBareName table = true) :
    Query.parse (fieldQuery name table) =
      { kind := .select
        tables := [table]
        selections := [.leaf name]
        conditions := []
        modifiers := []
        returnsMany := true } := by
  have hwritten : Query.nameText table = table.toList := if_pos hbare
  have htable : Query.IsTable table.toList table :=
    hwritten ▸ Query.isTable_nameText (Query.isName_of_isBareName hbare)
  rw [fieldQuery_text, Query.parse_backticked hname htable]

/-- The query finds the field if its key is the name. -/
theorem answerShape_fieldQuery (conventions : Conventions) {key : String} (hkey : Ddl.IsKey key)
    (htable : Ddl.IsWordName table.toList) (htype : Ddl.EndsDefinition type.toList)
    (hname : Query.IsName name) (hbare : Query.isBareName table = true) :
    (fieldSchema conventions key table type).answerShape (fieldQuery name table) =
      .array (.struct (if ¬ Ddl.Misread key table ∧ key = name then
        [(name, (Column.ofField (keyedField conventions key table type)).shape)] else [])) := by
  have hquery := parse_fieldQuery hname hbare
  have hkind : (Query.parse (fieldQuery name table)).kind = .select := by rw [hquery]
  have hfirst : (Query.parse (fieldQuery name table)).table? = some table := by
    rw [hquery]
    rfl
  have hqueried := queried?_fieldSchema conventions hkey htable htype hfirst
  have hstar : ∀ selection ∈ [Selection.leaf name], selection.field ≠ "*" :=
    List.forall_mem_singleton.mpr hname.ne_star
  have hcolumn : Entries.get? name (Layout.ofTable ⟨table, none,
      if Ddl.Misread key table then [] else [keyedField conventions key table type]⟩).columns =
        if ¬ Ddl.Misread key table ∧ key = name then
          some (Column.ofField (keyedField conventions key table type)) else none := by
    by_cases hmisread : Ddl.Misread key table <;>
      simp [hmisread, Layout.ofTable, Entries.ofList, Entries.putAll, Entries.put, Entries.get?,
        name_keyedField]
  rw [answerShape, Catalog.answerShape_of_select _ hkind hqueried, hquery, if_pos rfl,
    Catalog.select_eq_pick _ _ (List.cons_ne_nil _ _) hstar, Selection.leaf,
    Catalog.pick_singleton _ _ hname.ne_star, hcolumn]
  by_cases hfound : ¬ Ddl.Misread key table ∧ key = name
  · rw [if_pos hfound, if_pos hfound]
    rfl
  · rw [if_neg hfound, if_neg hfound]

/-! ## Backticks around the name -/

section Backticks

variable (conventions : Conventions) (hname : Token.isIdentifier name.toList = true)
  (htable : Ddl.IsWordName table.toList) (htype : Ddl.EndsDefinition type.toList)
include hname htable htype

/-- The schemas are the same only where the field is left out with backticks and without them. -/
theorem fieldSchema_quotedName_eq_iff :
    fieldSchema conventions (quotedName name) table type =
        fieldSchema conventions name table type ↔ Text.Spells "TABLE".toList table.toList := by
  have hword := Ddl.isWordName_of_isIdentifier hname
  have hquoted := Ddl.isKey_quotedName hword
  have hbare := Ddl.isKey_of_isWordName hword
  have hmisread := Ddl.misread_quotedName_iff name table
  constructor
  · intro heq
    by_contra hspells
    have hnames : [[quotedName name]] = [if Ddl.Misread name table then [] else [name]] := by
      rw [← fieldNames_fieldSchema conventions hbare htable htype, ← heq,
        fieldNames_fieldSchema conventions hquoted htable htype, if_neg (mt hmisread.mp hspells)]
    split at hnames
    · exact absurd hnames (by simp)
    · exact Ddl.quotedName_ne name (by simpa using hnames)
  · intro hspells
    have hleft : Ddl.Misread name table := Or.inl hspells
    rw [fieldSchema_eq conventions hquoted htable htype,
      fieldSchema_eq conventions hbare htable htype, if_pos (hmisread.mpr hspells), if_pos hleft]

/-- No query finds a field between backticks under its own name. -/
theorem entryOf?_quotedName {query : Query} (hkind : query.kind = .select) :
    (fieldSchema conventions (quotedName name) table type).catalog.entryOf? query name = none := by
  have hquoted := Ddl.isKey_quotedName (Ddl.isWordName_of_isIdentifier hname)
  rw [Option.eq_none_iff_forall_ne_some]
  intro shape hentry
  rw [fieldSchema_eq conventions hquoted htable htype] at hentry
  obtain ⟨found, hfound, hfield⟩ := Catalog.exists_fieldName_of_entryOf? hkind hentry
  rw [List.mem_singleton.mp hfound] at hfield
  -- The one name that there may be is the one between backticks.
  by_cases hmisread : Ddl.Misread (quotedName name) table
  · simp [hmisread, Table.fieldNames] at hfield
  · have hsame : name = quotedName name := by
      simpa [hmisread, Table.fieldNames, name_keyedField] using hfield
    exact Ddl.quotedName_ne name hsame.symm

/-- **A field that is defined between backticks is hidden.**  Where the field is not left out, the
schema is another one than without the backticks, and no query finds the field under its own name,
the query for it least of all. -/
theorem backticks_hide_field :
    ¬ BackticksAgree conventions name table type ∧
      (fieldSchema conventions (quotedName name) table type =
          fieldSchema conventions name table type ↔ Text.Spells "TABLE".toList table.toList) ∧
      (∀ query : Query, query.kind = .select →
        (fieldSchema conventions (quotedName name) table type).catalog.entryOf? query name =
          none) ∧
      (Query.isBareName table = true →
        (fieldSchema conventions (quotedName name) table type).answerShape
            (fieldQuery name table) = .array (.struct []) ∧
          (¬ Ddl.Misread name table → ∃ shape,
            (fieldSchema conventions name table type).answerShape (fieldQuery name table) =
              .array (.struct [(name, shape)]))) := by
  have hword := Ddl.isWordName_of_isIdentifier hname
  have hselected := isName_of_isWordName hword
  have hquoted := Ddl.isKey_quotedName hword
  have hbare := Ddl.isKey_of_isWordName hword
  refine ⟨fun hagree => ?_, fieldSchema_quotedName_eq_iff conventions hname htable htype,
    fun query hkind => entryOf?_quotedName conventions hname htable htype hkind,
    fun htableBare => ⟨?_, ?_⟩⟩
  · have hkind : (Query.parse (fieldQuery name table)).kind = .select := by
      rw [fieldQuery_text]
      exact Query.kind_parse_select _
    have hfound := hagree.found
    rw [entryOf?_quotedName conventions hname htable htype hkind] at hfound
    contradiction
  · rw [answerShape_fieldQuery conventions hquoted htable htype hselected htableBare,
      if_neg fun hboth => Ddl.quotedName_ne name hboth.2]
  · intro hread
    refine ⟨(Column.ofField (keyedField conventions name table type)).shape, ?_⟩
    rw [answerShape_fieldQuery conventions hbare htable htype hselected htableBare,
      if_pos ⟨hread, rfl⟩]

end Backticks

/-- A field of users, optional texts. -/
theorem backticks_hide_field_user :
    Token.isIdentifier "name".toList = true ∧ Ddl.IsWordName "user".toList ∧
      Ddl.EndsDefinition "option<string>".toList ∧
      ¬ BackticksAgree .standard "name" "user" "option<string>" ∧
      (fieldSchema .standard (quotedName "name") "user" "option<string>").answerShape
        (fieldQuery "name" "user") = .array (.struct []) ∧
      ∃ shape, (fieldSchema .standard "name" "user" "option<string>").answerShape
        (fieldQuery "name" "user") = .array (.struct [("name", shape)]) := by
  have hname : Token.isIdentifier "name".toList = true := by decide
  have htable : Ddl.IsWordName "user".toList := Ddl.isWordName_of_isIdentifier (by decide)
  have htype : Ddl.EndsDefinition "option<string>".toList :=
    ⟨by decide, (Text.Spaced.word (by decide)).trimmed, by decide⟩
  have hbare : Query.isBareName "user" = true := by decide +kernel
  have hread : ¬ Ddl.Misread "name" "user" := by decide
  obtain ⟨hdiffer, -, -, hanswers⟩ := backticks_hide_field .standard hname htable htype
  obtain ⟨hhidden, hshown⟩ := hanswers hbare
  exact ⟨hname, htable, htype, hdiffer, hhidden, hshown hread⟩

/-- The two definitions of the field make different schemas, and the query does not find it. -/
theorem not_backticksAgree_user :
    (fieldSchema .standard (quotedName "name") "user" "string").tables =
        [⟨"user", none, [⟨"`name`", .string, false, none, none, none⟩]⟩] ∧
      ¬ BackticksAgree .standard "name" "user" "string" := by
  have hmissing : ((fieldSchema .standard (quotedName "name") "user" "string").catalog.entryOf?
      (Query.parse (fieldQuery "name" "user")) "name").isSome = false := by
    decide +kernel
  refine ⟨by decide +kernel, fun hagree => ?_⟩
  rw [hagree.found] at hmissing
  contradiction

end Schema
end SurrealSchema
