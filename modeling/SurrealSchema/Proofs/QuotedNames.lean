import SurrealSchema.Proofs.Ddl.QuotedNames
import SurrealSchema.Proofs.Schema
import SurrealSchema.Proofs.Shape.Subfields

namespace SurrealSchema
namespace Schema

/-!
# Names between backticks

A name between backticks may stand in a document, in a type and in a query.  Types and queries take
everything up to the closing backtick for the name, a document only a word, and in a document the
text of a type ends at a keyword even between backticks.  So the three agree on a name exactly if it
is a word that does not end the text of a type.

Main statement: `namesAgree_iff`.
-/

/-- Whether a text is a word character and then word characters and dashes. -/
structure IsDashed (name : List Char) : Prop where
  first : name.head?.any Text.isWord = true
  chars : (name.all fun c => Text.isWord c || c == '-') = true

instance (name : List Char) : Decidable (IsDashed name) :=
  decidable_of_iff (name.head?.any Text.isWord = true ∧
      (name.all fun c => Text.isWord c || c == '-') = true)
    ⟨fun h => ⟨h.1, h.2⟩, fun h => ⟨h.first, h.chars⟩⟩

/-- The document of two tables between backticks, the first one with a pointer to the second. -/
def quotedDocument (first second : String) : String :=
  "\n".intercalate
    ["DEFINE TABLE `" ++ first ++ "`;",
      "DEFINE TABLE `" ++ second ++ "`;",
      "DEFINE FIELD f ON `" ++ first ++ "` TYPE record<`" ++ second ++ "`>;",
      "DEFINE FIELD g ON `" ++ second ++ "` TYPE int;"]

/-- The query for the field behind the pointer. -/
def quotedQuery (first : String) : String :=
  "SELECT f.g FROM `" ++ first ++ "` LIMIT 1"

/-- The tables of that document as they are meant. -/
def quotedTables (first second : String) : List Table :=
  [⟨first, none, [⟨"f", .record, false, none, none, some ⟨second, false⟩⟩]⟩,
    ⟨second, none, [⟨"g", .integer, false, none, none, none⟩]⟩]

/-- Whether the document, the type in it and the query mean the same tables by two names. -/
structure NamesAgree (conventions : Conventions) (first second : String) : Prop where
  tables : (ofDocument conventions (quotedDocument first second)).tables =
    quotedTables first second
  answer : (ofDocument conventions (quotedDocument first second)).answerShape
    (quotedQuery first) = .struct [("f", .struct [("g", .scalar .integer)])]

variable {first second : String}

/-! ## Names -/

/-- Without dashes a name is a word. -/
theorem IsDashed.isWordName {name : List Char} (h : IsDashed name) (hdash : '-' ∉ name) :
    Ddl.IsWordName name := by
  refine ⟨?_, fun c hc => ?_⟩
  · rintro rfl
    exact absurd h.first (by decide)
  · have hchar := List.all_eq_true.mp h.chars c hc
    rcases (Bool.or_eq_true _ _).mp hchar with hword | hmark
    · exact hword
    · rw [eq_of_beq hmark] at hc
      exact absurd hc hdash

theorem dash_not_mem {name : List Char} (h : Ddl.IsWordName name) : '-' ∉ name :=
  h.not_mem (by decide)

theorem isName_of_isWordName {name : String} (h : Ddl.IsWordName name.toList) :
    Query.IsName name := by
  refine ⟨h.1, ?_, fun c hc => ?_⟩
  · rintro rfl
    exact absurd (h.2 '*' (by decide)) (by decide)
  · exact ⟨Query.ne_backtick_of_isWord (h.2 c hc), Text.isBlank_of_isWord (h.2 c hc)⟩

/-! ## The document -/

theorem quotedTable_text (name : String) :
    ("DEFINE TABLE `" ++ name ++ "`;").toList = Ddl.quotedTable name ++ [';'] := by
  have hhead : "DEFINE TABLE `".toList =
      "DEFINE".toList ++ ' ' :: ("TABLE".toList ++ [' ', '`']) := by decide +kernel
  have hend : "`;".toList = ['`', ';'] := by decide +kernel
  rw [String.toList_append, String.toList_append, hhead, hend]
  unfold Ddl.quotedTable Ddl.definition Token.backticked
  simp only [List.append_assoc, List.cons_append, List.nil_append]

theorem pointerField_text (first second : String) :
    ("DEFINE FIELD f ON `" ++ first ++ "` TYPE record<`" ++ second ++ "`>;").toList =
      Ddl.quotedField "f" first (Ddl.pointerType second) ++ [';'] := by
  have hhead : "DEFINE FIELD f ON `".toList = "DEFINE".toList ++ ' ' :: ("FIELD".toList ++ ' ' ::
      ("f".toList ++ ' ' :: ("ON".toList ++ [' ', '`']))) := by decide +kernel
  have htype : "` TYPE record<`".toList =
      '`' :: ' ' :: ("TYPE".toList ++ ' ' :: ("record<".toList ++ ['`'])) := by decide +kernel
  have hend : "`>;".toList = ['`', '>', ';'] := by decide +kernel
  rw [String.toList_append, String.toList_append, String.toList_append, String.toList_append,
    hhead, htype, hend]
  unfold Ddl.quotedField Ddl.definition Ddl.onTable Ddl.pointerType Token.backticked
  simp only [List.append_assoc, List.cons_append, List.nil_append]

theorem numberField_text (second : String) :
    ("DEFINE FIELD g ON `" ++ second ++ "` TYPE int;").toList =
      Ddl.quotedField "g" second "int".toList ++ [';'] := by
  have hhead : "DEFINE FIELD g ON `".toList = "DEFINE".toList ++ ' ' :: ("FIELD".toList ++ ' ' ::
      ("g".toList ++ ' ' :: ("ON".toList ++ [' ', '`']))) := by decide +kernel
  have hend : "` TYPE int;".toList =
      '`' :: ' ' :: ("TYPE".toList ++ ' ' :: ("int".toList ++ [';'])) := by decide +kernel
  rw [String.toList_append, String.toList_append, hhead, hend]
  unfold Ddl.quotedField Ddl.definition Ddl.onTable Token.backticked
  simp only [List.append_assoc, List.cons_append, List.nil_append]

/-- The lines of the document are its definitions. -/
theorem quotedDocument_eq (hfirst : Ddl.IsWordName first.toList)
    (hsecond : Ddl.IsWordName second.toList) :
    quotedDocument first second = String.ofList (['\n'].intercalate
      ((Ddl.quotedPair first second "f" "g" (Ddl.pointerType second) "int".toList).map
        Ddl.terminated)) := by
  have hone {definition : List Char} (h : Ddl.IsOneStatement definition) :
      Ddl.terminated definition = definition ++ [';'] := h.confined.terminated h.trimmed
  have hpointer : Ddl.IsOneStatement (Ddl.quotedField "f" first (Ddl.pointerType second)) :=
    (Ddl.quotedField_reads (by decide) hfirst (Ddl.clear_pointerType hsecond)
      (Ddl.solid_pointerType hsecond.solid.2)).1
  have hnumber : Ddl.IsOneStatement (Ddl.quotedField "g" second "int".toList) :=
    (Ddl.quotedField_reads (by decide) hsecond (by decide) (by decide)).1
  apply String.toList_inj.mp
  refine Eq.trans ?_ String.toList_ofList.symm
  unfold quotedDocument
  rw [String.toList_intercalate, List.map_cons, List.map_cons, List.map_cons, List.map_cons,
    List.map_nil, quotedTable_text, quotedTable_text, pointerField_text, numberField_text,
    ← hone (Ddl.quotedTable_reads hfirst).1, ← hone (Ddl.quotedTable_reads hsecond).1,
    ← hone hpointer, ← hone hnumber]
  rfl

/-- The document of words has the tables that are meant, if a pointer to the second one does not
break off. -/
theorem parse_quotedDocument (hfirst : Ddl.IsWordName first.toList)
    (hsecond : Ddl.IsWordName second.toList) (hne : lowerName first ≠ lowerName second) :
    Ddl.parse (quotedDocument first second) =
      [⟨first, none, [Ddl.fieldOfClauses "f" (Ddl.typeClause (Ddl.pointerType second))]⟩,
        ⟨second, none, [⟨"g", .integer, false, none, none, none⟩]⟩] := by
  have hinteger : Ddl.fieldOfClauses "g" (Ddl.typeClause "int".toList) =
      ⟨"g", .integer, false, none, none, none⟩ := by
    decide +kernel
  rw [quotedDocument_eq hfirst hsecond, Ddl.parse_quotedPair hfirst hsecond hne (by decide)
    (by decide) (Ddl.clear_pointerType hsecond) (Ddl.solid_pointerType hsecond.solid.2) (by decide)
    (by decide), hinteger]

/-- Closing the tables that are meant changes nothing. -/
theorem closeReferences_quotedTables (conventions : Conventions) (first second : String) :
    Table.closeReferences conventions (quotedTables first second) = quotedTables first second := by
  have hrecord : ¬ Kind.record = Kind.array := by decide
  have hinteger : ¬ Kind.integer = Kind.array := by decide
  simp [Table.closeReferences, quotedTables, Table.declaredNames, Field.dropDangling,
    Field.typeVector, hrecord, hinteger]

/-! ## The query -/

/-- The query selects the field behind the pointer. -/
theorem parse_quotedQuery (hfirst : Ddl.IsWordName first.toList) :
    Query.parse (quotedQuery first) =
      { kind := .select
        tables := [first]
        selections := [.mk "f" [.leaf "g"]]
        conditions := []
        modifiers := [.limit 1]
        returnsMany := false } := by
  have htext : quotedQuery first = String.ofList
      (Query.headWith [["f", "g"]] (Token.backticked first.toList) ++ " LIMIT 1".toList) := by
    have hselect : "SELECT f.g FROM `".toList = "SELECT".toList ++ ' ' ::
        (Query.listText [Query.pathText ["f", "g"]] ++ ' ' :: ("FROM".toList ++ [' ', '`'])) := by
      decide +kernel
    have hlimit : "` LIMIT 1".toList = '`' :: " LIMIT 1".toList := by decide +kernel
    apply String.toList_inj.mp
    refine Eq.trans ?_ String.toList_ofList.symm
    unfold quotedQuery
    rw [String.toList_append, String.toList_append, hselect, hlimit]
    unfold Query.headWith Token.backticked
    simp only [List.map_cons, List.map_nil, List.append_assoc, List.cons_append, List.nil_append]
  have hf : Query.IsName "f" := Query.isName_of_isBareName (by decide)
  have hg : Query.IsName "g" := Query.isName_of_isBareName (by decide)
  have hpaths : ∀ path ∈ [["f", "g"]], Query.IsPath path := by
    intro path hpath
    rw [List.mem_singleton.mp hpath]
    refine Or.inr ⟨"f", ["g"], rfl, hf, fun segment hsegment => ?_⟩
    rw [List.mem_singleton.mp hsegment]
    exact Or.inr hg
  rw [htext, Query.parse_single (List.cons_ne_nil _ _) hpaths
    (Query.isTable_backticked (isName_of_isWordName hfirst))]
  rfl

/-- From the tables that are meant the query gets the field of the second one. -/
theorem answerShape_quotedTables (hfirst : Ddl.IsWordName first.toList)
    (hne : lowerName first ≠ lowerName second) :
    (Catalog.ofTables (quotedTables first second)).answerShape (Query.parse (quotedQuery first)) =
      .struct [("f", .struct [("g", .scalar .integer)])] := by
  have hnodup : (Table.declaredNames (quotedTables first second)).Nodup := by
    simpa [Table.declaredNames, quotedTables] using hne
  have hlayout := Catalog.layout?_ofTables_of_nodup hnodup
  have hnonempty : first ≠ "" := by
    rintro rfl
    exact hfirst.1 rfl
  let catalog := Catalog.ofTables (quotedTables first second)
  let source : Layout := ⟨first, [("f", ⟨"f", .record, false, some ⟨second, false⟩⟩)]⟩
  let target : Layout := ⟨second, [("g", ⟨"g", .integer, false, none⟩)]⟩
  have hsource : catalog.layout? first = some source := by
    rw [hlayout]
    simp [quotedTables, Table.isNamed, source, Layout.ofTable, Column.ofField, Entries.ofList,
      Entries.putAll, Entries.put]
  have htarget : catalog.layout? second = some target := by
    rw [hlayout]
    simp [quotedTables, Table.isNamed, hne, target, Layout.ofTable, Column.ofField, Entries.ofList,
      Entries.putAll, Entries.put]
  have hqueried : ∀ query : Query, query.table? = some first →
      catalog.queried? query = some source := by
    intro query hquery
    rw [catalog.queried?_eq_layout? hquery hnonempty, hsource]
  have hf : "f" ≠ "*" := by decide
  have hg : "g" ≠ "*" := by decide
  have hpointed : catalog.target? ⟨"f", .record, false, some ⟨second, false⟩⟩ = some target :=
    htarget
  have hnumber : Entries.get? "g" target.columns = some ⟨"g", .integer, false, none⟩ := rfl
  have hselect : catalog.select source [.mk "f" [.leaf "g"]] =
      [("f", .struct [("g", .scalar .integer)])] :=
    catalog.select_subfields [] hf hg rfl hpointed hnumber
  rw [parse_quotedQuery hfirst, catalog.answerShape_single rfl (hqueried _ rfl) rfl, hselect]

/-- What a schema is made of once its tables are closed. -/
theorem ofDocument_eq {conventions : Conventions} {document : String} {closed : List Table}
    (h : Table.closeReferences conventions (Ddl.parse document) = closed) :
    ofDocument conventions document = ⟨closed, Catalog.ofTables closed⟩ := by
  rw [← h]
  rfl

/-- Every table of a schema is named by a word, if the schema is one of a document. -/
theorem isWordName_of_mem_ofDocument {conventions : Conventions} {document : String} {table : Table}
    (h : table ∈ (ofDocument conventions document).tables) : Ddl.IsWordName table.name.toList := by
  obtain ⟨old, hold, rfl⟩ := List.mem_map.mp h
  show Ddl.IsWordName old.name.toList
  exact Ddl.isWordName_of_mem_parse hold

/-- **The document, its types and queries agree on two names exactly if both are words and the
second one does not end the text of a type.** -/
theorem namesAgree_iff (conventions : Conventions) (hfirst : IsDashed first.toList)
    (hsecond : IsDashed second.toList) (hne : lowerName first ≠ lowerName second) :
    NamesAgree conventions first second ↔
      '-' ∉ first.toList ∧ '-' ∉ second.toList ∧ Ddl.KeepsType second := by
  constructor
  · intro hagree
    have hwords : ∀ table ∈ quotedTables first second, Ddl.IsWordName table.name.toList := by
      intro table htable
      rw [← hagree.tables] at htable
      exact isWordName_of_mem_ofDocument htable
    have hfirstWord : Ddl.IsWordName first.toList := hwords _ List.mem_cons_self
    have hsecondWord : Ddl.IsWordName second.toList :=
      hwords _ (List.mem_cons_of_mem _ List.mem_cons_self)
    refine ⟨dash_not_mem hfirstWord, dash_not_mem hsecondWord, ?_⟩
    -- The field of the first table points at the second one, so its type was read to the end.
    have htables := hagree.tables
    rw [ofDocument_eq rfl, parse_quotedDocument hfirstWord hsecondWord hne] at htables
    have hfield := congrArg (fun tables => tables.head?.bind fun table => table.fields.head?)
      htables
    have hreference := congrArg Field.reference (Option.some.inj hfield)
    exact (Ddl.reference_pointerType_iff "f" hsecondWord).mp (Field.reference_of_closed hreference)
  · rintro ⟨hfirstDash, hsecondDash, hkeeps⟩
    have hfirstWord := hfirst.isWordName hfirstDash
    have hsecondWord := hsecond.isWordName hsecondDash
    have hparse := parse_quotedDocument hfirstWord hsecondWord hne
    rw [Ddl.fieldOfClauses_pointerType "f" hsecondWord hkeeps] at hparse
    have hclosed : ofDocument conventions (quotedDocument first second) =
        ⟨quotedTables first second, Catalog.ofTables (quotedTables first second)⟩ := by
      apply ofDocument_eq
      rw [hparse]
      exact closeReferences_quotedTables conventions first second
    constructor
    · rw [hclosed]
    · rw [hclosed]
      exact answerShape_quotedTables hfirstWord hne

/-- Of two words one may start with the other. -/
theorem namesAgree_iff_user :
    IsDashed "user".toList ∧ IsDashed "User_2".toList ∧ lowerName "user" ≠ lowerName "User_2" ∧
      NamesAgree .standard "user" "User_2" := by
  have hfirst : IsDashed "user".toList := by decide
  have hsecond : IsDashed "User_2".toList := by decide
  have hne : lowerName "user" ≠ lowerName "User_2" := by decide +kernel
  have hcondition : '-' ∉ "user".toList ∧ '-' ∉ "User_2".toList ∧ Ddl.KeepsType "User_2" := by
    decide
  exact ⟨hfirst, hsecond, hne, (namesAgree_iff .standard hfirst hsecond hne).mpr hcondition⟩

/-- Two names with dashes are both cut off at the dash in a document, so they become one table. -/
theorem not_namesAgree_dashes :
    IsDashed "user-a".toList ∧ IsDashed "user-b".toList ∧
      lowerName "user-a" ≠ lowerName "user-b" ∧
      (ofDocument .standard (quotedDocument "user-a" "user-b")).tableNames = ["user"] ∧
      ¬ NamesAgree .standard "user-a" "user-b" := by
  have hnames : (ofDocument .standard (quotedDocument "user-a" "user-b")).tableNames =
      ["user"] := by
    decide +kernel
  refine ⟨by decide, by decide, by decide +kernel, hnames, fun hagree => ?_⟩
  unfold tableNames at hnames
  rw [hagree.tables] at hnames
  contradiction

end Schema
end SurrealSchema
