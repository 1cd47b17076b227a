import SurrealSchema.Proofs.Info.Pointers
import SurrealSchema.Proofs.Shape.Links
import SurrealSchema.Schema

namespace SurrealSchema

/-!
# Schemas are closed

Whatever a schema is built from, its pointers stay within it: the pointers of its fields, the links
in the answers to queries, and the records that selections are expanded with.  Tables are compared
with case ignored when pointers are checked, when tables are looked up and when shapes are inferred,
each time by the names of the same list of tables.
-/

namespace Schema

/-! ## Sources -/

/-- What a schema is built from. -/
inductive Source where
  | document (text : String)
  | tables (given : List Table)
  | responses (database found : Value)
  | provider (asked : Info.Provider)

/-- The schema that is built from a source, if it can be used. -/
def Source.build (conventions : Conventions) : Source → Except Failure Schema
  | document text => .ok (ofDocument conventions text)
  | tables given => .ok (ofTables conventions given)
  | responses database found => ofResponses conventions database found
  | provider asked => ofProvider conventions asked

/-- Whether a source describes the types of fields by texts, instead of giving finished tables. -/
def Source.isDescribed : Source → Bool
  | tables _ => false
  | document _ | responses _ _ | provider _ => true

/-- A schema is built from tables, by closing them. -/
theorem Source.exists_of_build {source : Source} {conventions : Conventions} {schema : Schema}
    (h : source.build conventions = .ok schema) :
    ∃ tables, schema = ofTables conventions tables ∧
      (source.isDescribed = true →
        ∀ table ∈ tables, ∀ field ∈ table.fields, field.PointsByKind) := by
  cases source with
  | document text =>
      have hsound := (Ddl.State.wellFormed_run (Ddl.logicalLines text)).close
      refine ⟨Ddl.parse text, (Except.ok.inj h).symm, ?_⟩
      intro _ table htable field hfield
      exact ((hsound.tables table htable).fields field hfield).kind_of_reference
  | tables given =>
      refine ⟨given, (Except.ok.inj h).symm, ?_⟩
      intro hdescribed
      contradiction
  | responses database found =>
      simp only [build, ofResponses] at h
      cases htables : Info.tables conventions database found with
      | error failure =>
          rw [htables] at h
          contradiction
      | ok tables =>
          rw [htables] at h
          exact ⟨tables, (Except.ok.inj h).symm, fun _ => Info.pointsByKind_of_mem_tablesOf htables⟩
  | provider asked =>
      simp only [build, ofProvider] at h
      cases hfetched : Info.fetch conventions asked with
      | error failure =>
          rw [hfetched] at h
          contradiction
      | ok fetched =>
          rw [hfetched] at h
          exact ⟨fetched.result, (Except.ok.inj h).symm,
            fun _ => Info.pointsByKind_of_fetch hfetched⟩

/-! ## Closed schemas -/

/-- The pointers of a schema stay within it: those of its fields, the links at any depth of any
answer, and the records behind the fields that still point. -/
structure IsClosed (schema : Schema) : Prop where
  references : ∀ table ∈ schema.tables, ∀ field ∈ table.fields, ∀ reference,
    field.reference = some reference → ∃ target, schema.table reference.table = .ok target
  links : ∀ query name, Shape.Occurs (.recordId name) (schema.answerShape query) →
    ∃ target, schema.table name = .ok target
  expansions : ∀ table ∈ schema.tables, ∀ field ∈ table.fields, field.reference.isSome = true →
    ∀ nested, schema.catalog.expansion (Column.ofField field) nested ≠ .unknown

/-- A table is found exactly under the names of the tables, case ignored. -/
theorem exists_table_iff (schema : Schema) (name : String) :
    (∃ target, schema.table name = .ok target) ↔
      lowerName name ∈ Table.declaredNames schema.tables := by
  have hnamed : lowerName name ∈ Table.declaredNames schema.tables ↔
      ∃ table ∈ schema.tables, Table.isNamed name table = true := by
    simp [Table.declaredNames, Table.isNamed]
  rw [hnamed, ← List.find?_isSome]
  unfold table
  cases schema.tables.find? (Table.isNamed name) <;> simp

theorem exists_table_of_reference {conventions : Conventions} {tables : List Table} {table : Table}
    (htable : table ∈ (ofTables conventions tables).tables) {field : Field}
    (hfield : field ∈ table.fields) {reference : Reference}
    (hreference : field.reference = some reference) :
    ∃ target, (ofTables conventions tables).table reference.table = .ok target := by
  rw [exists_table_iff]
  exact Table.reference_mem_declaredNames htable hfield hreference

/-- The columns that shapes are inferred from point at tables of the schema. -/
theorem pointsTo_catalog (conventions : Conventions) (tables : List Table) :
    (ofTables conventions tables).catalog.PointsTo fun name =>
      ∃ target, (ofTables conventions tables).table name = .ok target := by
  intro layout hlayout column hcolumn reference hreference
  obtain ⟨table, htable, heq⟩ := Catalog.exists_of_mem_layouts hlayout
  rw [heq] at hcolumn
  obtain ⟨field, hfield, hof⟩ := Layout.exists_of_mem_columns hcolumn
  rw [hof] at hreference
  exact exists_table_of_reference htable hfield hreference

/-- A pointer whose table is registered is never answered by an unknown value. -/
theorem expansion_ne_unknown {catalog : Catalog} {column : Column} {reference : Reference}
    (hreference : column.reference = some reference)
    (hlayout : (catalog.layout? reference.table).isSome = true) (nested : List Selection) :
    catalog.expansion column nested ≠ .unknown := by
  obtain ⟨target, htarget⟩ := Option.isSome_iff_exists.mp hlayout
  have hbehind : catalog.target? column = some target := by
    rw [Catalog.target?, hreference, Option.bind_some, htarget]
  unfold Catalog.expansion Catalog.behind
  rw [hbehind]
  dsimp only
  split <;> exact Shape.noConfusion

/-- The schema of any tables is closed. -/
theorem isClosed_ofTables (conventions : Conventions) (tables : List Table) :
    (ofTables conventions tables).IsClosed where
  references := by
    intro table htable field hfield reference hreference
    exact exists_table_of_reference htable hfield hreference
  links := by
    intro query name hoccurs
    exact Catalog.linksTo_answerShape (pointsTo_catalog conventions tables) _ name hoccurs
  expansions := by
    intro table htable field hfield hsome nested
    obtain ⟨reference, hreference⟩ := Option.isSome_iff_exists.mp hsome
    apply expansion_ne_unknown hreference
    show ((Catalog.ofTables _).layout? reference.table).isSome = true
    rw [Catalog.isSome_layout?_ofTables_iff]
    exact Table.reference_mem_declaredNames htable hfield hreference

/-- **Every schema is closed.**  Whatever it is built from, as long as building succeeds; and unless
it is built from finished tables, its fields only point by their kinds. -/
theorem isClosed_of_build {source : Source} {conventions : Conventions} {schema : Schema}
    (h : source.build conventions = .ok schema) :
    schema.IsClosed ∧
      (source.isDescribed = true →
        ∀ table ∈ schema.tables, ∀ field ∈ table.fields, field.reference.isSome = true →
          field.kind = Kind.record ∨ field.kind = Kind.references ∨
            field.kind = Kind.arrayOfRecord) := by
  obtain ⟨tables, rfl, hpoints⟩ := Source.exists_of_build h
  constructor
  · exact isClosed_ofTables conventions tables
  · intro hdescribed
    exact Table.pointsByKind_closeReferences conventions (hpoints hdescribed)

/-- A store that lists posts before their authors.  The type of `author` writes the table in another
case, `parent` points back at posts, and nothing declares what `tags` and `cover` point at. -/
def Source.blog : Source :=
  .provider (.serving
    (.map [("tables", .map [("post", .text "DEFINE TABLE post"), ("_seen", .null),
      ("User", .text "DEFINE TABLE User")])])
    (.map [
      ("post", .map [("fields", .map [
        ("author", .text "DEFINE FIELD author ON post TYPE record<USER>"),
        ("parent", .text "DEFINE FIELD parent ON post TYPE option<record<Post>>"),
        ("tags", .text "DEFINE FIELD tags ON post TYPE array<record<tag>>"),
        ("cover", .map [("type", .text "record<image>"), ("optional", .bool true)])])]),
      ("User", .map [("fields", .map [
        ("posts", .text "references<post>"), ("embedding", .text "array<record<model>>")])])]))

theorem isClosed_of_build_blog :
    ∃ schema, Source.blog.build .standard = .ok schema ∧
      schema.tables.map (fun table => table.fields.map fun field => field.kind.name) =
        [["record", "record", "array", "record"], ["references", "array_of_float"]] ∧
      (schema.IsClosed ∧
        (Source.blog.isDescribed = true →
          ∀ table ∈ schema.tables, ∀ field ∈ table.fields, field.reference.isSome = true →
            field.kind = Kind.record ∨ field.kind = Kind.references ∨
              field.kind = Kind.arrayOfRecord)) := by
  have hkinds : (Source.blog.build .standard).toOption.map (fun schema =>
      schema.tables.map fun table => table.fields.map fun field => field.kind.name) =
        some [["record", "record", "array", "record"], ["references", "array_of_float"]] := by
    decide +kernel
  cases hbuild : Source.blog.build .standard with
  | error failure =>
      rw [hbuild] at hkinds
      contradiction
  | ok schema =>
      rw [hbuild] at hkinds
      exact ⟨schema, rfl, Option.some.inj hkinds, isClosed_of_build hbuild⟩

end Schema
end SurrealSchema
