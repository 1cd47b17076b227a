import SurrealSchema.Proofs.Info.Keyed
import SurrealSchema.Proofs.Schema

namespace SurrealSchema

/-!
# Tables of a schema and of its catalog

A schema keeps its tables in a list, where the first one of a name is found, and in a catalog, where
the last one is.  The two agree exactly when the names of the tables differ even with case ignored.
A document always gives such tables.  Responses give one table for every entry, so a database with
two tables whose names differ in case alone is described in two ways.
-/

namespace Schema

/-! ## Tables before they are closed -/

/-- The tables that a source gives. -/
def Source.tablesIn (conventions : Conventions) : Source → Except Failure (List Table)
  | document text => .ok (Ddl.parse text)
  | tables given => .ok given
  | responses database found => Info.tables conventions database found
  | provider asked => (Info.fetch conventions asked).map Info.Fetched.result

theorem Source.build_eq (source : Source) (conventions : Conventions) :
    source.build conventions = (source.tablesIn conventions).map (ofTables conventions) := by
  cases source with
  | document text => rfl
  | tables given => rfl
  | responses database found => rfl
  | provider asked =>
      show ofProvider conventions asked =
        ((Info.fetch conventions asked).map Info.Fetched.result).map (ofTables conventions)
      unfold ofProvider
      cases Info.fetch conventions asked <;> rfl

/-- Whether the maps that a source is made of hold every name once.  A document holds no maps. -/
def Source.IsKeyed : Source → Prop
  | document _ | tables _ => True
  | responses _ found => found.isKeyed = true
  | provider asked => asked.IsKeyed

/-- However tables are described, the names of the fields of a table differ. -/
theorem Source.nodup_fieldNames {source : Source} (hdescribed : source.isDescribed = true)
    (hkeyed : source.IsKeyed) {conventions : Conventions} {given : List Table}
    (h : source.tablesIn conventions = .ok given) :
    ∀ table ∈ given, table.fieldNames.Nodup := by
  cases source with
  | document text =>
      rw [← Except.ok.inj h]
      intro table htable
      have hsound := (Ddl.State.wellFormed_run (Ddl.logicalLines text)).close
      exact (hsound.tables table htable).fieldNames
  | tables given => contradiction
  | responses database found =>
      exact Info.nodup_fieldNames_of_tablesOf (.of_isKeyed hkeyed) h
  | provider asked =>
      simp only [tablesIn] at h
      cases hfetched : Info.fetch conventions asked with
      | error failure =>
          rw [hfetched] at h
          contradiction
      | ok fetched =>
          rw [hfetched] at h
          rw [← Except.ok.inj h]
          exact Info.nodup_fieldNames_of_fetch hkeyed hfetched

/-- The names of the tables that a document defines differ with case ignored. -/
theorem nodup_declaredNames_parse (text : String) :
    (Table.declaredNames (Ddl.parse text)).Nodup := by
  have hsound := (Ddl.State.wellFormed_run (Ddl.logicalLines text)).close
  have hnames := hsound.names
  rwa [List.map_map] at hnames

/-! ## Agreement -/

/-- The tables of a schema and those in its catalog are the same: they are found under the same
names, those that are found have the same name and the same columns in the same order, and they are
listed alike. -/
structure MatchesCatalog (schema : Schema) : Prop where
  known : ∀ name, (∃ table, schema.table name = .ok table) ↔ schema.catalog.contains name = true
  same : ∀ name table, schema.table name = .ok table →
    ∃ layout, schema.catalog.layout? name = some layout ∧ layout.name = table.name ∧
      layout.columns = table.fields.map fun field => (field.name, Column.ofField field)
  names : schema.tableNames = schema.catalog.tableNames

/-- Tables whose fields have different names match their catalog exactly when their own names differ
with case ignored. -/
theorem matchesCatalog_ofTables_iff (conventions : Conventions) {given : List Table}
    (hfields : ∀ table ∈ given, table.fieldNames.Nodup) :
    (ofTables conventions given).MatchesCatalog ↔ (Table.declaredNames given).Nodup := by
  have hclosed : Table.declaredNames (Table.closeReferences conventions given) =
      Table.declaredNames given := Table.declaredNames_closeReferences conventions given
  constructor
  · intro hmatch
    have hnodup := Catalog.nodup_tableNames_ofTables (Table.closeReferences conventions given)
    have hnames : (Catalog.ofTables (Table.closeReferences conventions given)).tableNames =
        (Table.closeReferences conventions given).map Table.name := hmatch.names.symm
    rw [hnames, List.map_map] at hnodup
    rwa [← hclosed]
  · intro hnodup
    rw [← hclosed] at hnodup
    constructor
    case known =>
      intro name
      rw [exists_table_iff]
      exact (Catalog.isSome_layout?_ofTables_iff _ name).symm
    case same =>
      intro name table htable
      have hfound : (Table.closeReferences conventions given).find? (Table.isNamed name) =
          some table := by
        simp only [Schema.table, ofTables] at htable
        split at htable
        · next found heq => rw [heq, Except.ok.inj htable]
        · contradiction
      obtain ⟨old, hold, hnames⟩ :=
        Table.fieldNames_of_mem_closeReferences (List.mem_of_find?_eq_some hfound)
      refine ⟨Layout.ofTable table, ?_, rfl, ?_⟩
      · show (Catalog.ofTables (Table.closeReferences conventions given)).layout? name = _
        rw [Catalog.layout?_ofTables_of_nodup hnodup, hfound, Option.map_some]
      · apply Layout.columns_ofTable_of_nodup
        rw [hnames]
        exact hfields old hold
    case names =>
      exact (Catalog.tableNames_ofTables_of_nodup hnodup).symm

/-- **When a schema and its catalog agree.**  However the tables of a schema are described, the
schema finds and lists the tables of its catalog exactly if the names of its tables differ with
case ignored; and if they come from a document, it does. -/
theorem matchesCatalog_iff_of_build {source : Source} {conventions : Conventions} {schema : Schema}
    (h : source.build conventions = .ok schema) (hdescribed : source.isDescribed = true)
    (hkeyed : source.IsKeyed) :
    (schema.MatchesCatalog ↔ (Table.declaredNames schema.tables).Nodup) ∧
      (∀ text, source = .document text → schema.MatchesCatalog) := by
  rw [Source.build_eq] at h
  cases hgiven : source.tablesIn conventions with
  | error failure =>
      rw [hgiven] at h
      contradiction
  | ok given =>
      rw [hgiven] at h
      obtain rfl : ofTables conventions given = schema := Except.ok.inj h
      have hiff := matchesCatalog_ofTables_iff conventions
        (Source.nodup_fieldNames hdescribed hkeyed hgiven)
      constructor
      · show _ ↔ (Table.declaredNames (Table.closeReferences conventions given)).Nodup
        rw [Table.declaredNames_closeReferences]
        exact hiff
      · rintro text rfl
        rw [hiff, ← Except.ok.inj hgiven]
        exact nodup_declaredNames_parse text

/-- A store whose tables have names that differ in more than case, and a field whose pointer is
dropped. -/
def Source.shop : Source :=
  .responses
    (.map [("tables", .map [("Order", .text "DEFINE TABLE Order"),
      ("item", .text "DEFINE TABLE item")])])
    (.map [
      ("Order", .map [("fields", .map [
        ("lines", .text "DEFINE FIELD lines ON Order TYPE array<record<ITEM>>"),
        ("buyer", .text "DEFINE FIELD buyer ON Order TYPE option<record<person>>")])]),
      ("item", .map [("fields", .map [
        ("price", .map [("type", .text "decimal")])])])])

theorem matchesCatalog_iff_of_build_shop :
    ∃ schema, Source.shop.build .standard = .ok schema ∧
      schema.tableNames = ["Order", "item"] ∧ schema.MatchesCatalog := by
  have hnames : (Source.shop.build .standard).toOption.map (fun schema =>
      (schema.tableNames, Table.declaredNames schema.tables)) =
        some (["Order", "item"], ["order", "item"]) := by
    decide +kernel
  have hkeyed : Source.shop.IsKeyed := by
    show Value.isKeyed _ = true
    decide +kernel
  cases hbuild : Source.shop.build .standard with
  | error failure =>
      rw [hbuild] at hnames
      contradiction
  | ok schema =>
      rw [hbuild] at hnames
      obtain ⟨hlisted, hdeclared⟩ := Prod.mk.inj (Option.some.inj hnames)
      refine ⟨schema, rfl, hlisted, ?_⟩
      apply (matchesCatalog_iff_of_build hbuild rfl hkeyed).1.mpr
      rw [hdeclared]
      decide

/-- A store with two tables whose names differ in case alone. -/
def Source.twoCases : Source :=
  .responses
    (.map [("tables", .map [("User", .text "DEFINE TABLE User"),
      ("user", .text "DEFINE TABLE user")])])
    (.map [
      ("User", .map [("fields", .map [("name", .text "DEFINE FIELD name ON User TYPE string")])]),
      ("user", .map [("fields", .map [("age", .text "DEFINE FIELD age ON user TYPE int")])])])

/-- Of two tables whose names differ in case alone, the schema lists both and finds the first one
under either name, while its catalog only has the second one. -/
theorem not_matchesCatalog_twoCases :
    Source.twoCases.IsKeyed ∧
      ∃ schema, Source.twoCases.build .standard = .ok schema ∧
        schema.tableNames = ["User", "user"] ∧ schema.catalog.tableNames = ["user"] ∧
        (schema.table "user").toOption.map Table.fieldNames = some ["name"] ∧
        (schema.catalog.layout? "user").map (Entries.names ∘ Layout.columns) = some ["age"] ∧
        ¬ schema.MatchesCatalog := by
  have hshown : (Source.twoCases.build .standard).toOption.map (fun schema =>
      (schema.tableNames, schema.catalog.tableNames,
        (schema.table "user").toOption.map Table.fieldNames,
        (schema.catalog.layout? "user").map (Entries.names ∘ Layout.columns))) =
        some (["User", "user"], ["user"], some ["name"], some ["age"]) := by
    decide +kernel
  constructor
  · show Value.isKeyed _ = true
    decide +kernel
  · cases hbuild : Source.twoCases.build .standard with
    | error failure =>
        rw [hbuild] at hshown
        contradiction
    | ok schema =>
        rw [hbuild] at hshown
        simp only [Except.toOption, Option.map_some, Option.some.injEq, Prod.mk.injEq] at hshown
        obtain ⟨hlisted, hregistered, hfound, hlayout⟩ := hshown
        refine ⟨schema, rfl, hlisted, hregistered, hfound, hlayout, ?_⟩
        intro hmatch
        have hnames := hmatch.names
        rw [hlisted, hregistered] at hnames
        contradiction

end Schema
end SurrealSchema
