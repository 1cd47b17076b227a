import SurrealSchema.Catalog
import SurrealSchema.Closure

namespace SurrealSchema

/-!
# What a catalog holds

A catalog of tables holds a layout of one of the tables under every name, and it holds one under the
name of each table, with case ignored.  Of tables that share a name only the last one is kept.
-/

/-! ## Written entries -/

namespace Entries

variable {α : Type}

/-- A value that is found under a name is one of the entries. -/
theorem mem_of_get? {name : String} {value : α} {entries : Entries α}
    (h : get? name entries = some value) : (name, value) ∈ entries := by
  induction entries with
  | nil => contradiction
  | cons entry entries ih =>
      obtain ⟨other, old⟩ := entry
      by_cases hname : other = name
      · subst hname
        simp [get?] at h
        simp [h]
      · simp [get?, hname] at h
        exact List.mem_cons_of_mem _ (ih h)

/-- Writing an entry adds nothing but that entry. -/
theorem mem_put {name : String} {value : α} {entries : Entries α} {entry : String × α}
    (h : entry ∈ put name value entries) : entry = (name, value) ∨ entry ∈ entries := by
  induction entries with
  | nil => exact Or.inl (List.mem_singleton.mp h)
  | cons first entries ih =>
      obtain ⟨other, old⟩ := first
      by_cases hname : other = name
      · simp only [put, hname, if_true, List.mem_cons] at h
        exact h.imp_right (List.mem_cons_of_mem _)
      · simp only [put, hname, if_false, List.mem_cons] at h
        rcases h with rfl | h
        · exact Or.inr List.mem_cons_self
        · exact (ih h).imp_right (List.mem_cons_of_mem _)

theorem mem_putAll {entries more : Entries α} {entry : String × α}
    (h : entry ∈ putAll entries more) : entry ∈ entries ∨ entry ∈ more := by
  induction more generalizing entries with
  | nil => exact Or.inl h
  | cons next more ih =>
      rcases ih h with hput | hmore
      · rcases mem_put hput with rfl | hold
        · exact Or.inr List.mem_cons_self
        · exact Or.inl hold
      · exact Or.inr (List.mem_cons_of_mem _ hmore)

theorem mem_ofList {pairs : List (String × α)} {entry : String × α} (h : entry ∈ ofList pairs) :
    entry ∈ pairs :=
  (mem_putAll h).resolve_left (List.not_mem_nil)

/-- Under a new name a value is written at the end. -/
theorem put_of_fresh {name : String} {entries : Entries α} (h : name ∉ names entries) (value : α) :
    put name value entries = entries ++ [(name, value)] := by
  induction entries with
  | nil => rfl
  | cons first entries ih =>
      have hne : first.1 ≠ name ∧ name ∉ names entries := by
        simpa [names, eq_comm] using h
      simp [put, hne.1, ih hne.2]

/-- Entries under names that are new and differ are all added at the end. -/
theorem putAll_of_nodup {entries more : Entries α} (h : (names (entries ++ more)).Nodup) :
    putAll entries more = entries ++ more := by
  induction more generalizing entries with
  | nil => exact (List.append_nil entries).symm
  | cons next more ih =>
      have hsplit : names (entries ++ next :: more) = names entries ++ next.1 :: names more := by
        simp [names]
      have hfresh : next.1 ∉ names entries := by
        rw [hsplit, List.nodup_append] at h
        intro hmem
        exact h.2.2 next.1 hmem next.1 List.mem_cons_self rfl
      calc putAll entries (next :: more)
        _ = putAll (put next.1 next.2 entries) more := rfl
        _ = putAll (entries ++ [next]) more := by rw [put_of_fresh hfresh]
        _ = entries ++ [next] ++ more := ih (by simpa using h)
        _ = entries ++ next :: more := by simp

/-- A list that does not repeat a name is the entries that it gives. -/
theorem ofList_of_nodup {pairs : List (String × α)} (h : (names pairs).Nodup) :
    ofList pairs = pairs :=
  putAll_of_nodup h

/-- Of items under their keys, the first one with the key is found. -/
theorem get?_map {ι : Type} (key : ι → String) (value : ι → α) (items : List ι) (name : String) :
    get? name (items.map fun item => (key item, value item)) =
      (items.find? fun item => key item = name).map value := by
  induction items with
  | nil => rfl
  | cons first items ih =>
      by_cases h : key first = name
      · simp [get?, h]
      · simp [get?, h, ih]

end Entries

/-! ## Layouts -/

/-- Every column of the layout of a table is that of one of its fields. -/
theorem Layout.exists_of_mem_columns {table : Table} {entry : String × Column}
    (h : entry ∈ (ofTable table).columns) :
    ∃ field ∈ table.fields, entry.2 = Column.ofField field := by
  obtain ⟨field, hfield, rfl⟩ := List.mem_map.mp (Entries.mem_ofList h)
  exact ⟨field, hfield, rfl⟩

/-- The layout of a table whose field names differ has the columns of its fields, in order. -/
theorem Layout.columns_ofTable_of_nodup {table : Table} (h : table.fieldNames.Nodup) :
    (ofTable table).columns = table.fields.map fun field => (field.name, Column.ofField field) := by
  apply Entries.ofList_of_nodup
  simpa [Entries.names, Table.fieldNames, Function.comp_def] using h

namespace Catalog

theorem exists_of_mem_registerAll {catalog : Catalog} {tables : List Table}
    {entry : String × Layout} (h : entry ∈ (catalog.registerAll tables).layouts) :
    entry ∈ catalog.layouts ∨ ∃ table ∈ tables, entry.2 = Layout.ofTable table := by
  induction tables generalizing catalog with
  | nil => exact Or.inl h
  | cons first tables ih =>
      rcases ih h with hregistered | ⟨table, htable, hentry⟩
      · rcases Entries.mem_put hregistered with rfl | hold
        · exact Or.inr ⟨first, List.mem_cons_self, rfl⟩
        · exact Or.inl hold
      · exact Or.inr ⟨table, List.mem_cons_of_mem _ htable, hentry⟩

/-- Every layout in the catalog of some tables is that of one of them. -/
theorem exists_of_mem_layouts {tables : List Table} {entry : String × Layout}
    (h : entry ∈ (ofTables tables).layouts) : ∃ table ∈ tables, entry.2 = Layout.ofTable table :=
  (exists_of_mem_registerAll h).resolve_left List.not_mem_nil

theorem mem_names_registerAll {catalog : Catalog} {tables : List Table} {name : String} :
    name ∈ Entries.names (catalog.registerAll tables).layouts ↔
      name ∈ Entries.names catalog.layouts ∨ name ∈ Table.declaredNames tables := by
  induction tables generalizing catalog with
  | nil => simp [registerAll, Table.declaredNames]
  | cons first tables ih =>
      -- A known name is written over, so no name is lost and at most one is added.
      have hregister : name ∈ Entries.names (catalog.register first).layouts ↔
          name ∈ Entries.names catalog.layouts ∨ name = lowerName first.name := by
        show name ∈ Entries.names (Entries.put _ _ _) ↔ _
        rw [Entries.names_put]
        split
        · next hknown =>
            constructor
            · exact Or.inl
            · rintro (h | rfl)
              · exact h
              · exact hknown
        · simp
      calc name ∈ Entries.names (catalog.registerAll (first :: tables)).layouts
        _ ↔ name ∈ Entries.names (catalog.register first).layouts ∨
              name ∈ Table.declaredNames tables := ih
        _ ↔ (name ∈ Entries.names catalog.layouts ∨ name = lowerName first.name) ∨
              name ∈ Table.declaredNames tables := by rw [hregister]
        _ ↔ name ∈ Entries.names catalog.layouts ∨
              name ∈ Table.declaredNames (first :: tables) := by
            simp [Table.declaredNames, or_assoc]

/-- The catalog of some tables has a table under exactly the names of the tables, case ignored. -/
theorem isSome_layout?_ofTables_iff (tables : List Table) (name : String) :
    ((ofTables tables).layout? name).isSome = true ↔
      lowerName name ∈ Table.declaredNames tables := by
  unfold layout?
  rw [Entries.isSome_get?_iff]
  show lowerName name ∈ Entries.names (empty.registerAll tables).layouts ↔ _
  rw [mem_names_registerAll]
  simp [empty, Entries.names]

/-! ## Tables of different names -/

/-- Registering tables writes their layouts under their lower-case names. -/
theorem layouts_ofTables (tables : List Table) :
    (ofTables tables).layouts =
      Entries.ofList (tables.map fun table => (lowerName table.name, Layout.ofTable table)) := by
  have hrun : ∀ catalog : Catalog, (catalog.registerAll tables).layouts =
      Entries.putAll catalog.layouts
        (tables.map fun table => (lowerName table.name, Layout.ofTable table)) := by
    induction tables with
    | nil => exact fun catalog => rfl
    | cons first tables ih => exact fun catalog => ih (catalog.register first)
  exact hrun empty

/-- The names of the tables in a catalog differ even with case ignored. -/
theorem nodup_tableNames_ofTables (tables : List Table) :
    ((ofTables tables).tableNames.map lowerName).Nodup := by
  have hnames : (ofTables tables).tableNames.map lowerName =
      Entries.names (ofTables tables).layouts := by
    unfold tableNames Entries.values Entries.names
    rw [List.map_map, List.map_map]
    apply List.map_congr_left
    intro entry hentry
    rw [layouts_ofTables] at hentry
    obtain ⟨table, -, rfl⟩ := List.mem_map.mp (Entries.mem_ofList hentry)
    rfl
  rw [hnames, layouts_ofTables]
  exact Entries.nodup_names_ofList _

section DistinctNames

variable {tables : List Table}

/-- No layout is lost if the names of the tables differ with case ignored. -/
theorem layouts_ofTables_of_nodup (h : (Table.declaredNames tables).Nodup) :
    (ofTables tables).layouts =
      tables.map fun table => (lowerName table.name, Layout.ofTable table) := by
  rw [layouts_ofTables]
  apply Entries.ofList_of_nodup
  simpa [Entries.names, Table.declaredNames, Function.comp_def] using h

theorem layout?_ofTables_of_nodup (h : (Table.declaredNames tables).Nodup) (name : String) :
    (ofTables tables).layout? name = (tables.find? (Table.isNamed name)).map Layout.ofTable := by
  rw [layout?, layouts_ofTables_of_nodup h, Entries.get?_map]
  rfl

theorem tableNames_ofTables_of_nodup (h : (Table.declaredNames tables).Nodup) :
    (ofTables tables).tableNames = tables.map Table.name := by
  rw [tableNames, layouts_ofTables_of_nodup h, Entries.values, List.map_map, List.map_map]
  rfl

end DistinctNames

end Catalog
end SurrealSchema
