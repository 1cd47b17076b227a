import Mathlib.Data.List.Nodup
import SurrealSchema.Proofs.Entries
import SurrealSchema.Shape.OfQuery

namespace SurrealSchema

/-!
# Registering tables

A catalog keeps of the tables registered in it, in however many calls, the last one of each name in
the place of the first one, and a layout keeps the columns of a table in the same way.  Answers only
depend on which table is found under which name, so where the names differ the order of registration
does not matter to them.

Main statement: `Catalog.after_history`.
-/

/-- A layout holds the last field of each name in the place of the first one. -/
theorem Layout.columns_ofTable (table : Table) :
    (ofTable table).columns =
      (Entries.lastOfEach Field.name table.fields).map fun field =>
        (field.name, Column.ofField field) :=
  Entries.ofList_map_key Field.name Column.ofField table.fields

/-! ## Histories of registrations -/

/-- A call that registers tables. -/
inductive Registration where
  | one (table : Table)
  | several (tables : List Table)

namespace Registration

/-- The tables that a call registers, in order. -/
def tables : Registration → List Table
  | one table => [table]
  | several tables => tables

/-- The catalog after a call. -/
def apply (catalog : Catalog) : Registration → Catalog
  | one table => catalog.register table
  | several tables => catalog.registerAll tables

/-- A call registers its tables one by one. -/
theorem apply_eq_registerAll (catalog : Catalog) (call : Registration) :
    call.apply catalog = catalog.registerAll call.tables := by
  cases call <;> rfl

end Registration

namespace Catalog

/-- The catalog after some calls, one after the other. -/
def after (catalog : Catalog) (history : List Registration) : Catalog :=
  history.foldl Registration.apply catalog

/-- However tables are divided into calls, they are registered one by one. -/
theorem after_eq_registerAll (catalog : Catalog) (history : List Registration) :
    catalog.after history = catalog.registerAll (history.flatMap Registration.tables) := by
  induction history generalizing catalog with
  | nil => rfl
  | cons call history ih =>
      calc catalog.after (call :: history)
        _ = (call.apply catalog).after history := rfl
        _ = (catalog.registerAll call.tables).registerAll
              (history.flatMap Registration.tables) := by rw [ih, call.apply_eq_registerAll]
        _ = catalog.registerAll (call.tables ++ history.flatMap Registration.tables) :=
            List.foldl_append.symm
        _ = catalog.registerAll ((call :: history).flatMap Registration.tables) := by
            rw [List.flatMap_cons]

/-- The key of a table in a catalog. -/
def key (table : Table) : String :=
  lowerName table.name

theorem layouts_ofTables_eq_map (tables : List Table) :
    (ofTables tables).layouts =
      (Entries.lastOfEach key tables).map fun table => (key table, Layout.ofTable table) := by
  rw [layouts_ofTables]
  exact Entries.ofList_map_key key Layout.ofTable tables

/-- The last table of a name is found. -/
theorem layout?_ofTables (tables : List Table) (name : String) :
    (ofTables tables).layout? name =
      (tables.reverse.find? (Table.isNamed name)).map Layout.ofTable := by
  rw [layout?, layouts_ofTables, Entries.get?_ofList, ← List.map_reverse, Entries.get?_map]
  rfl

/-- A catalog is the ordered map of some tables by their lower-case names: it has one entry for each
name, in the place where the name first comes and with what its last table says. -/
structure IsOrderedMapOf (catalog : Catalog) (tables : List Table) : Prop where
  layouts : catalog.layouts =
    (Entries.lastOfEach key tables).map fun table => (key table, Layout.ofTable table)
  keys : (Entries.lastOfEach key tables).map key = (Table.declaredNames tables).eraseDups
  columns : ∀ table ∈ tables, (Layout.ofTable table).columns =
    (Entries.lastOfEach Field.name table.fields).map fun field =>
      (field.name, Column.ofField field)
  size : catalog.size = (Table.declaredNames tables).eraseDups.length
  contains : ∀ name, (catalog.contains name = true ↔ ∃ layout, catalog.layout? name = some layout) ∧
    (catalog.contains name = true ↔ lowerName name ∈ Table.declaredNames tables)
  found : ∀ name, catalog.layout? name =
    (tables.reverse.find? (Table.isNamed name)).map Layout.ofTable
  tableNames : catalog.tableNames = (Entries.lastOfEach key tables).map Table.name

/-- The catalog of some tables is the ordered map of them. -/
theorem isOrderedMapOf_ofTables (tables : List Table) :
    (ofTables tables).IsOrderedMapOf tables where
  layouts := layouts_ofTables_eq_map tables
  keys := Entries.map_key_lastOfEach key tables
  columns := fun table _ => Layout.columns_ofTable table
  size := by
    have hkeys : (Table.declaredNames tables).eraseDups = (Entries.lastOfEach key tables).map key :=
      (Entries.map_key_lastOfEach key tables).symm
    rw [size, layouts_ofTables_eq_map, hkeys, List.length_map, List.length_map]
  contains := fun name =>
    ⟨Option.isSome_iff_exists, isSome_layout?_ofTables_iff tables name⟩
  found := layout?_ofTables tables
  tableNames := by
    rw [tableNames, layouts_ofTables_eq_map, Entries.values, List.map_map, List.map_map]
    rfl

/-! ## Tables found alike -/

/-- Two catalogs answer every question about their tables alike. -/
structure AnswersAlike (catalog other : Catalog) : Prop where
  layout : ∀ name, catalog.layout? name = other.layout? name
  path : ∀ table path, catalog.resolve? table path = other.resolve? table path
  links : ∀ table, catalog.links table = other.links table
  shape : ∀ query, catalog.answerShape query = other.answerShape query

section FoundAlike

variable {catalog other : Catalog} (h : ∀ name, catalog.layout? name = other.layout? name)
include h

theorem target?_of_layout? (column : Column) : catalog.target? column = other.target? column := by
  unfold target?
  simp only [h]

theorem follow?_of_layout? (layout : Layout) (path : List String) :
    catalog.follow? layout path = other.follow? layout path := by
  induction path generalizing layout with
  | nil => rfl
  | cons name path ih =>
      cases path with
      | nil => rfl
      | cons next path =>
          have htarget : catalog.target? = other.target? := funext (target?_of_layout? h)
          simp only [follow?, htarget, ih]

theorem behind_of_layout? (column : Column) {select others : Layout → Entries Shape}
    (hselect : ∀ target, select target = others target) :
    catalog.behind column select = other.behind column others := by
  unfold behind
  rw [target?_of_layout? h, funext hselect]

omit h in
mutual

/-- What is selected depends on the tables that are found. -/
theorem pick_of_layout? (h : ∀ name, catalog.layout? name = other.layout? name) :
    (selections : List Selection) → (layout : Layout) → (found : Entries Shape) →
      catalog.pick selections layout found = other.pick selections layout found
  | [], layout, found => by rw [pick, pick]
  | selection :: selections, layout, found => by
      rw [pick, pick, pickOne_of_layout? h selection layout found,
        pick_of_layout? h selections layout]

theorem pickOne_of_layout? (h : ∀ name, catalog.layout? name = other.layout? name) :
    (selection : Selection) → (layout : Layout) → (found : Entries Shape) →
      catalog.pickOne selection layout found = other.pickOne selection layout found
  | .mk field nested, layout, found => by
      have hbehind : ∀ column, (catalog.behind column fun target => catalog.pick nested target []) =
          other.behind column fun target => other.pick nested target [] := fun column =>
        behind_of_layout? h column fun target => pick_of_layout? h nested target []
      rw [pickOne, pickOne]
      simp only [hbehind]

end

theorem select_of_layout? (layout : Layout) (selections : List Selection) :
    catalog.select layout selections = other.select layout selections := by
  have hexpansion : ∀ column nested, catalog.expansion column nested =
      other.expansion column nested := fun column nested =>
    behind_of_layout? h column fun target => pick_of_layout? h nested target []
  have hexpand : catalog.expandIn layout = other.expandIn layout := by
    funext found selection
    unfold expandIn
    simp only [hexpansion]
  unfold select
  rw [hexpand, pick_of_layout? h]

/-- **Catalogs that find the same tables under every name answer alike.** -/
theorem answersAlike_of_layout? : catalog.AnswersAlike other where
  layout := h
  path := by
    intro table path
    unfold resolve?
    rw [h, funext fun layout => follow?_of_layout? h layout path]
  links := by
    intro table
    unfold links
    rw [h]
  shape := by
    intro query
    unfold answerShape queried?
    simp only [funext h, select_of_layout? h]

end FoundAlike

/-! ## The order of registration -/

/-- Of tables whose names differ with case ignored, the same one is found in any order. -/
theorem layout?_ofTables_perm {tables others : List Table} (hperm : tables.Perm others)
    (hnodup : (Table.declaredNames tables).Nodup) (name : String) :
    (ofTables tables).layout? name = (ofTables others).layout? name := by
  have hothers : (Table.declaredNames others).Nodup := (hperm.map key).nodup_iff.mp hnodup
  rw [layout?_ofTables_of_nodup hnodup, layout?_ofTables_of_nodup hothers]
  congr 1
  cases hfound : tables.find? (Table.isNamed name) with
  | none =>
      rw [List.find?_eq_none] at hfound
      symm
      exact List.find?_eq_none.mpr fun table htable => hfound table (hperm.mem_iff.mpr htable)
  | some table =>
      obtain ⟨other, hother⟩ := Option.isSome_iff_exists.mp (List.find?_isSome.mpr
        ⟨table, hperm.mem_iff.mp (List.mem_of_find?_eq_some hfound), List.find?_some hfound⟩)
      rw [hother]
      -- Both have the name, and no two tables do.
      have hkeys : key table = key other := by
        have htable := List.find?_some hfound
        have hfirst := List.find?_some hother
        rw [Table.isNamed, decide_eq_true_eq] at htable hfirst
        exact htable.trans hfirst.symm
      exact congrArg some (List.inj_on_of_nodup_map hothers
        (hperm.mem_iff.mp (List.mem_of_find?_eq_some hfound)) (List.mem_of_find?_eq_some hother)
        hkeys)

/-- **A catalog is the ordered map of the tables registered in it.**  However these are divided into
calls, they are registered one by one; the catalog has one entry for each name, in the place of its
first table and with what its last one says; and if the names differ with case ignored, every
question is answered alike in whatever order, and by whatever calls, the tables are registered. -/
theorem after_history (history : List Registration) :
    empty.after history = (history.flatMap Registration.tables).foldl register empty ∧
    (empty.after history).IsOrderedMapOf (history.flatMap Registration.tables) ∧
    ∀ other : List Registration,
      (history.flatMap Registration.tables).Perm (other.flatMap Registration.tables) →
      (Table.declaredNames (history.flatMap Registration.tables)).Nodup →
      (empty.after history).AnswersAlike (empty.after other) := by
  have hafter : ∀ history, empty.after history =
      ofTables (history.flatMap Registration.tables) := after_eq_registerAll empty
  refine ⟨hafter history, ?_, ?_⟩
  · rw [hafter]
    exact isOrderedMapOf_ofTables _
  · intro other hperm hnodup
    rw [hafter, hafter]
    exact answersAlike_of_layout? (layout?_ofTables_perm hperm hnodup)

/-- Three tables that point at each other around a circle, registered in two orders and by
different calls; `Post` is found under any case. -/
theorem after_history_circle :
    let user : Table := ⟨"user", none,
      [⟨"posts", .references, true, none, none, some ⟨"post", true⟩⟩,
        ⟨"name", .string, false, none, none, none⟩]⟩
    let post : Table := ⟨"Post", none,
      [⟨"author", .record, false, none, none, some ⟨"USER", false⟩⟩,
        ⟨"tags", .arrayOfRecord, false, none, none, some ⟨"tag", false⟩⟩]⟩
    let tag : Table := ⟨"tag", none,
      [⟨"posts", .references, false, none, none, some ⟨"post", false⟩⟩]⟩
    let history : List Registration := [.several [user, post], .one tag]
    let other : List Registration := [.one tag, .several [], .several [post, user]]
    (history.flatMap Registration.tables).Perm (other.flatMap Registration.tables) ∧
      (Table.declaredNames (history.flatMap Registration.tables)).Nodup ∧
      (empty.after history).tableNames ≠ (empty.after other).tableNames ∧
      (empty.after history).AnswersAlike (empty.after other) := by
  intro user post tag history other
  have hperm : (history.flatMap Registration.tables).Perm (other.flatMap Registration.tables) := by
    decide +kernel
  have hnodup : (Table.declaredNames (history.flatMap Registration.tables)).Nodup := by
    decide +kernel
  exact ⟨hperm, hnodup, by decide +kernel, (after_history history).2.2 other hperm hnodup⟩

/-- A name keeps its place and takes the spelling and the fields of its last table. -/
example :
    let first : Table := ⟨"User", none, [⟨"a", .string, false, none, none, none⟩]⟩
    let second : Table := ⟨"post", none, []⟩
    let third : Table := ⟨"USER", none,
      [⟨"b", .string, false, none, none, none⟩, ⟨"c", .string, false, none, none, none⟩,
        ⟨"b", .integer, false, none, none, none⟩]⟩
    let catalog := empty.after [.several [first, second], .one third]
    catalog.tableNames = ["USER", "post"] ∧ (catalog.layout? "user").map Layout.columns =
      some [("b", ⟨"b", .integer, false, none⟩), ("c", ⟨"c", .string, false, none⟩)] := by
  decide +kernel

end Catalog
end SurrealSchema
