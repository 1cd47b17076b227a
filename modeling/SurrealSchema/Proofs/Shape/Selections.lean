import Mathlib.Data.List.Nodup
import SurrealSchema.Proofs.Entries
import SurrealSchema.Proofs.Shape.Subfields

namespace SurrealSchema

/-!
# What a selection list shows

An answer is written selection by selection, each one writing over what is there.  Where the names
in a list differ it can be read off by two rules instead.  The names: all columns in declaration
order if the list is empty or has a star, and else the selected names that are columns, in the order
of selection.  The shapes: under every name what its selection makes of the column, which is the
struct that the same two rules give for the record behind it if there are nested selections.

Main statement: `Catalog.answerShape_eq_shown`.
-/

/-! ## Selection lists that the rules read -/

namespace Selection

/-- Whether a nested list is just a star, or has no star and different names. -/
def AreUniform (selections : List Selection) : Prop :=
  selections.map field = ["*"] ∨
    (∀ selection ∈ selections, selection.isWildcard = false) ∧ (selections.map field).Nodup

instance (selections : List Selection) : Decidable (AreUniform selections) :=
  inferInstanceAs (Decidable (_ ∨ _))

/-- Whether the nested lists of a selection are uniform at every depth. -/
inductive IsRegular : Selection → Prop
  | mk {field : String} {nested : List Selection} (hnested : AreUniform nested)
      (hdeeper : ∀ selection ∈ nested, IsRegular selection) : IsRegular (mk field nested)

/-- A field selected by itself has nothing nested that could break the rules. -/
theorem isRegular_leaf (field : String) : (leaf field).IsRegular :=
  .mk (by decide) (by simp)

end Selection

/-! ## The two rules -/

namespace Layout

/-- The names that a selection list shows. -/
def selectedNames (layout : Layout) (selections : List Selection) : List String :=
  if selections.isEmpty || selections.any Selection.isWildcard then Entries.names layout.columns
  else (selections.map Selection.field).filter fun name => name ∈ Entries.names layout.columns

/-- The columns of some names, each with a shape. -/
def row (layout : Layout) (names : List String) (shape : String → Column → Shape) :
    Entries Shape :=
  names.filterMap fun name =>
    (Entries.get? name layout.columns).map fun column => (name, shape name column)

end Layout

namespace Catalog

mutual

/-- The shape of a column under its name: what the selection of that name makes of it, if there is
one, and else that of the column by itself. -/
def shapeUnder (catalog : Catalog) (name : String) (column : Column) : List Selection → Shape
  | [] => column.shape
  | selection :: selections =>
    if selection.field = name ∧ selection.isWildcard = false then catalog.expanded column selection
    else catalog.shapeUnder name column selections

/-- What a selection makes of a column: with nested selections, the struct that they show of the
record behind it, or a list of such structs if the column is a collection. -/
def expanded (catalog : Catalog) (column : Column) : Selection → Shape
  | .mk _ nested =>
    if nested.isEmpty then column.shape
    else
      match catalog.target? column with
      | none => .unknown
      | some target =>
        around column (target.row (target.selectedNames nested) fun name column =>
          catalog.shapeUnder name column nested)

end

/-- What a selection list shows of a table. -/
def shown (catalog : Catalog) (layout : Layout) (selections : List Selection) : Entries Shape :=
  layout.row (layout.selectedNames selections) fun name column =>
    catalog.shapeUnder name column selections

end Catalog

/-! ## Rows -/

namespace Layout

variable {layout : Layout}

/-- The row of all names is made of all columns. -/
theorem row_names (hcolumns : (Entries.names layout.columns).Nodup)
    (shape : String → Column → Shape) :
    layout.row (Entries.names layout.columns) shape =
      layout.columns.map fun entry => (entry.1, shape entry.1 entry.2) := by
  conv_rhs => rw [Entries.eq_filterMap_names hcolumns, List.map_filterMap]
  unfold row
  congr 1
  funext name
  rw [Option.map_map]
  rfl

/-- The row of the selected names that are columns. -/
theorem row_filter (selections : List Selection) (shape : String → Column → Shape) :
    layout.row ((selections.map Selection.field).filter
        fun name => name ∈ Entries.names layout.columns) shape =
      selections.filterMap fun selection =>
        (Entries.get? selection.field layout.columns).map fun column =>
          (selection.field, shape selection.field column) := by
  unfold row
  rw [List.filterMap_filter, List.filterMap_map]
  congr 1
  funext selection
  dsimp only [Function.comp_apply]
  split
  · rfl
  · next hfresh =>
      rw [decide_eq_true_eq, ← Entries.isSome_get?_iff, Option.not_isSome_iff_eq_none] at hfresh
      rw [hfresh]
      rfl

/-- A row is under the names that are columns. -/
theorem names_row {names : List String} (h : ∀ name ∈ names, name ∈ Entries.names layout.columns)
    (shape : String → Column → Shape) : Entries.names (layout.row names shape) = names := by
  induction names with
  | nil => rfl
  | cons name names ih =>
      have hname := (Entries.isSome_get?_iff name layout.columns).mpr (h name List.mem_cons_self)
      obtain ⟨column, hcolumn⟩ := Option.isSome_iff_exists.mp hname
      have hrest := ih fun other hother => h other (List.mem_cons_of_mem _ hother)
      unfold row Entries.names at hrest ⊢
      rw [List.filterMap_cons_some (b := (name, shape name column)) (by rw [hcolumn]; rfl),
        List.map_cons, hrest]

theorem mem_names_of_mem_selectedNames {selections : List Selection} {name : String}
    (h : name ∈ layout.selectedNames selections) : name ∈ Entries.names layout.columns := by
  unfold selectedNames at h
  split at h
  · exact h
  · simpa using (List.mem_filter.mp h).2

end Layout

namespace Catalog

/-! ## Shapes under names -/

/-- Where no selection has a name, the column shows by itself. -/
theorem shapeUnder_of_not_mem (catalog : Catalog) {name : String} {selections : List Selection}
    (h : name ∉ selections.map Selection.field) (column : Column) :
    catalog.shapeUnder name column selections = column.shape := by
  induction selections with
  | nil => rfl
  | cons selection selections ih =>
      rw [List.map_cons, List.mem_cons, not_or] at h
      rw [shapeUnder, if_neg fun hname => h.1 hname.1.symm, ih h.2]

/-- A further selection of a new name decides over that name alone. -/
theorem shapeUnder_concat (catalog : Catalog) {selections : List Selection} {selection : Selection}
    (hfresh : selection.field ∉ selections.map Selection.field) (name : String) (column : Column) :
    catalog.shapeUnder name column (selections ++ [selection]) =
      if selection.field = name ∧ selection.isWildcard = false then
        catalog.expanded column selection
      else catalog.shapeUnder name column selections := by
  induction selections with
  | nil => rfl
  | cons first selections ih =>
      rw [List.map_cons, List.mem_cons, not_or] at hfresh
      rw [List.cons_append, shapeUnder, shapeUnder, ih hfresh.2]
      by_cases hfirst : first.field = name ∧ first.isWildcard = false
      · have hother : ¬ (selection.field = name ∧ selection.isWildcard = false) := fun hname =>
          hfresh.1 (hname.1.trans hfirst.1.symm)
        rw [if_pos hfirst, if_neg hother, if_pos hfirst]
      · rw [if_neg hfirst, if_neg hfirst]

/-- Where names differ, a selection decides over its own name. -/
theorem shapeUnder_of_mem (catalog : Catalog) {selections : List Selection}
    (hnodup : (selections.map Selection.field).Nodup) {selection : Selection}
    (hmem : selection ∈ selections) (hstar : selection.isWildcard = false) (column : Column) :
    catalog.shapeUnder selection.field column selections = catalog.expanded column selection := by
  induction selections with
  | nil => contradiction
  | cons first selections ih =>
      obtain ⟨hfresh, hrest⟩ := List.nodup_cons.mp hnodup
      rw [shapeUnder]
      rcases List.mem_cons.mp hmem with rfl | hmem
      · rw [if_pos ⟨rfl, hstar⟩]
      · have hother : ¬ (first.field = selection.field ∧ first.isWildcard = false) := fun hname =>
          hfresh (hname.1 ▸ List.mem_map_of_mem hmem)
        rw [if_neg hother, ih hrest hmem]

/-! ## Lists without a star -/

/-- Selections of different names write one after the other. -/
theorem pick_of_nodup (catalog : Catalog) (layout : Layout) {selections : List Selection}
    (hstar : ∀ selection ∈ selections, selection.isWildcard = false)
    (hnodup : (selections.map Selection.field).Nodup) :
    catalog.pick selections layout [] =
      selections.filterMap fun selection =>
        (Entries.get? selection.field layout.columns).map fun column =>
          (selection.field, catalog.chosen column selection.nested) := by
  -- From the right, since what is found in front does not have the name of the last selection.
  induction selections using List.reverseRecOn with
  | nil => rfl
  | append_singleton front last ih =>
      obtain ⟨field, nested⟩ := last
      rw [List.map_append, List.nodup_append] at hnodup
      have hfield : field ≠ "*" := of_decide_eq_false (hstar (.mk field nested) (by simp))
      have hstars : ∀ selection ∈ front, selection.isWildcard = false := fun selection hmem =>
        hstar selection (List.mem_append_left _ hmem)
      rw [pick_append, ih hstars hnodup.1, pick_singleton catalog layout hfield,
        List.filterMap_append]
      cases hcolumn : Entries.get? field layout.columns with
      | none => simp [Selection.field, hcolumn]
      | some column =>
          have hfresh : field ∉ Entries.names (front.filterMap fun selection =>
              (Entries.get? selection.field layout.columns).map fun column =>
                (selection.field, catalog.chosen column selection.nested)) := by
            intro hmem
            obtain ⟨entry, hentry, hname⟩ := List.mem_map.mp hmem
            obtain ⟨selection, hselection, hfound⟩ := List.mem_filterMap.mp hentry
            obtain ⟨_, _, rfl⟩ := Option.map_eq_some_iff.mp hfound
            exact hnodup.2.2 _ (List.mem_map_of_mem hselection) field (by simp [Selection.field])
              hname
          dsimp only
          rw [Entries.put_of_fresh hfresh]
          simp [Selection.field, Selection.nested, hcolumn]

variable {catalog : Catalog} {layout : Layout}

/-- Selections of different names show what the rules say, if each of them does by itself. -/
theorem pick_eq_shown_of_nodup {selections : List Selection} (hne : selections ≠ [])
    (hstar : ∀ selection ∈ selections, selection.isWildcard = false)
    (hnodup : (selections.map Selection.field).Nodup)
    (hchosen : ∀ selection ∈ selections, ∀ column,
      catalog.chosen column selection.nested = catalog.expanded column selection) :
    catalog.pick selections layout [] = catalog.shown layout selections := by
  have hnames : layout.selectedNames selections = (selections.map Selection.field).filter
      fun name => name ∈ Entries.names layout.columns := by
    have hany : selections.any Selection.isWildcard = false := by
      rw [List.any_eq_false]
      exact fun selection hmem => Bool.eq_false_iff.mp (hstar selection hmem)
    simp [Layout.selectedNames, hne, hany]
  rw [catalog.pick_of_nodup layout hstar hnodup, shown, hnames, Layout.row_filter]
  apply List.filterMap_congr
  intro selection hmem
  congr 1
  funext column
  rw [hchosen selection hmem, catalog.shapeUnder_of_mem hnodup hmem (hstar selection hmem)]

/-- A single star shows all columns by themselves. -/
theorem pick_star_eq_shown (hcolumns : (Entries.names layout.columns).Nodup)
    (nested : List Selection) :
    catalog.pick [.mk "*" nested] layout [] = catalog.shown layout [.mk "*" nested] := by
  have hshapes : layout.shapes = layout.columns.map fun entry => (entry.1, entry.2.shape) := rfl
  have hnames : Entries.names layout.shapes = Entries.names layout.columns := by
    simp [hshapes, Entries.names]
  have hpick : catalog.pick [.mk "*" nested] layout [] = layout.shapes := by
    rw [pick, pick, pickOne, if_pos rfl]
    exact Entries.ofList_of_nodup (hnames ▸ hcolumns)
  have hshown : ∀ name column,
      catalog.shapeUnder name column [.mk "*" nested] = column.shape := by
    intro name column
    simp [shapeUnder, Selection.isWildcard, Selection.field]
  have hselected : layout.selectedNames [.mk "*" nested] = Entries.names layout.columns := by
    simp [Layout.selectedNames, Selection.isWildcard, Selection.field]
  rw [hpick, hshapes, shown, hselected, Layout.row_names hcolumns]
  simp only [hshown]

/-! ## Lists with a star -/

/-- Among the shapes of all columns a selection replaces that of its own column, if it has nested
selections. -/
theorem expandIn_map (hcolumns : (Entries.names layout.columns).Nodup)
    (shape : String → Column → Shape) (selection : Selection) :
    catalog.expandIn layout (layout.columns.map fun entry => (entry.1, shape entry.1 entry.2))
        selection =
      layout.columns.map fun entry => (entry.1,
        if selection.field = entry.1 ∧ selection.isWildcard = false ∧ selection.nested ≠ [] then
          catalog.expansion entry.2 selection.nested
        else shape entry.1 entry.2) := by
  unfold expandIn
  by_cases hskipped : (selection.isWildcard || selection.nested.isEmpty) = true
  · rw [if_pos hskipped]
    apply List.map_congr_left
    intro entry _
    rw [if_neg]
    rintro ⟨-, hstar, hne⟩
    simp [hstar, hne] at hskipped
  · have hexpands : selection.isWildcard = false ∧ selection.nested ≠ [] := by
      simpa using hskipped
    rw [if_neg hskipped]
    cases hcolumn : Entries.get? selection.field layout.columns with
    | none =>
        apply List.map_congr_left
        intro entry hentry
        rw [if_neg]
        rintro ⟨hname, -⟩
        rw [hname, Entries.get?_of_mem hcolumns hentry] at hcolumn
        contradiction
    | some column =>
        have hname : selection.field ∈ Entries.names layout.columns :=
          (Entries.isSome_get?_iff _ _).mp (Option.isSome_iff_exists.mpr ⟨column, hcolumn⟩)
        dsimp only
        rw [Entries.put_map hcolumns hname]
        apply List.map_congr_left
        intro entry hentry
        by_cases heq : entry.1 = selection.field
        · have hfound := Entries.get?_of_mem hcolumns hentry
          rw [heq, hcolumn] at hfound
          rw [if_pos heq, if_pos ⟨heq.symm, hexpands⟩, Option.some.inj hfound]
        · rw [if_neg heq, if_neg fun hother => heq hother.1.symm]

/-- The columns that a star takes show what the rules say, if each selection does by itself. -/
theorem foldl_expandIn (hcolumns : (Entries.names layout.columns).Nodup)
    {selections : List Selection} (hnodup : (selections.map Selection.field).Nodup)
    (hchosen : ∀ selection ∈ selections, ∀ column,
      catalog.chosen column selection.nested = catalog.expanded column selection) :
    selections.foldl (catalog.expandIn layout) layout.shapes =
      layout.columns.map fun entry =>
        (entry.1, catalog.shapeUnder entry.1 entry.2 selections) := by
  -- From the right, since a selection is written over those in front of it.
  induction selections using List.reverseRecOn with
  | nil => rfl
  | append_singleton selections selection ih =>
      rw [List.map_append, List.nodup_append] at hnodup
      have hfresh : selection.field ∉ selections.map Selection.field := fun hmem =>
        hnodup.2.2 _ hmem _ (List.mem_singleton.mpr rfl) rfl
      have hfront := ih hnodup.1 fun other hmem => hchosen other (List.mem_append_left _ hmem)
      have hlast := hchosen selection (List.mem_append_right _ (List.mem_singleton.mpr rfl))
      rw [List.foldl_append, List.foldl_cons, List.foldl_nil, hfront,
        expandIn_map hcolumns (fun name column => catalog.shapeUnder name column selections)]
      apply List.map_congr_left
      intro entry _
      rw [catalog.shapeUnder_concat hfresh]
      by_cases hname : selection.field = entry.1 ∧ selection.isWildcard = false
      · rw [if_pos hname, ← hlast, chosen]
        cases hnested : selection.nested with
        | nil =>
            have hunder := catalog.shapeUnder_of_not_mem (hname.1 ▸ hfresh) entry.2
            simp [hunder]
        | cons first others => simp [hname.1, hname.2]
      · rw [if_neg hname, if_neg fun hother => hname ⟨hother.1, hother.2.1⟩]

/-! ## Selections at every depth -/

/-- Whether no table of a catalog has two columns of one name. -/
def HasDistinctColumns (catalog : Catalog) : Prop :=
  ∀ entry ∈ catalog.layouts, (Entries.names entry.2.columns).Nodup

theorem HasDistinctColumns.nodup_names (h : catalog.HasDistinctColumns) {name : String}
    (hlayout : catalog.layout? name = some layout) : (Entries.names layout.columns).Nodup :=
  h _ (Entries.mem_of_get? hlayout)

/-- However tables are registered, their columns are kept by name. -/
theorem hasDistinctColumns_ofTables (tables : List Table) :
    (ofTables tables).HasDistinctColumns := by
  intro entry hentry
  obtain ⟨table, -, hof⟩ := exists_of_mem_layouts hentry
  rw [hof]
  exact Entries.nodup_names_ofList _

/-- A nested list shows what the rules say, if each of its selections does by itself. -/
theorem pick_eq_shown (hcolumns : (Entries.names layout.columns).Nodup)
    {selections : List Selection} (hne : selections ≠ [])
    (huniform : Selection.AreUniform selections)
    (hchosen : ∀ selection ∈ selections, ∀ column,
      catalog.chosen column selection.nested = catalog.expanded column selection) :
    catalog.pick selections layout [] = catalog.shown layout selections := by
  rcases huniform with hstar | ⟨hstar, hnodup⟩
  · obtain ⟨⟨field, nested⟩, rfl, rfl⟩ := List.map_eq_singleton_iff.mp hstar
    exact pick_star_eq_shown hcolumns nested
  · exact pick_eq_shown_of_nodup hne hstar hnodup hchosen

/-- **What a selection writes is what the rules say**, at every depth. -/
theorem chosen_eq_expanded (hkeyed : catalog.HasDistinctColumns) {selection : Selection}
    (h : selection.IsRegular) (column : Column) :
    catalog.chosen column selection.nested = catalog.expanded column selection := by
  -- Behind the column the nested selections decide, each over a column of another table.
  induction h generalizing column with
  | @mk field nested huniform hdeeper ih =>
      rw [expanded, Selection.nested, chosen]
      by_cases hnested : nested = []
      · rw [hnested]
        rfl
      · have hisEmpty : ¬ nested.isEmpty = true := by simpa using hnested
        rw [if_neg hisEmpty, if_neg hisEmpty]
        unfold expansion behind
        cases htarget : catalog.target? column with
        | none => rfl
        | some target =>
            obtain ⟨reference, -, hlayout⟩ := Option.bind_eq_some_iff.mp htarget
            dsimp only
            rw [pick_eq_shown (hkeyed.nodup_names hlayout) hnested huniform ih]
            rfl

/-- What a selection list selects is what it shows by the rules. -/
theorem select_eq_shown (hkeyed : catalog.HasDistinctColumns)
    (hcolumns : (Entries.names layout.columns).Nodup) {selections : List Selection}
    (hnodup : (selections.map Selection.field).Nodup)
    (hregular : ∀ selection ∈ selections, selection.IsRegular) :
    catalog.select layout selections = catalog.shown layout selections := by
  have hchosen : ∀ selection ∈ selections, ∀ column,
      catalog.chosen column selection.nested = catalog.expanded column selection :=
    fun selection hmem => chosen_eq_expanded hkeyed (hregular selection hmem)
  by_cases hall : (selections.isEmpty || selections.any Selection.isWildcard) = true
  · rw [select, if_pos hall, foldl_expandIn hcolumns hnodup hchosen, shown, Layout.selectedNames,
      if_pos hall, Layout.row_names hcolumns]
  · have hnone : selections ≠ [] ∧ ∀ selection ∈ selections, selection.isWildcard = false := by
      simpa using hall
    rw [select, if_neg hall, pick_eq_shown_of_nodup hnone.1 hnone.2 hnodup hchosen]

/-- **What a query answers is what the rules say.**  For every list of selections of different names
whose nested lists are uniform at every depth, the answer is the struct that the list shows of the
table, or the list of such structs; and the fields of this struct are all columns in declaration
order if the list is empty or has a star, and else the selected ones in the order of selection. -/
theorem answerShape_eq_shown (tables : List Table) {query : Query} {table : String}
    {layout : Layout} (hkind : query.kind = .select) (htable : query.table? = some table)
    (hne : table ≠ "") (hlayout : (ofTables tables).layout? table = some layout)
    (hnodup : (query.selections.map Selection.field).Nodup)
    (hregular : ∀ selection ∈ query.selections, selection.IsRegular) :
    let shown := (ofTables tables).shown layout query.selections
    (ofTables tables).answerShape query =
        (if query.returnsMany then .array (.struct shown) else .struct shown) ∧
      Entries.names shown = layout.selectedNames query.selections := by
  intro shown
  have hkeyed := hasDistinctColumns_ofTables tables
  have hqueried := (queried?_eq_layout? _ htable hne).trans hlayout
  constructor
  · rw [answerShape_of_select _ hkind hqueried,
      select_eq_shown hkeyed (hkeyed.nodup_names hlayout) hnodup hregular]
  · exact Layout.names_row (fun _ => Layout.mem_names_of_mem_selectedNames) _

/-- A star behind an expanded pointer that leads around a circle and in front of a name that is no
column: the pointer stays in its place, and the fields behind it come as they are selected. -/
theorem answerShape_eq_shown_circle :
    let user : Table := ⟨"user", none,
      [⟨"posts", .references, true, none, none, some ⟨"post", true⟩⟩,
        ⟨"name", .string, false, none, none, none⟩]⟩
    let post : Table := ⟨"Post", none,
      [⟨"title", .string, true, none, none, none⟩,
        ⟨"author", .record, false, none, none, some ⟨"USER", false⟩⟩,
        ⟨"tags", .arrayOfRecord, false, none, none, some ⟨"tag", false⟩⟩]⟩
    let behindPosts : List Selection := [.mk "author" [.leaf "*"], .leaf "title"]
    let behindAuthor : List Selection := [.leaf "name", .leaf "lost", .mk "posts" behindPosts]
    let query : Query := {
      kind := .select
      tables := ["post"]
      selections :=
        [.mk "tags" [.leaf "label"], .mk "author" behindAuthor, .leaf "*", .leaf "lost"]
      conditions := []
      modifiers := []
      returnsMany := true }
    let everyUser : List (String × Shape) :=
      [("posts", .optional (.array (.recordId "post"))), ("name", .scalar .string)]
    (query.kind = .select ∧ query.table? = some "post" ∧ "post" ≠ "" ∧
        (ofTables [user, post]).layout? "post" = some (.ofTable post) ∧
        (query.selections.map Selection.field).Nodup ∧
        ∀ selection ∈ query.selections, selection.IsRegular) ∧
      (ofTables [user, post]).answerShape query =
        .array (.struct [
          ("title", .optional (.scalar .string)),
          ("author", .struct [
            ("name", .scalar .string),
            ("posts", .array (.struct [
              ("author", .struct everyUser),
              ("title", .optional (.scalar .string))]))]),
          ("tags", .unknown)]) := by
  intro user post behindPosts behindAuthor query everyUser
  have hlayout : (ofTables [user, post]).layout? "post" = some (.ofTable post) := by
    decide +kernel
  have hnodup : (query.selections.map Selection.field).Nodup := by decide +kernel
  have hstar : (Selection.mk "author" [.leaf "*"]).IsRegular :=
    .mk (by decide) (by simp [Selection.isRegular_leaf])
  have hposts : (Selection.mk "posts" behindPosts).IsRegular :=
    .mk (by decide) (by simp [behindPosts, hstar, Selection.isRegular_leaf])
  have hauthor : (Selection.mk "author" behindAuthor).IsRegular :=
    .mk (by decide) (by simp [behindAuthor, hposts, Selection.isRegular_leaf])
  have htags : (Selection.mk "tags" [.leaf "label"]).IsRegular :=
    .mk (by decide) (by simp [Selection.isRegular_leaf])
  have hregular : ∀ selection ∈ query.selections, selection.IsRegular := by
    simp [query, hauthor, htags, Selection.isRegular_leaf]
  refine ⟨⟨rfl, rfl, by decide, hlayout, hnodup, hregular⟩, ?_⟩
  rw [(answerShape_eq_shown [user, post] rfl rfl (by decide) hlayout hnodup hregular).1]
  cbv

end Catalog
end SurrealSchema
