import SurrealSchema.Proofs.Shape.Subfields
import SurrealSchema.Proofs.Shape.Writes

namespace SurrealSchema

/-!
# Optional markers

Only a column that is selected by itself shows whether it is optional.  A pointer whose record is
expanded is replaced by a struct without a marker, so its entry does not tell whether the pointer
may be absent.  If the pointer is declared the same but not optional, nothing in the answer changes
but the markers of this pointer where the list leads back to it.

Main statement: `Catalog.entryOf?_of_optional_pointer`.
-/

/-! ## Fields declared as required -/

/-- The same field, not optional.  `pointer` says whether its pointer is marked as optional. -/
def Field.required (pointer : Bool) (field : Field) : Field :=
  { field with
    isOptional := false
    reference := field.reference.map fun reference => { reference with isOptional := pointer } }

/-- The same table; if it has the given name, its field of the given name is required. -/
def Table.requiring (name field : String) (pointer : Bool) (table : Table) : Table :=
  { table with
    fields := table.fields.map fun declared =>
      if lowerName table.name = lowerName name ∧ declared.name = field then
        declared.required pointer
      else declared }

/-- The column of a required field. -/
def Column.required (pointer : Bool) (column : Column) : Column :=
  { column with
    isOptional := false
    reference := column.reference.map fun reference => { reference with isOptional := pointer } }

/-- The same column; if it stands under the names of the table and the field, it is required. -/
def Column.requiredUnder (table field : String) (pointer : Bool) (key name : String)
    (column : Column) : Column :=
  if key = lowerName table ∧ name = field then column.required pointer else column

/-- The layout of a table under its key, with the column of a field required. -/
def Layout.requiring (table field : String) (pointer : Bool) (key : String) (layout : Layout) :
    Layout :=
  { layout with
    columns := Entries.mapValues (Column.requiredUnder table field pointer key) layout.columns }

/-- The catalog of tables with a required field. -/
def Catalog.requiring (table field : String) (pointer : Bool) (catalog : Catalog) : Catalog :=
  ⟨Entries.mapValues (Layout.requiring table field pointer) catalog.layouts⟩

namespace Column

variable (table field : String) (pointer : Bool) (key name : String) (column : Column)

theorem kind_requiredUnder :
    (column.requiredUnder table field pointer key name).kind = column.kind := by
  unfold requiredUnder
  split <;> rfl

theorem reference_requiredUnder :
    (column.requiredUnder table field pointer key name).reference.map Reference.table =
      column.reference.map Reference.table := by
  unfold requiredUnder
  split
  · rw [required, Option.map_map]
    rfl
  · rfl

end Column

section Required

variable (table field : String) (pointer : Bool)

theorem Layout.ofTable_requiring (declared : Table) :
    ofTable (declared.requiring table field pointer) =
      (ofTable declared).requiring table field pointer (lowerName declared.name) := by
  have hcolumns : (declared.requiring table field pointer).fields.map
        (fun other => (other.name, Column.ofField other)) =
      Entries.mapValues (Column.requiredUnder table field pointer (lowerName declared.name))
        (declared.fields.map fun other => (other.name, Column.ofField other)) := by
    rw [Table.requiring, Entries.mapValues, List.map_map, List.map_map]
    apply List.map_congr_left
    intro other _
    dsimp only [Function.comp_apply, Column.requiredUnder]
    split <;> rfl
  rw [ofTable, hcolumns, ← Entries.mapValues_ofList]
  rfl

namespace Catalog

/-- Requiring a field of the tables requires it in their catalog. -/
theorem ofTables_requiring (tables : List Table) :
    ofTables (tables.map (Table.requiring table field pointer)) =
      (ofTables tables).requiring table field pointer := by
  have hlayouts : (tables.map (Table.requiring table field pointer)).map
        (fun other => (lowerName other.name, Layout.ofTable other)) =
      Entries.mapValues (Layout.requiring table field pointer)
        (tables.map fun other => (lowerName other.name, Layout.ofTable other)) := by
    rw [Entries.mapValues, List.map_map, List.map_map]
    apply List.map_congr_left
    intro other _
    dsimp only [Function.comp_apply]
    rw [Layout.ofTable_requiring]
    rfl
  rw [requiring, layouts_ofTables, Entries.mapValues_ofList, ← hlayouts, ← layouts_ofTables]

variable (catalog : Catalog)

theorem layout?_requiring (name : String) :
    (catalog.requiring table field pointer).layout? name =
      (catalog.layout? name).map (Layout.requiring table field pointer (lowerName name)) :=
  Entries.get?_mapValues _ _ _

/-- A column points at the same table, be it required or not. -/
theorem target?_requiring {column other : Column}
    (h : other.reference.map Reference.table = column.reference.map Reference.table) :
    (catalog.requiring table field pointer).target? other =
      column.reference.bind fun reference =>
        (catalog.layout? reference.table).map
          (Layout.requiring table field pointer (lowerName reference.table)) := by
  unfold target?
  cases hcolumn : column.reference with
  | none =>
      rw [hcolumn] at h
      rw [Option.map_eq_none_iff.mp h]
      rfl
  | some reference =>
      rw [hcolumn] at h
      obtain ⟨otherReference, hother, htable⟩ := Option.map_eq_some_iff.mp h
      rw [hother, Option.bind_some, Option.bind_some, layout?_requiring, htable]

end Catalog

end Required

/-! ## Shapes without markers -/

namespace Shape

mutual

/-- A shape without its optional markers. -/
def bare : Shape → Shape
  | scalar leaf => scalar leaf
  | literal value => literal value
  | recordId table => recordId table
  | array element => array (bare element)
  | struct fields => struct (bareFields fields)
  | optional inner => bare inner
  | union options => union (bareOptions options)

/-- Fields without the optional markers in their shapes. -/
def bareFields : List (String × Shape) → List (String × Shape)
  | [] => []
  | (name, shape) :: fields => (name, bare shape) :: bareFields fields

/-- Options without their optional markers. -/
def bareOptions : List Shape → List Shape
  | [] => []
  | option :: options => bare option :: bareOptions options

end

/-- A way of reading shapes that goes on into lists and structs. -/
structure IsView (view : Shape → Shape) : Prop where
  array : ∀ element, view (.array element) = .array (view element)
  struct : ∀ fields, view (.struct fields) = .struct (Entries.mapValues (fun _ => view) fields)

theorem isView_id : IsView id where
  array _ := rfl
  struct fields := by
    rw [Entries.mapValues]
    simp

theorem isView_bare : IsView bare where
  array element := by rw [bare]
  struct fields := by
    have hfields : bareFields fields = Entries.mapValues (fun _ => bare) fields := by
      induction fields with
      | nil => rfl
      | cons first fields ih =>
          obtain ⟨name, shape⟩ := first
          rw [bareFields, ih]
          rfl
    rw [bare, hfields]

end Shape

namespace Column

/-- Whether a column is required shows in its marker only. -/
theorem bare_shape_required (pointer : Bool) (column : Column) :
    (column.required pointer).shape.bare = column.shape.bare := by
  have hkind : column.kind.shape (column.required pointer).reference =
      column.kind.shape column.reference := by
    rw [required]
    cases column.reference <;> rfl
  show (column.kind.shape (column.required pointer).reference).bare = column.shape.bare
  rw [hkind, shape]
  split
  · rw [Shape.bare]
  · rfl

/-- A view that does not see that a column is required sees no change at all. -/
theorem view_shape_requiredUnder {view : Shape → Shape} {table field : String} {pointer : Bool}
    {key name : String} {column : Column}
    (h : key = lowerName table → name = field →
      view (column.required pointer).shape = view column.shape) :
    view (column.requiredUnder table field pointer key name).shape = view column.shape := by
  unfold requiredUnder
  split
  · next hboth => exact h hboth.1 hboth.2
  · rfl

end Column

/-! ## Where a column shows by itself -/

namespace Catalog

/-- Whether a selection from the table of a name, or one nested in it, shows the column of a table
and a field by itself. -/
inductive ShowsAlone (catalog : Catalog) (table field : String) : String → Selection → Prop
  | star {name : String} {nested : List Selection} (h : lowerName name = lowerName table) :
      ShowsAlone catalog table field name (.mk "*" nested)
  | leaf {name : String} (h : lowerName name = lowerName table) :
      ShowsAlone catalog table field name (.mk field [])
  | deeper {name other : String} {nested : List Selection} {selection : Selection}
      {layout : Layout} {column : Column} {reference : Reference}
      (hlayout : catalog.layout? name = some layout)
      (hcolumn : Entries.get? other layout.columns = some column)
      (hreference : column.reference = some reference) (hmem : selection ∈ nested)
      (h : ShowsAlone catalog table field reference.table selection) :
      ShowsAlone catalog table field name (.mk other nested)

variable {view : Shape → Shape} {table field : String} {pointer : Bool}

theorem view_around (hview : Shape.IsView view) (column : Column) (fields : Entries Shape) :
    view (around column fields) = around column (Entries.mapValues (fun _ => view) fields) := by
  unfold around
  split
  · rw [hview.array, hview.struct]
  · exact hview.struct fields

/-- A view that sees no change in the struct behind a pointer sees none in its expansion. -/
theorem view_expansion_requiring (hview : Shape.IsView view) (catalog : Catalog)
    {column other : Column} (hkind : other.kind = column.kind)
    (hpointer : other.reference.map Reference.table = column.reference.map Reference.table)
    {nested : List Selection}
    (h : ∀ reference target, column.reference = some reference →
      catalog.layout? reference.table = some target →
        Entries.mapValues (fun _ => view)
            ((catalog.requiring table field pointer).pick nested
              (target.requiring table field pointer (lowerName reference.table)) []) =
          Entries.mapValues (fun _ => view) (catalog.pick nested target [])) :
    view ((catalog.requiring table field pointer).expansion other nested) =
      view (catalog.expansion column nested) := by
  have haround : around other = around column := by
    unfold around
    rw [hkind]
  have hother := target?_requiring table field pointer catalog hpointer
  cases hreference : column.reference with
  | none =>
      have hnone : catalog.target? column = none := by
        rw [target?, hreference]
        rfl
      rw [hreference] at hother
      rw [expansion_eq_unknown hother, expansion_eq_unknown hnone]
  | some reference =>
      have hcolumn : catalog.target? column = catalog.layout? reference.table := by
        rw [target?, hreference]
        rfl
      rw [hreference, Option.bind_some] at hother
      cases htarget : catalog.layout? reference.table with
      | none =>
          rw [htarget] at hother hcolumn
          rw [expansion_eq_unknown hother, expansion_eq_unknown hcolumn]
      | some target =>
          rw [htarget] at hother hcolumn
          rw [expansion_eq_around hother, expansion_eq_around hcolumn, haround, view_around hview,
            view_around hview, h reference target hreference htarget]

-- The recursion is on the selections: the pointers of a catalog may run in cycles.
mutual

/-- What a selection writes is seen the same, unless the view sees that the field is required and
the selection shows the field by itself. -/
theorem mapValues_written_requiring (hview : Shape.IsView view) (catalog : Catalog) :
    (selection : Selection) → {name : String} → {layout : Layout} →
      catalog.layout? name = some layout →
      (catalog.ShowsAlone table field name selection →
        ∀ column : Column, view (column.required pointer).shape = view column.shape) →
      Entries.mapValues (fun _ => view)
          ((catalog.requiring table field pointer).written
            (layout.requiring table field pointer (lowerName name)) selection) =
        Entries.mapValues (fun _ => view) (catalog.written layout selection)
  | .mk other nested, name, layout, hlayout, hunseen => by
      by_cases hstar : other = "*"
      · subst hstar
        show Entries.mapValues (fun _ => view) (Layout.shapes _) =
          Entries.mapValues (fun _ => view) layout.shapes
        unfold Layout.shapes Layout.requiring Entries.mapValues
        simp only [List.map_map]
        apply List.map_congr_left
        intro entry _
        have hentry : view (entry.2.requiredUnder table field pointer (lowerName name)
            entry.1).shape = view entry.2.shape :=
          Column.view_shape_requiredUnder fun hkey _ => hunseen (.star hkey) entry.2
        simpa using hentry
      · have hother : (Selection.mk other nested).isWildcard = false := decide_eq_false hstar
        unfold written
        rw [hother, if_neg Bool.false_ne_true, if_neg Bool.false_ne_true, Layout.requiring,
          Selection.field, Selection.nested, Entries.get?_mapValues, Option.map_map]
        cases hcolumn : Entries.get? other layout.columns with
        | none => rfl
        | some column =>
            suffices hchosen : view ((catalog.requiring table field pointer).chosen
                (column.requiredUnder table field pointer (lowerName name) other) nested) =
                  view (catalog.chosen column nested) by
              simpa [Entries.mapValues] using hchosen
            unfold chosen
            cases hnested : nested with
            | nil =>
                rw [List.isEmpty_nil, if_pos rfl, if_pos rfl]
                apply Column.view_shape_requiredUnder
                rintro hkey rfl
                exact hunseen (hnested ▸ .leaf hkey) column
            | cons first others =>
                rw [List.isEmpty_cons, if_neg Bool.false_ne_true, if_neg Bool.false_ne_true]
                apply view_expansion_requiring hview catalog (Column.kind_requiredUnder ..)
                  (Column.reference_requiredUnder ..)
                intro reference target hreference htarget
                rw [pick_eq_putAll, pick_eq_putAll, Entries.mapValues_putAll,
                  Entries.mapValues_putAll, ← hnested,
                  mapValues_flatMap_written_requiring hview catalog nested htarget]
                intro selection hmem hshows
                exact hunseen (.deeper hlayout hcolumn hreference hmem hshows)

/-- What a list writes is seen the same under the same condition for each of its selections. -/
theorem mapValues_flatMap_written_requiring (hview : Shape.IsView view) (catalog : Catalog) :
    (selections : List Selection) → {name : String} → {layout : Layout} →
      catalog.layout? name = some layout →
      (∀ selection ∈ selections, catalog.ShowsAlone table field name selection →
        ∀ column : Column, view (column.required pointer).shape = view column.shape) →
      Entries.mapValues (fun _ => view)
          (selections.flatMap ((catalog.requiring table field pointer).written
            (layout.requiring table field pointer (lowerName name)))) =
        Entries.mapValues (fun _ => view) (selections.flatMap (catalog.written layout))
  | [], _, _, _, _ => rfl
  | selection :: selections, _, _, hlayout, hunseen => by
      have hfirst := mapValues_written_requiring hview catalog selection hlayout
        (hunseen selection List.mem_cons_self)
      have hrest := mapValues_flatMap_written_requiring hview catalog selections hlayout
        fun other hmem => hunseen other (List.mem_cons_of_mem _ hmem)
      rw [List.flatMap_cons, List.flatMap_cons]
      unfold Entries.mapValues at hfirst hrest ⊢
      rw [List.map_append, List.map_append, hfirst, hrest]

end

/-- A view sees no change in the expansion of a pointer, unless it sees that the field is required
and a selection behind the pointer shows the field by itself. -/
theorem view_expansion_of_unseen (hview : Shape.IsView view) (catalog : Catalog)
    {column other : Column} (hkind : other.kind = column.kind)
    (hpointer : other.reference.map Reference.table = column.reference.map Reference.table)
    {reference : Reference} (hreference : column.reference = some reference)
    {nested : List Selection}
    (hunseen : ∀ selection ∈ nested, catalog.ShowsAlone table field reference.table selection →
      ∀ column : Column, view (column.required pointer).shape = view column.shape) :
    view ((catalog.requiring table field pointer).expansion other nested) =
      view (catalog.expansion column nested) := by
  apply view_expansion_requiring hview catalog hkind hpointer
  intro found target hfound htarget
  obtain rfl : reference = found := Option.some.inj (hreference.symm.trans hfound)
  rw [pick_eq_putAll, pick_eq_putAll, Entries.mapValues_putAll, Entries.mapValues_putAll,
    mapValues_flatMap_written_requiring hview catalog nested htarget hunseen]

/-! ## The entry of an optional pointer -/

/-- An expanded pointer has no marker. -/
theorem around_ne_optional (column : Column) (fields : Entries Shape) (inner : Shape) :
    around column fields ≠ .optional inner := by
  unfold around
  split <;> exact nofun

/-- **The entry of an expanded pointer does not tell whether the pointer is optional**, for every
list that is selected from the record behind it and whatever is selected beside it.  The entry never
has a marker.  If the pointer is declared the same but not optional, the entry differs in markers
only, and it does not differ at all unless the list leads back to the pointer and shows it by
itself. -/
theorem entryOf?_of_optional_pointer (tables : List Table) (pointer : Bool) {query : Query}
    {table field : String} {layout target : Layout} {column : Column} {reference : Reference}
    {nested : List Selection} (hkind : query.kind = .select) (htable : query.table? = some table)
    (hne : table ≠ "") (hlayout : (ofTables tables).layout? table = some layout)
    (hnodup : (query.selections.map Selection.field).Nodup)
    (hmem : .mk field nested ∈ query.selections) (hfield : field ≠ "*") (hnested : nested ≠ [])
    (hcolumn : Entries.get? field layout.columns = some column)
    (hreference : column.reference = some reference)
    (htarget : (ofTables tables).layout? reference.table = some target) :
    let required := ofTables (tables.map (Table.requiring table field pointer))
    ∃ shape requiredShape : Shape,
      (ofTables tables).entryOf? query field = some shape ∧
        required.entryOf? query field = some requiredShape ∧
        (∀ inner, shape ≠ .optional inner) ∧ shape.bare = requiredShape.bare ∧
        ((∀ selection ∈ nested,
            ¬ (ofTables tables).ShowsAlone table field reference.table selection) →
          shape = requiredShape) := by
  intro required
  have hrequired : required = (ofTables tables).requiring table field pointer :=
    ofTables_requiring table field pointer tables
  set catalog := ofTables tables
  -- The same query in the catalog with the required field.
  have hrequiredLayout : required.layout? table =
      some (layout.requiring table field pointer (lowerName table)) := by
    rw [hrequired, layout?_requiring, hlayout]
    rfl
  have hrequiredColumn :
      Entries.get? field (layout.requiring table field pointer (lowerName table)).columns =
        some (column.requiredUnder table field pointer (lowerName table) field) := by
    rw [Layout.requiring, Entries.get?_mapValues, hcolumn]
    rfl
  have hentry := entryOf?_of_mem_selections catalog hkind
    ((queried?_eq_layout? _ htable hne).trans hlayout) hnodup hmem hfield hcolumn
  have hrequiredEntry := entryOf?_of_mem_selections required hkind
    ((queried?_eq_layout? _ htable hne).trans hrequiredLayout) hnodup hmem hfield hrequiredColumn
  have hisEmpty : ¬ nested.isEmpty = true := by simpa using hnested
  rw [chosen, if_neg hisEmpty] at hentry hrequiredEntry
  refine ⟨_, _, hentry, hrequiredEntry, ?_, ?_, ?_⟩
  · have hpointed : catalog.target? column = some target := by
      rw [target?, hreference]
      exact htarget
    rw [expansion_eq_around hpointed]
    exact around_ne_optional column _
  · rw [hrequired]
    exact (view_expansion_of_unseen Shape.isView_bare catalog (Column.kind_requiredUnder ..)
      (Column.reference_requiredUnder ..) hreference fun _ _ _ =>
        Column.bare_shape_required pointer).symm
  · intro halone
    rw [hrequired]
    exact (view_expansion_of_unseen Shape.isView_id catalog (Column.kind_requiredUnder ..)
      (Column.reference_requiredUnder ..) hreference fun selection hselection hshows =>
        absurd hshows (halone selection hselection)).symm

/-- A list that leads back to the optional pointer, selected beside a star. -/
theorem entryOf?_of_optional_pointer_circle :
    let user : Table := ⟨"user", none,
      [⟨"name", .string, false, none, none, none⟩,
        ⟨"posts", .references, false, none, none, some ⟨"Post", false⟩⟩]⟩
    let post : Table := ⟨"post", none,
      [⟨"title", .string, false, none, none, none⟩,
        ⟨"author", .record, true, none, none, some ⟨"user", true⟩⟩]⟩
    let catalog := ofTables [user, post]
    let required := ofTables ([user, post].map (Table.requiring "post" "author" false))
    let nested : List Selection := [.leaf "name", .mk "posts" [.leaf "author"]]
    let query : Query := ⟨.select, ["post"], [.leaf "*", .mk "author" nested], [], [], true⟩
    let author : Column := ⟨"author", .record, true, some ⟨"user", true⟩⟩
    (catalog.layout? "post" = some (.ofTable post) ∧
        (query.selections.map Selection.field).Nodup ∧
        Entries.get? "author" (Layout.ofTable post).columns = some author ∧
        catalog.layout? "user" = some (.ofTable user)) ∧
      ∃ shape requiredShape : Shape, catalog.entryOf? query "author" = some shape ∧
        required.entryOf? query "author" = some requiredShape ∧
        (∀ inner, shape ≠ .optional inner) ∧ shape.bare = requiredShape.bare := by
  intro user post catalog required nested query author
  have hkind : query.kind = .select := rfl
  have hlayout : catalog.layout? "post" = some (.ofTable post) := by decide +kernel
  have hnodup : (query.selections.map Selection.field).Nodup := by decide +kernel
  have hcolumn : Entries.get? "author" (Layout.ofTable post).columns = some author := by
    decide +kernel
  have htarget : catalog.layout? "user" = some (.ofTable user) := by decide +kernel
  obtain ⟨shape, requiredShape, hentry, hrequired, hmarker, hbare, -⟩ :=
    entryOf?_of_optional_pointer [user, post] false hkind rfl (by decide) hlayout hnodup
      (List.mem_cons_of_mem _ List.mem_cons_self) (by decide) (List.cons_ne_nil _ _) hcolumn rfl
      htarget
  exact ⟨⟨hlayout, hnodup, hcolumn, htarget⟩, shape, requiredShape, hentry, hrequired, hmarker,
    hbare⟩

/-- An optional pointer has the same entry as a required one, and not an optional one. -/
theorem not_entryOf?_eq_optional_author :
    let user : Table := ⟨"user", none, [⟨"name", .string, false, none, none, none⟩]⟩
    let post : Table := ⟨"post", none,
      [⟨"author", .record, true, none, none, some ⟨"user", true⟩⟩]⟩
    let catalog := ofTables [user, post]
    let required := ofTables ([user, post].map (Table.requiring "post" "author" false))
    let query : Query := ⟨.select, ["post"], [.mk "author" [.leaf "name"]], [], [], false⟩
    catalog.entryOf? query "author" = some (.struct [("name", .scalar .string)]) ∧
      required.entryOf? query "author" = some (.struct [("name", .scalar .string)]) ∧
      catalog.entryOf? query "author" ≠ (required.entryOf? query "author").map .optional := by
  intro user post catalog required query
  have hentry : catalog.entryOf? query "author" =
      some (.struct [("name", .scalar .string)]) := by cbv
  have hrequired : required.entryOf? query "author" =
      some (.struct [("name", .scalar .string)]) := by cbv
  refine ⟨hentry, hrequired, ?_⟩
  rw [hentry, hrequired]
  simp

end Catalog

end SurrealSchema
