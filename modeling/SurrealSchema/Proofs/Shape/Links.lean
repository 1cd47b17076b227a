import SurrealSchema.Proofs.Catalog
import SurrealSchema.Proofs.Shape.Select

namespace SurrealSchema

/-!
# Links in an answer

The record links that occur in the answer to a query, at any depth, point at tables that columns of
the catalog point at.  So whatever is known of the pointers of a catalog is known of the links in
every answer.
-/

/-! ## Links in a shape -/

namespace Shape

/-- A shape occurs in itself and, at any depth, in the shapes it is a part of. -/
inductive Occurs (inner : Shape) : Shape → Prop where
  | here : Occurs inner inner
  | element {element : Shape} (h : Occurs inner element) : Occurs inner (array element)
  | field {name : String} {shape : Shape} {fields : List (String × Shape)}
      (hmem : (name, shape) ∈ fields) (h : Occurs inner shape) : Occurs inner (struct fields)
  | optional {shape : Shape} (h : Occurs inner shape) : Occurs inner (optional shape)
  | option {shape : Shape} {options : List Shape} (hmem : shape ∈ options)
      (h : Occurs inner shape) : Occurs inner (union options)

/-- Whether all tables that a shape links to are of a kind. -/
def LinksTo (P : String → Prop) (shape : Shape) : Prop :=
  ∀ table, Occurs (recordId table) shape → P table

variable {P : String → Prop}

theorem linksTo_scalar (scalar : Scalar) : LinksTo P (.scalar scalar) := by
  intro table h
  cases h

theorem linksTo_literal (value : Value) : LinksTo P (.literal value) := by
  intro table h
  cases h

theorem linksTo_recordId {table : String} (h : P table) : LinksTo P (.recordId table) := by
  intro other hother
  cases hother
  exact h

theorem LinksTo.array {element : Shape} (h : LinksTo P element) : LinksTo P (.array element) := by
  intro table hoccurs
  cases hoccurs with
  | element hinner => exact h table hinner

theorem LinksTo.optional {shape : Shape} (h : LinksTo P shape) : LinksTo P (.optional shape) := by
  intro table hoccurs
  cases hoccurs with
  | optional hinner => exact h table hinner

theorem linksTo_union {options : List Shape} (h : ∀ shape ∈ options, LinksTo P shape) :
    LinksTo P (.union options) := by
  intro table hoccurs
  cases hoccurs with
  | option hmem hinner => exact h _ hmem table hinner

/-- Whether all tables that the shapes under some names link to are of a kind. -/
def EntriesLinkTo (P : String → Prop) (found : Entries Shape) : Prop :=
  ∀ entry ∈ found, LinksTo P entry.2

theorem EntriesLinkTo.struct {found : Entries Shape} (h : EntriesLinkTo P found) :
    LinksTo P (.struct found) := by
  intro table hoccurs
  cases hoccurs with
  | field hmem hinner => exact h _ hmem table hinner

theorem entriesLinkTo_nil : EntriesLinkTo P [] := by
  intro entry hmem
  contradiction

/-- Writing a shape adds no other links than its own. -/
theorem EntriesLinkTo.put {found : Entries Shape} (h : EntriesLinkTo P found) {name : String}
    {shape : Shape} (hshape : LinksTo P shape) :
    EntriesLinkTo P (Entries.put name shape found) := by
  intro entry hmem
  rcases Entries.mem_put hmem with rfl | hmem
  · exact hshape
  · exact h entry hmem

theorem EntriesLinkTo.putAll {found more : Entries Shape} (h : EntriesLinkTo P found)
    (hmore : EntriesLinkTo P more) : EntriesLinkTo P (Entries.putAll found more) := by
  intro entry hmem
  rcases Entries.mem_putAll hmem with hmem | hmem
  · exact h entry hmem
  · exact hmore entry hmem

end Shape

open Shape

/-! ## Links of columns -/

variable {P : String → Prop}

/-- Whether a column points at nothing but tables of a kind. -/
def Column.PointsTo (P : String → Prop) (column : Column) : Prop :=
  ∀ reference, column.reference = some reference → P reference.table

/-- Whether the columns of a layout point at nothing but tables of a kind. -/
def Layout.PointsTo (P : String → Prop) (layout : Layout) : Prop :=
  ∀ entry ∈ layout.columns, entry.2.PointsTo P

/-- Whether the columns of a catalog point at nothing but tables of a kind. -/
def Catalog.PointsTo (P : String → Prop) (catalog : Catalog) : Prop :=
  ∀ entry ∈ catalog.layouts, entry.2.PointsTo P

theorem Catalog.PointsTo.layout {catalog : Catalog} (h : catalog.PointsTo P) {name : String}
    {layout : Layout} (hlayout : catalog.layout? name = some layout) : layout.PointsTo P :=
  h _ (Entries.mem_of_get? hlayout)

theorem Layout.PointsTo.column {layout : Layout} (h : layout.PointsTo P) {name : String}
    {column : Column} (hcolumn : Entries.get? name layout.columns = some column) :
    column.PointsTo P :=
  h _ (Entries.mem_of_get? hcolumn)

theorem Catalog.PointsTo.target {catalog : Catalog} (h : catalog.PointsTo P) {column : Column}
    {target : Layout} (htarget : catalog.target? column = some target) : target.PointsTo P := by
  obtain ⟨reference, -, hlayout⟩ := Option.bind_eq_some_iff.mp htarget
  exact h.layout hlayout

/-- A pointer links to its table, and text stands where there is none. -/
theorem linksTo_of_reference {reference : Option Reference} :
    (∀ target, reference = some target → P target.table) →
      LinksTo P (match reference with
        | some target => Shape.recordId target.table
        | none => .scalar .string) := by
  intro h
  cases reference with
  | none => exact linksTo_scalar _
  | some target => exact linksTo_recordId (h target rfl)

theorem Kind.linksTo_shape (kind : Kind) {reference : Option Reference}
    (h : ∀ target, reference = some target → P target.table) :
    LinksTo P (kind.shape reference) := by
  unfold Kind.shape
  dsimp only
  split
  · exact linksTo_of_reference h
  · split
    · exact (linksTo_of_reference h).array
    · -- No other kind looks at the pointer.
      repeat' split
      all_goals first | exact linksTo_scalar _ | exact (linksTo_scalar _).array

/-- A column links to what it points at. -/
theorem Column.PointsTo.shape {column : Column} (h : column.PointsTo P) :
    LinksTo P column.shape := by
  have hkind : LinksTo P (column.kind.shape column.reference) := column.kind.linksTo_shape h
  unfold Column.shape
  dsimp only
  split
  · exact hkind.optional
  · exact hkind

theorem Layout.PointsTo.shapes {layout : Layout} (h : layout.PointsTo P) :
    EntriesLinkTo P layout.shapes := by
  intro entry hmem
  obtain ⟨column, hcolumn, rfl⟩ := List.mem_map.mp hmem
  exact (h column hcolumn).shape

/-! ## Links of answers -/

namespace Catalog

variable {catalog : Catalog}

/-- A pointer is replaced by a struct without other links than those of its fields. -/
theorem linksTo_behind (h : catalog.PointsTo P) (column : Column) {select : Layout → Entries Shape}
    (hselect : ∀ target : Layout, target.PointsTo P → EntriesLinkTo P (select target)) :
    LinksTo P (catalog.behind column select) := by
  unfold behind
  split
  · exact linksTo_scalar _
  · next target htarget =>
      have hstruct := (hselect target (h.target htarget)).struct
      dsimp only
      split
      · exact hstruct.array
      · exact hstruct

-- The recursion is on the selections: the pointers of a catalog may run in cycles.
mutual

/-- Selections write no other links than those of the catalog. -/
theorem entriesLinkTo_pick (h : catalog.PointsTo P) :
    (selections : List Selection) → {layout : Layout} → layout.PointsTo P →
      {found : Entries Shape} → EntriesLinkTo P found →
      EntriesLinkTo P (catalog.pick selections layout found)
  | [], _, _, _, hfound => by
      rw [pick]
      exact hfound
  | selection :: selections, _, hlayout, _, hfound => by
      rw [pick]
      exact entriesLinkTo_pick h selections hlayout
        (entriesLinkTo_pickOne h selection hlayout hfound)

theorem entriesLinkTo_pickOne (h : catalog.PointsTo P) :
    (selection : Selection) → {layout : Layout} → layout.PointsTo P →
      {found : Entries Shape} → EntriesLinkTo P found →
      EntriesLinkTo P (catalog.pickOne selection layout found)
  | .mk field nested, layout, hlayout, found, hfound => by
      rw [pickOne]
      split
      · exact hfound.putAll hlayout.shapes
      · split
        · exact hfound
        · next column hcolumn =>
            apply hfound.put
            split
            · exact (hlayout.column hcolumn).shape
            · exact linksTo_behind h column fun target htarget =>
                entriesLinkTo_pick h nested htarget entriesLinkTo_nil

end

theorem linksTo_expansion (h : catalog.PointsTo P) (column : Column) (nested : List Selection) :
    LinksTo P (catalog.expansion column nested) :=
  linksTo_behind h column fun _ htarget => entriesLinkTo_pick h nested htarget entriesLinkTo_nil

theorem entriesLinkTo_expandIn (h : catalog.PointsTo P) (layout : Layout)
    {found : Entries Shape} (hfound : EntriesLinkTo P found) (selection : Selection) :
    EntriesLinkTo P (catalog.expandIn layout found selection) := by
  unfold expandIn
  split
  · exact hfound
  · split
    · exact hfound
    · exact hfound.put (linksTo_expansion h _ _)

theorem entriesLinkTo_select (h : catalog.PointsTo P) {layout : Layout}
    (hlayout : layout.PointsTo P) (selections : List Selection) :
    EntriesLinkTo P (catalog.select layout selections) := by
  have hfold : ∀ found, EntriesLinkTo P found →
      EntriesLinkTo P (selections.foldl (catalog.expandIn layout) found) := by
    induction selections with
    | nil => exact fun _ hfound => hfound
    | cons selection selections ih =>
        intro found hfound
        exact ih _ (entriesLinkTo_expandIn h layout hfound selection)
  unfold select
  split
  · exact hfold _ hlayout.shapes
  · exact entriesLinkTo_pick h selections hlayout entriesLinkTo_nil

/-- What a statement that changes records answers has no links. -/
theorem linksTo_statementShape (P : String → Prop) : LinksTo P statementShape := by
  have hresult : LinksTo P (.union [.literal (.bool true), .array .unknown]) := by
    apply linksTo_union
    intro shape hmem
    simp only [List.mem_cons, List.not_mem_nil, or_false] at hmem
    rcases hmem with rfl | rfl
    · exact linksTo_literal _
    · exact (linksTo_scalar _).array
  apply EntriesLinkTo.struct
  intro entry hmem
  simp only [List.mem_cons, List.not_mem_nil, or_false] at hmem
  rcases hmem with rfl | rfl | rfl
  · exact linksTo_literal _
  · exact linksTo_scalar _
  · exact hresult

/-- **The links in an answer point where the catalog points.** -/
theorem linksTo_answerShape (h : catalog.PointsTo P) (query : Query) :
    LinksTo P (catalog.answerShape query) := by
  unfold answerShape
  split
  · split
    · exact linksTo_scalar _
    · next layout hlayout =>
        obtain ⟨table, -, hlayout⟩ := Option.bind_eq_some_iff.mp hlayout
        have hstruct := (entriesLinkTo_select h (h.layout hlayout) query.selections).struct
        dsimp only
        split
        · exact hstruct.array
        · exact hstruct
  · exact linksTo_statementShape P

end Catalog
end SurrealSchema
