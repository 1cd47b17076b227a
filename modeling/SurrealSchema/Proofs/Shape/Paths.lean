import SurrealSchema.Proofs.Shape.Select

namespace SurrealSchema

/-!
# Paths through a catalog and through an answer

A path of names is followed in a catalog from column to column along the pointers.  It can also be
followed in the shape of an answer, from struct to struct.  The answer to the query for just this
path leads to the same column as the catalog does, and one of the two ways fails exactly where the
other one does.
-/

/-! ## Queries for one path -/

/-- The selection of a path: each name is selected from the record behind the one before it. -/
def Selection.nest : List String → List Selection
  | [] => []
  | name :: path => [mk name (nest path)]

/-- A query for a single result that selects one path from a table and nothing else. -/
structure Query.SelectsPath (query : Query) (table : String) (path : List String) : Prop where
  kind : query.kind = .select
  table : query.table? = some table
  selections : query.selections = Selection.nest path
  single : query.returnsMany = false

/-! ## Paths in a shape -/

namespace Shape

/-- The shape under a name of a struct. -/
def entry? (name : String) : Shape → Option Shape
  | struct fields => Entries.get? name fields
  | _ => none

/-- The shape of the elements of a list. -/
def element? : Shape → Option Shape
  | array element => some element
  | _ => none

/-- What the next name is looked up in: the elements of a collection, and anything else itself. -/
def enter? (isCollection : Bool) (shape : Shape) : Option Shape :=
  if isCollection then shape.element? else some shape

/-- The shape at the end of a path of names.  `isCollection` tells of each beginning of the path
whether it ends at a collection. -/
def descend? : (isCollection : List String → Bool) → List String → Shape → Option Shape
  | _, [], shape => some shape
  | _, [name], shape => shape.entry? name
  | isCollection, name :: next :: path, shape =>
    ((shape.entry? name).bind (enter? (isCollection [name]))).bind
      (descend? (fun passed => isCollection (name :: passed)) (next :: path))

/-- Only beginnings that are not empty matter. -/
theorem descend?_congr {first second : List String → Bool}
    (h : ∀ name path, first (name :: path) = second (name :: path)) (path : List String)
    (shape : Shape) : descend? first path shape = descend? second path shape := by
  cases path with
  | nil => rfl
  | cons name path =>
      cases path with
      | nil => rfl
      | cons next path => simp only [descend?, h]

/-- Nothing is found in a shape about which nothing is known. -/
theorem descend?_unknown (isCollection : List String → Bool) (name : String)
    (path : List String) : descend? isCollection (name :: path) unknown = none := by
  cases path <;> rfl

end Shape

namespace Catalog

/-! ## Columns that are collections -/

/-- Whether a path from a layout on ends at a collection. -/
def collectionFrom (catalog : Catalog) (layout : Layout) (path : List String) : Bool :=
  (catalog.follow? layout path).any fun column => column.kind.isCollection

/-- Whether a path from a table on ends at a collection. -/
def collectionAt (catalog : Catalog) (table : String) (path : List String) : Bool :=
  (catalog.resolve? table path).any fun column => column.kind.isCollection

/-! ## One path -/

/-- What a path that is selected writes: the shape of its first column, or nothing. -/
theorem pick_nest (catalog : Catalog) (layout : Layout) {name : String} (hstar : name ≠ "*")
    (path : List String) :
    catalog.pick (Selection.nest (name :: path)) layout [] =
      match Entries.get? name layout.columns with
      | none => []
      | some column => [(name, catalog.chosen column (Selection.nest path))] :=
  catalog.pick_singleton layout hstar (Selection.nest path) []

/-- **A path leads to the same column in a catalog and in the answer for it**, from a layout on. -/
theorem descend?_pick_nest (catalog : Catalog) (layout : Layout) (name : String)
    (path : List String) (hstar : ∀ other ∈ name :: path, other ≠ "*") :
    Shape.descend? (catalog.collectionFrom layout) (name :: path)
        (.struct (catalog.pick (Selection.nest (name :: path)) layout [])) =
      (catalog.follow? layout (name :: path)).map Column.shape := by
  -- Behind a column both ways go on in the layout it points at, so the layout varies.
  induction path generalizing name layout with
  | nil =>
      rw [pick_nest catalog layout (hstar name List.mem_cons_self)]
      simp only [Shape.descend?, Shape.entry?, follow?]
      cases Entries.get? name layout.columns <;> simp [Entries.get?, chosen, Selection.nest]
  | cons next path ih =>
      rw [pick_nest catalog layout (hstar name List.mem_cons_self)]
      cases hcolumn : Entries.get? name layout.columns with
      | none => simp [Shape.descend?, Shape.entry?, Entries.get?, follow?, hcolumn]
      | some column =>
          have hkind : catalog.collectionFrom layout [name] = column.kind.isCollection := by
            simp [collectionFrom, follow?, hcolumn]
          have hchosen : catalog.chosen column (Selection.nest (next :: path)) =
              catalog.expansion column (Selection.nest (next :: path)) := rfl
          simp only [Shape.descend?, Shape.entry?, Entries.get?, if_true, Option.bind_some, hkind,
            hchosen, follow?, hcolumn]
          cases htarget : catalog.target? column with
          | none =>
              -- Nothing is known of what is behind the column, be it a collection or not.
              simp only [expansion, behind, htarget, Shape.enter?]
              split
              · rfl
              · exact Shape.descend?_unknown _ next path
          | some target =>
              have henter : Shape.enter? column.kind.isCollection
                  (catalog.expansion column (Selection.nest (next :: path))) =
                  some (.struct (catalog.pick (Selection.nest (next :: path)) target [])) := by
                simp only [expansion, behind, htarget, Shape.enter?]
                split <;> rfl
              have hfollow : ∀ other passed,
                  catalog.collectionFrom layout (name :: other :: passed) =
                    catalog.collectionFrom target (other :: passed) := by
                intro other passed
                simp [collectionFrom, follow?, hcolumn, htarget]
              rw [henter, Option.bind_some, Shape.descend?_congr hfollow]
              exact ih target next fun other hmem => hstar other (List.mem_cons_of_mem _ hmem)

/-- **Inference and resolution agree on every path.**  Following a path in the answer to the query
for it reaches a shape exactly where the path resolves to a column, and it is the column's shape. -/
theorem descend_answerShape_eq_resolve (catalog : Catalog) {query : Query} {table name : String}
    {path : List String} (hquery : query.SelectsPath table (name :: path)) (htable : table ≠ "")
    (hstar : ∀ other ∈ name :: path, other ≠ "*") :
    Shape.descend? (catalog.collectionAt table) (name :: path) (catalog.answerShape query) =
      (catalog.resolve? table (name :: path)).map Column.shape := by
  have hqueried := catalog.queried?_eq_layout? hquery.table htable
  cases hlayout : catalog.layout? table with
  | none =>
      have hunknown : catalog.answerShape query = .unknown := by
        simp [answerShape, hquery.kind, hqueried, hlayout]
      simpa [hunknown, resolve?, hlayout] using Shape.descend?_unknown _ name path
  | some layout =>
      have hcollection : catalog.collectionAt table = catalog.collectionFrom layout := by
        funext passed
        simp [collectionAt, collectionFrom, resolve?, hlayout]
      have hselect : catalog.select layout query.selections =
          catalog.pick (Selection.nest (name :: path)) layout [] := by
        rw [hquery.selections]
        apply catalog.select_eq_pick layout (List.cons_ne_nil _ _)
        intro selection hmem
        rw [List.mem_singleton.mp hmem]
        exact hstar name List.mem_cons_self
      rw [catalog.answerShape_single hquery.kind (hqueried.trans hlayout) hquery.single, hselect,
        hcollection, resolve?, hlayout, Option.bind_some]
      exact descend?_pick_nest catalog layout name path hstar

/-- A path around a cycle of two tables, through a collection on the way. -/
theorem descend_answerShape_eq_resolve_cycle :
    let post : Table := ⟨"post", none,
      [⟨"author", .record, false, none, none, some ⟨"User", false⟩⟩]⟩
    let user : Table := ⟨"user", none,
      [⟨"name", .string, true, none, none, none⟩,
        ⟨"posts", .references, false, none, none, some ⟨"post", false⟩⟩]⟩
    let catalog := ofTables [post, user]
    let path := ["author", "posts", "author", "name"]
    let query : Query := ⟨.select, ["Post"], Selection.nest path, [], [], false⟩
    query.SelectsPath "Post" path ∧ "Post" ≠ "" ∧ (∀ other ∈ path, other ≠ "*") ∧
      catalog.resolve? "Post" path = some ⟨"name", .string, true, none⟩ ∧
      Shape.descend? (catalog.collectionAt "Post") path (catalog.answerShape query) =
        (catalog.resolve? "Post" path).map Column.shape := by
  intro post user catalog path query
  have hquery : query.SelectsPath "Post" path := ⟨rfl, rfl, rfl, rfl⟩
  have htable : "Post" ≠ "" := by decide
  have hstar : ∀ other ∈ path, other ≠ "*" := by decide
  exact ⟨hquery, htable, hstar, by decide +kernel,
    descend_answerShape_eq_resolve catalog hquery htable hstar⟩

end Catalog
end SurrealSchema
