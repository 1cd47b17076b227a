import SurrealSchema.Proofs.Query.RoundTrip
import SurrealSchema.Proofs.Shape.Select

namespace SurrealSchema

/-!
# Several fields behind one pointer

A path through a pointer writes what it selects under the name of the pointer.  A further path
through the same pointer writes under the same name again, so of several fields behind one pointer
only the last one is left in the answer.
-/

/-! ## The text of the query -/

namespace Query

/-- The text of a query for a single record that selects fields of the record behind a pointer. -/
def subfieldsText (table field : String) (subfields : List String) : String :=
  "SELECT " ++ ", ".intercalate (subfields.map fun subfield => field ++ "." ++ subfield)
    ++ " FROM " ++ table ++ " LIMIT 1"

/-- The parts of that query. -/
def subfieldsQuery (table field : String) (subfields : List String) : Canonical where
  paths := subfields.map fun subfield => [field, subfield]
  tables := [table]
  comparisons := []
  group := []
  order := []
  limit := some 1

/-- A bare name can be written. -/
theorem isName_of_isBareName {name : String} (h : isBareName name = true) : IsName name := by
  have hparts := bareParts_of_isBareName h
  obtain ⟨c, rest, hname, hc, -⟩ := hparts.exists_cons
  refine ⟨by simp [hname], ?_, fun d hd => ?_⟩
  · rintro rfl
    have hstar := hparts.isWord '*' (by decide)
    exact absurd hstar (by decide)
  · have hword := hparts.isWord d hd
    exact ⟨ne_backtick_of_isWord hword, Text.isBlank_of_isWord hword⟩

theorem segmentText_of_isBareName {name : String} (h : isBareName name = true) :
    segmentText name = name.toList := by
  simp [segmentText, nameText, h, (isName_of_isBareName h).ne_star]

section Bare

variable {table field : String} {subfields : List String} (htable : isBareName table = true)
  (hfield : isBareName field = true)
  (hsubfields : ∀ subfield ∈ subfields, isBareName subfield = true)
include htable hfield hsubfields

theorem valid_subfieldsQuery (hne : subfields ≠ []) :
    (subfieldsQuery table field subfields).Valid where
  paths_ne_nil := by simpa [subfieldsQuery] using hne
  paths := by
    intro path hmem
    obtain ⟨subfield, hsubfield, rfl⟩ := List.mem_map.mp hmem
    refine Or.inr ⟨field, [subfield], rfl, isName_of_isBareName hfield, ?_⟩
    intro segment hsegment
    rw [List.mem_singleton.mp hsegment]
    exact Or.inr (isName_of_isBareName (hsubfields subfield hsubfield))
  tables_ne_nil := List.cons_ne_nil _ _
  tables := by
    intro other hmem
    rw [List.mem_singleton.mp hmem]
    exact isName_of_isBareName htable
  comparisons := by simp [subfieldsQuery]
  group := by simp [subfieldsQuery]
  order := by simp [subfieldsQuery]

/-- Bare names are written as they are. -/
theorem text_subfieldsQuery :
    (subfieldsQuery table field subfields).text = (subfieldsText table field subfields).toList := by
  have hpath : ∀ subfield ∈ subfields,
      pathText [field, subfield] = (field ++ "." ++ subfield).toList := by
    intro subfield hmem
    simp [pathText, List.intercalate, segmentText_of_isBareName hfield,
      segmentText_of_isBareName (hsubfields subfield hmem)]
  have hpaths : (subfieldsQuery table field subfields).paths.map pathText =
      (subfields.map fun subfield => field ++ "." ++ subfield).map String.toList := by
    simpa [subfieldsQuery] using hpath
  have htail : (subfieldsQuery table field subfields).tailText = (table ++ " LIMIT 1").toList := by
    simp [Canonical.tailText, subfieldsQuery, listText, nameText, htable]
    rfl
  have hselect : "SELECT ".toList = "SELECT".toList ++ [' '] := by decide
  have hcomma : ", ".toList = [',', ' '] := by decide
  have hfrom : " FROM ".toList = ' ' :: ("FROM".toList ++ [' ']) := by decide
  show "SELECT".toList ++ ' ' ::
    (listText ((subfieldsQuery table field subfields).paths.map pathText) ++ ' ' ::
      ("FROM".toList ++ ' ' :: (subfieldsQuery table field subfields).tailText)) = _
  simp only [hpaths, htail, subfieldsText, listText, String.toList_append,
    String.toList_intercalate, hselect, hcomma, hfrom, List.append_assoc, List.cons_append,
    List.nil_append]

/-- The query selects each of the fields by a path of its own. -/
theorem parse_subfieldsText (hne : subfields ≠ []) :
    parse (subfieldsText table field subfields) =
      { kind := .select
        tables := [table]
        selections := subfields.map fun subfield => .mk field [.leaf subfield]
        conditions := []
        modifiers := [.limit 1]
        returnsMany := false } := by
  have hvalid := valid_subfieldsQuery htable hfield hsubfields hne
  have hwritten : subfieldsText table field subfields =
      String.ofList (headWith (subfieldsQuery table field subfields).paths (nameText table) ++
        " LIMIT 1".toList) := by
    rw [← String.ofList_toList (s := subfieldsText table field subfields),
      ← text_subfieldsQuery htable hfield hsubfields, Canonical.text_eq rfl]
    rfl
  have hselections : (subfieldsQuery table field subfields).paths.filterMap Selection.ofPath? =
      subfields.map fun subfield => .mk field [.leaf subfield] := by
    simp [subfieldsQuery, List.filterMap_map, Function.comp_def, Selection.ofPath?]
  rw [hwritten, parse_single hvalid.paths_ne_nil hvalid.paths
    (isTable_nameText (isName_of_isBareName htable)), hselections]

end Bare

end Query

/-! ## The answer -/

namespace Catalog

/-- **Of several selections of one column the last one is left.** -/
theorem pick_same_column (catalog : Catalog) {layout : Layout} {field : String} {column : Column}
    (hstar : field ≠ "*") (hcolumn : Entries.get? field layout.columns = some column)
    (front : List (List Selection)) (last : List Selection) :
    catalog.pick ((front ++ [last]).map (Selection.mk field)) layout [] =
      [(field, catalog.chosen column last)] := by
  -- From the right, since it is the last selection that is written over what is there.
  induction front using List.reverseRecOn generalizing last with
  | nil =>
      rw [List.nil_append, List.map_singleton, pick_singleton catalog layout hstar, hcolumn]
      rfl
  | append_singleton front nested ih =>
      rw [List.map_append, pick_append, ih, List.map_singleton,
        pick_singleton catalog layout hstar, hcolumn]
      simp [Entries.put]

/-- What stands for a column whose record is replaced by a struct: the struct, or a list of such
structs if the column is a collection. -/
def around (column : Column) (fields : Entries Shape) : Shape :=
  if column.kind.isCollection then .array (.struct fields) else .struct fields

/-- The expansion of a pointer is made of what is picked from the record behind it. -/
theorem expansion_eq_around {catalog : Catalog} {column : Column} {target : Layout}
    (htarget : catalog.target? column = some target) (nested : List Selection) :
    catalog.expansion column nested = around column (catalog.pick nested target []) := by
  unfold expansion behind
  rw [htarget]
  rfl

/-- Without a table behind it, nothing is known of the expansion of a column. -/
theorem expansion_eq_unknown {catalog : Catalog} {column : Column}
    (htarget : catalog.target? column = none) (nested : List Selection) :
    catalog.expansion column nested = .unknown := by
  unfold expansion behind
  rw [htarget]

/-- A field behind a pointer is selected in a struct of its own. -/
theorem chosen_leaf (catalog : Catalog) {column subcolumn : Column} {target : Layout}
    {subfield : String} (hstar : subfield ≠ "*") (htarget : catalog.target? column = some target)
    (hsubcolumn : Entries.get? subfield target.columns = some subcolumn) :
    catalog.chosen column [.leaf subfield] = around column [(subfield, subcolumn.shape)] := by
  have hpick : catalog.pick [.leaf subfield] target [] = [(subfield, subcolumn.shape)] := by
    rw [Selection.leaf, pick_singleton catalog target hstar, hsubcolumn]
    rfl
  simp [chosen, expansion, behind, htarget, hpick, around]

/-- Of several fields behind one pointer the last one is selected. -/
theorem select_subfields (catalog : Catalog) {layout target : Layout} {column lastColumn : Column}
    {field last : String} (front : List String) (hstar : field ≠ "*") (hlastStar : last ≠ "*")
    (hcolumn : Entries.get? field layout.columns = some column)
    (htarget : catalog.target? column = some target)
    (hlast : Entries.get? last target.columns = some lastColumn) :
    catalog.select layout
        ((front ++ [last]).map fun subfield => .mk field [.leaf subfield]) =
      [(field, around column [(last, lastColumn.shape)])] := by
  have hfields : ∀ selection ∈
      (front ++ [last]).map (fun subfield => Selection.mk field [.leaf subfield]),
        selection.field ≠ "*" := by
    intro selection hmem
    obtain ⟨subfield, -, rfl⟩ := List.mem_map.mp hmem
    exact hstar
  have hselections : (front ++ [last]).map (fun subfield => Selection.mk field [.leaf subfield]) =
      (front.map (fun subfield => [Selection.leaf subfield]) ++ [[Selection.leaf last]]).map
        (Selection.mk field) := by
    simp
  rw [catalog.select_eq_pick layout (by simp) hfields, hselections,
    catalog.pick_same_column hstar hcolumn, catalog.chosen_leaf hlastStar htarget hlast]

/-- **Of several fields behind one pointer the answer keeps the last one.** -/
theorem answerShape_subfields (catalog : Catalog) {table field last : String} {front : List String}
    (htable : Query.isBareName table = true) (hfield : Query.isBareName field = true)
    (hsubfields : ∀ subfield ∈ front ++ [last], Query.isBareName subfield = true)
    {layout target : Layout} {column lastColumn : Column}
    (hlayout : catalog.layout? table = some layout)
    (hcolumn : Entries.get? field layout.columns = some column)
    (htarget : catalog.target? column = some target)
    (hlast : Entries.get? last target.columns = some lastColumn) :
    catalog.answerShape (Query.parse (Query.subfieldsText table field (front ++ [last]))) =
      .struct [(field, around column [(last, lastColumn.shape)])] := by
  have hstar := (Query.isName_of_isBareName hfield).ne_star
  have hlastStar := (Query.isName_of_isBareName (hsubfields last (by simp))).ne_star
  have htableNe : table ≠ "" := by
    rintro rfl
    exact (Query.isName_of_isBareName htable).ne_empty rfl
  have hqueried : ∀ query : Query, query.table? = some table →
      catalog.queried? query = some layout := by
    intro query hquery
    rw [catalog.queried?_eq_layout? hquery htableNe, hlayout]
  rw [Query.parse_subfieldsText htable hfield hsubfields (by simp),
    catalog.answerShape_single rfl (hqueried _ rfl) rfl,
    catalog.select_subfields front hstar hlastStar hcolumn htarget hlast]

/-- Two fields behind a collection: only the second one is left. -/
theorem answerShape_subfields_likes :
    let user : Table := ⟨"user", none,
      [⟨"name", .string, false, none, none, none⟩, ⟨"age", .integer, true, none, none, none⟩]⟩
    let post : Table := ⟨"Post", none,
      [⟨"likes", .arrayOfRecord, false, none, none, some ⟨"User", false⟩⟩]⟩
    let catalog := ofTables [user, post]
    (Query.isBareName "post" = true ∧ Query.isBareName "likes" = true ∧
        (∀ subfield ∈ ["name"] ++ ["age"], Query.isBareName subfield = true) ∧
        catalog.layout? "post" = some (.ofTable post) ∧
        Entries.get? "likes" (Layout.ofTable post).columns =
          some ⟨"likes", .arrayOfRecord, false, some ⟨"User", false⟩⟩ ∧
        catalog.target? ⟨"likes", .arrayOfRecord, false, some ⟨"User", false⟩⟩ =
          some (.ofTable user) ∧
        Entries.get? "age" (Layout.ofTable user).columns = some ⟨"age", .integer, true, none⟩) ∧
      Query.subfieldsText "post" "likes" (["name"] ++ ["age"]) =
        "SELECT likes.name, likes.age FROM post LIMIT 1" ∧
      catalog.answerShape (Query.parse
          (Query.subfieldsText "post" "likes" (["name"] ++ ["age"]))) =
        .struct [("likes", .array (.struct [("age", .optional (.scalar .integer))]))] := by
  intro user post catalog
  have hhypotheses : Query.isBareName "post" = true ∧ Query.isBareName "likes" = true ∧
      (∀ subfield ∈ ["name"] ++ ["age"], Query.isBareName subfield = true) ∧
      catalog.layout? "post" = some (.ofTable post) ∧
      Entries.get? "likes" (Layout.ofTable post).columns =
        some ⟨"likes", .arrayOfRecord, false, some ⟨"User", false⟩⟩ ∧
      catalog.target? ⟨"likes", .arrayOfRecord, false, some ⟨"User", false⟩⟩ =
        some (.ofTable user) ∧
      Entries.get? "age" (Layout.ofTable user).columns = some ⟨"age", .integer, true, none⟩ := by
    decide +kernel
  obtain ⟨htable, hfield, hsubfields, hlayout, hcolumn, htarget, hlast⟩ := hhypotheses
  refine ⟨⟨htable, hfield, hsubfields, hlayout, hcolumn, htarget, hlast⟩, by decide +kernel, ?_⟩
  exact answerShape_subfields catalog htable hfield hsubfields hlayout hcolumn htarget hlast

/-- Selecting two fields behind one pointer does not give a struct of both. -/
theorem not_answerShape_both_subfields :
    let user : Table := ⟨"user", none,
      [⟨"name", .string, false, none, none, none⟩, ⟨"age", .integer, false, none, none, none⟩]⟩
    let post : Table := ⟨"post", none,
      [⟨"author", .record, false, none, none, some ⟨"user", false⟩⟩]⟩
    (ofTables [user, post]).answerShape
        (Query.parse "SELECT author.name, author.age FROM post LIMIT 1") ≠
      .struct [("author",
        .struct [("name", .scalar .string), ("age", .scalar .integer)])] := by
  intro user post heq
  have hcomputed : (ofTables [user, post]).answerShape
      (Query.parse "SELECT author.name, author.age FROM post LIMIT 1") =
        .struct [("author", .struct [("age", .scalar .integer)])] := by
    have htext : "SELECT author.name, author.age FROM post LIMIT 1" =
        Query.subfieldsText "post" "author" ["name", "age"] := by decide +kernel
    rw [htext, Query.parse_subfieldsText (by decide) (by decide) (by decide) (by decide)]
    cbv
  rw [hcomputed] at heq
  simp only [Shape.struct.injEq, List.cons.injEq, Prod.mk.injEq, reduceCtorEq, and_false, false_and]
    at heq

end Catalog
end SurrealSchema
