import SurrealSchema.Proofs.Shape.Selections
import SurrealSchema.Proofs.Shape.Writes

namespace SurrealSchema

/-!
# Stars at the top and behind a pointer

A star in the list of a query takes all columns first and in declaration order, and what the other
selections expand is put over them.  A star in a nested list takes all columns where it stands: it
leaves the selections in front of it in their places and puts the bare columns over them.  So one
list can mean two things, depending on whether it is selected from a table or behind a pointer to
the table.

Main statements: `Catalog.pick_eq_select_iff`, `Catalog.behind_eq_direct_iff`.
-/

/-! ## Selections in front of a star -/

namespace Selection

/-- The selections in front of the star of a list; none if there is no star. -/
def inFront (selections : List Selection) : List Selection :=
  if selections.any isWildcard then selections.takeWhile fun selection => !selection.isWildcard
  else []

theorem inFront_of_no_star {selections : List Selection}
    (h : selections.any isWildcard = false) : inFront selections = [] := by
  rw [inFront, h, if_neg Bool.false_ne_true]

/-- A list of selections of different names, cut at its only star. -/
structure IsCut (selections front : List Selection) (star : Selection) (rear : List Selection) :
    Prop where
  eq : selections = front ++ star :: rear
  star : star.isWildcard = true
  front : ∀ selection ∈ front, selection.isWildcard = false
  rear : ∀ selection ∈ rear, selection.isWildcard = false
  nodup : (selections.map field).Nodup

namespace IsCut

variable {selections front rear : List Selection} {star : Selection}
  (h : IsCut selections front star rear)
include h

theorem nodup_parts :
    (front.map field).Nodup ∧ (rear.map field).Nodup ∧
      ∀ selection ∈ front, selection.field ∉ rear.map field := by
  have hnodup := h.nodup
  rw [h.eq, List.map_append, List.map_cons] at hnodup
  obtain ⟨hfront, hrear, hdisjoint⟩ := List.nodup_append.mp hnodup
  refine ⟨hfront, (List.nodup_cons.mp hrear).2, fun selection hmem hname => ?_⟩
  exact hdisjoint _ (List.mem_map_of_mem hmem) _ (List.mem_cons_of_mem _ hname) rfl

theorem any_isWildcard : selections.any isWildcard = true := by
  rw [h.eq]
  simp [h.star]

theorem mem_of_mem_front {selection : Selection} (hmem : selection ∈ front) :
    selection ∈ selections := by
  rw [h.eq]
  exact List.mem_append_left _ hmem

theorem mem_of_mem_rear {selection : Selection} (hmem : selection ∈ rear) :
    selection ∈ selections := by
  rw [h.eq]
  exact List.mem_append_right _ (List.mem_cons_of_mem _ hmem)

/-- A selection that is no star stands on one of the two sides. -/
theorem mem_parts {selection : Selection} (hmem : selection ∈ selections)
    (hnamed : selection.isWildcard = false) : selection ∈ front ∨ selection ∈ rear := by
  rw [h.eq] at hmem
  rcases List.mem_append.mp hmem with hfront | hmem
  · exact Or.inl hfront
  · rcases List.mem_cons.mp hmem with rfl | hrear
    · rw [h.star] at hnamed
      contradiction
    · exact Or.inr hrear

end IsCut

/-- Where names differ, a list with a star is cut behind what is in front of the star. -/
theorem exists_isCut {selections : List Selection} (hstar : selections.any isWildcard = true)
    (hnodup : (selections.map field).Nodup) :
    ∃ star rear, IsCut selections (inFront selections) star rear := by
  have hfront : inFront selections =
      selections.takeWhile fun selection => !selection.isWildcard := by
    rw [inFront, if_pos hstar]
  have hcut := List.takeWhile_append_dropWhile (p := fun selection : Selection =>
    !selection.isWildcard) (l := selections)
  cases hrest : selections.dropWhile fun selection => !selection.isWildcard with
  | nil =>
      obtain ⟨star, hmem, hwildcard⟩ := List.any_eq_true.mp hstar
      have hnone := List.dropWhile_eq_nil_iff.mp hrest star hmem
      rw [hwildcard] at hnone
      contradiction
  | cons star rear =>
      rw [hrest] at hcut
      have hwildcard : star.isWildcard = true := by
        have hhead := List.head?_dropWhile_not (fun selection : Selection =>
          !selection.isWildcard) selections
        rw [hrest] at hhead
        simpa using hhead
      refine ⟨star, rear, by rw [hfront, hcut], hwildcard, ?_, ?_, hnodup⟩
      · intro selection hmem
        rw [hfront] at hmem
        simpa using List.mem_takeWhile_imp hmem
      · intro selection hmem
        rw [Bool.eq_false_iff]
        intro hother
        -- Two stars would have the same name.
        have hsame : star.field = selection.field :=
          (of_decide_eq_true hwildcard).trans (of_decide_eq_true hother).symm
        rw [← hcut, List.map_append, List.map_cons] at hnodup
        have hfresh := (List.nodup_cons.mp hnodup.of_append_right).1
        exact hfresh (hsame ▸ List.mem_map_of_mem hmem)

end Selection

/-! ## Bare columns and expanded ones -/

theorem Kind.shape_ne_struct (kind : Kind) (reference : Option Reference)
    (fields : Entries Shape) :
    kind.shape reference ≠ .struct fields ∧ kind.shape reference ≠ .array (.struct fields) := by
  unfold Kind.shape
  dsimp only
  split
  · cases reference <;> exact ⟨nofun, nofun⟩
  · split
    · cases reference <;> exact ⟨nofun, nofun⟩
    · -- No other kind looks at the pointer.
      repeat' split
      all_goals exact ⟨nofun, nofun⟩

namespace Catalog

variable {catalog : Catalog} {layout : Layout} {selections : List Selection}

/-- A bare column is no struct of fields behind it. -/
theorem around_ne_shape (column : Column) (fields : Entries Shape) :
    around column fields ≠ column.shape := by
  obtain ⟨hstruct, harray⟩ := column.kind.shape_ne_struct column.reference fields
  unfold around Column.shape
  dsimp only
  cases column.isOptional with
  | true =>
      rw [if_pos rfl]
      split <;> exact nofun
  | false =>
      rw [if_neg Bool.false_ne_true]
      split
      · exact harray.symm
      · exact hstruct.symm

/-- Expanding a column changes its shape, unless nothing is known of it either way. -/
theorem expansion_eq_shape_iff (column : Column) (nested : List Selection) :
    catalog.expansion column nested = column.shape ↔
      catalog.target? column = none ∧ column.shape = .unknown := by
  cases htarget : catalog.target? column with
  | none =>
      rw [expansion_eq_unknown htarget]
      exact ⟨fun h => ⟨rfl, h.symm⟩, fun h => h.2.symm⟩
  | some target =>
      rw [expansion_eq_around htarget]
      constructor
      · intro h
        exact absurd h (around_ne_shape column _)
      · rintro ⟨hnone, -⟩
        contradiction

/-! ## One list in two places -/

/-- Whether the star of a nested list takes nothing from the selections in front of it: their
columns are the first ones of the table, in this order, and none of them is expanded into anything
else than it is by itself. -/
structure SparesFront (catalog : Catalog) (layout : Layout) (selections : List Selection) :
    Prop where
  order : (((Selection.inFront selections).map Selection.field).filter fun name =>
    name ∈ Entries.names layout.columns) <+: Entries.names layout.columns
  shapes : ∀ selection ∈ Selection.inFront selections, selection.nested ≠ [] → ∀ column,
    Entries.get? selection.field layout.columns = some column →
      catalog.target? column = none ∧ column.shape = .unknown

/-- Names in front of all names leave these in order exactly if they are the first ones. -/
theorem append_filter_eq_iff {front names : List String} (hnodup : names.Nodup) :
    front ++ names.filter (fun name => name ∉ front) = names ↔ front <+: names := by
  constructor
  · intro h
    exact ⟨_, h⟩
  · rintro ⟨rear, rfl⟩
    have hdisjoint := (List.nodup_append.mp hnodup).2.2
    have hfront : front.filter (fun name => name ∉ front) = [] := by
      rw [List.filter_eq_nil_iff]
      intro name hname
      simpa using hname
    have hrear : rear.filter (fun name => name ∉ front) = rear := by
      rw [List.filter_eq_self]
      intro name hname
      simpa using fun hmem => hdisjoint name hmem name hname rfl
    rw [List.filter_append, hfront, hrear, List.nil_append]

section Cut

variable {front rear : List Selection} {star : Selection}
  (hcut : Selection.IsCut selections front star rear)
include hcut

/-- A nested list writes what is in front of its star, all columns, and what is behind the star. -/
theorem pick_cut :
    catalog.pick selections layout [] =
      Entries.putAll
        (Entries.putAll (front.flatMap (catalog.written layout)) layout.shapes)
        (rear.flatMap (catalog.written layout)) := by
  have hdistinct : (Entries.names (front.flatMap (catalog.written layout))).Nodup := by
    rw [names_written hcut.front]
    exact hcut.nodup_parts.1.filter _
  have hwritten : catalog.written layout star = layout.shapes := by
    rw [written, if_pos hcut.star]
  rw [pick_eq_putAll, hcut.eq, List.flatMap_append, List.flatMap_cons, hwritten,
    Entries.putAll_append, Entries.putAll_append]
  congr 2
  exact Entries.ofList_of_nodup hdistinct

/-- A selection behind the star is written over the column. -/
theorem get?_pick_of_mem_rear {selection : Selection} (hmem : selection ∈ rear) {column : Column}
    (hcolumn : Entries.get? selection.field layout.columns = some column) :
    Entries.get? selection.field (catalog.pick selections layout []) =
      some (catalog.chosen column selection.nested) := by
  rw [pick_cut hcut]
  exact get?_putAll_written_of_mem hcut.rear hcut.nodup_parts.2.1 hmem hcolumn _

/-- In the list of a query the star takes all columns in their order. -/
theorem names_select :
    Entries.names (catalog.select layout selections) = Entries.names layout.columns := by
  have hexpands : ∀ selection ∈ selections.filter Selection.expands,
      selection.isWildcard = false := fun selection hmem => (isWildcard_of_mem_expands hmem).1
  rw [catalog.select_eq_putAll_of_star layout hcut.any_isWildcard, Entries.names_putAll_of_subset,
    layout.names_shapes]
  intro name hname
  rw [names_written hexpands] at hname
  rw [layout.names_shapes]
  simpa using (List.mem_filter.mp hname).2

/-- A column that is selected on neither side of the star is bare in the list of a query. -/
theorem get?_select_of_not_mem {name : String} (hfront : name ∉ front.map Selection.field)
    (hrear : name ∉ rear.map Selection.field) {column : Column}
    (hcolumn : Entries.get? name layout.columns = some column) :
    Entries.get? name (catalog.select layout selections) = some column.shape := by
  have hexpands : ∀ selection ∈ selections.filter Selection.expands,
      selection.isWildcard = false := fun selection hmem => (isWildcard_of_mem_expands hmem).1
  have hfresh : name ∉ (selections.filter Selection.expands).map Selection.field := by
    intro hname
    obtain ⟨selection, hmem, rfl⟩ := List.mem_map.mp hname
    rcases hcut.mem_parts (List.mem_of_mem_filter hmem) (hexpands selection hmem) with h | h
    · exact hfront (List.mem_map_of_mem h)
    · exact hrear (List.mem_map_of_mem h)
  rw [catalog.select_eq_putAll_of_star layout hcut.any_isWildcard,
    get?_putAll_written_of_not_mem hexpands hfresh, layout.get?_shapes, hcolumn]
  rfl

variable (hcolumns : (Entries.names layout.columns).Nodup)
include hcolumns

/-- A column that is not selected behind the star is bare. -/
theorem get?_pick_of_not_mem_rear {name : String} (hname : name ∉ rear.map Selection.field)
    {column : Column} (hcolumn : Entries.get? name layout.columns = some column) :
    Entries.get? name (catalog.pick selections layout []) = some column.shape := by
  have hshapes : (Entries.names layout.shapes).Nodup := by
    rw [layout.names_shapes]
    exact hcolumns
  have hentry : (name, column.shape) ∈ layout.shapes :=
    List.mem_map.mpr ⟨(name, column), Entries.mem_of_get? hcolumn, rfl⟩
  rw [pick_cut hcut, get?_putAll_written_of_not_mem hcut.rear hname]
  exact Entries.get?_putAll_of_mem hshapes hentry _

/-- The columns that are selected in front of the star come first. -/
theorem names_pick :
    Entries.names (catalog.pick selections layout []) =
      (front.map Selection.field).filter (fun name => name ∈ Entries.names layout.columns) ++
        (Entries.names layout.columns).filter fun name =>
          name ∉ (front.map Selection.field).filter fun name =>
            name ∈ Entries.names layout.columns := by
  have hshapes : (Entries.names layout.shapes).Nodup := by
    rw [layout.names_shapes]
    exact hcolumns
  have hfirst := Entries.names_putAll_of_nodup hshapes (front.flatMap (catalog.written layout))
  rw [layout.names_shapes, names_written hcut.front] at hfirst
  rw [pick_cut hcut, Entries.names_putAll_of_subset, hfirst]
  intro name hname
  rw [names_written hcut.rear] at hname
  have hknown : name ∈ Entries.names layout.columns := by
    simpa using (List.mem_filter.mp hname).2
  rw [hfirst]
  by_cases hmem : name ∈ (front.map Selection.field).filter fun name =>
      name ∈ Entries.names layout.columns
  · exact List.mem_append_left _ hmem
  · exact List.mem_append_right _ (List.mem_filter.mpr ⟨hknown, decide_eq_true hmem⟩)

/-- With a star, a nested list selects what the list of a query does exactly if the columns in front
of the star are the first ones of the table and are not expanded. -/
theorem pick_eq_select_iff_of_isCut :
    catalog.pick selections layout [] = catalog.select layout selections ↔
      ((front.map Selection.field).filter fun name => name ∈ Entries.names layout.columns) <+:
          Entries.names layout.columns ∧
        ∀ selection ∈ front, selection.nested ≠ [] → ∀ column,
          Entries.get? selection.field layout.columns = some column →
            catalog.target? column = none ∧ column.shape = .unknown := by
  constructor
  · intro h
    constructor
    · rw [← append_filter_eq_iff hcolumns, ← names_pick hcut hcolumns, h]
      exact names_select hcut
    · intro selection hmem hnested column hcolumn
      have hbare : Entries.get? selection.field (catalog.pick selections layout []) =
          some column.shape :=
        get?_pick_of_not_mem_rear hcut hcolumns (hcut.nodup_parts.2.2 selection hmem) hcolumn
      rw [h, get?_select catalog layout hcut.nodup (hcut.mem_of_mem_front hmem)
        (hcut.front selection hmem) hcolumn] at hbare
      rw [← expansion_eq_shape_iff column selection.nested, ← Option.some.inj hbare, chosen,
        if_neg (by simpa using hnested)]
  · rintro ⟨horder, hspared⟩
    have hnames : Entries.names (catalog.pick selections layout []) =
        Entries.names layout.columns := by
      rw [names_pick hcut hcolumns]
      exact (append_filter_eq_iff hcolumns).mpr horder
    apply Entries.eq_of_names_eq (hnames ▸ hcolumns) (hnames.trans (names_select hcut).symm)
    intro name hname
    rw [hnames, ← Entries.isSome_get?_iff] at hname
    obtain ⟨column, hcolumn⟩ := Option.isSome_iff_exists.mp hname
    by_cases hrear : name ∈ rear.map Selection.field
    · obtain ⟨selection, hmem, rfl⟩ := List.mem_map.mp hrear
      rw [get?_pick_of_mem_rear hcut hmem hcolumn, get?_select catalog layout hcut.nodup
        (hcut.mem_of_mem_rear hmem) (hcut.rear selection hmem) hcolumn]
    · rw [get?_pick_of_not_mem_rear hcut hcolumns hrear hcolumn]
      by_cases hfront : name ∈ front.map Selection.field
      · obtain ⟨selection, hmem, rfl⟩ := List.mem_map.mp hfront
        rw [get?_select catalog layout hcut.nodup (hcut.mem_of_mem_front hmem)
          (hcut.front selection hmem) hcolumn]
        by_cases hnested : selection.nested = []
        · rw [hnested]
          rfl
        · rw [chosen, if_neg (by simpa using hnested), (expansion_eq_shape_iff column _).mpr
            (hspared selection hmem hnested column hcolumn)]
      · rw [get?_select_of_not_mem hcut hfront hrear hcolumn]

end Cut

/-- **A nested list selects what the list of a query does exactly if its star takes nothing from
what is in front of it.** -/
theorem pick_eq_select_iff (hcolumns : (Entries.names layout.columns).Nodup)
    (hne : selections ≠ []) (hnodup : (selections.map Selection.field).Nodup) :
    catalog.pick selections layout [] = catalog.select layout selections ↔
      catalog.SparesFront layout selections := by
  by_cases hstar : selections.any Selection.isWildcard = true
  · obtain ⟨star, rear, hcut⟩ := Selection.exists_isCut hstar hnodup
    rw [pick_eq_select_iff_of_isCut hcut hcolumns]
    exact ⟨fun h => ⟨h.1, h.2⟩, fun h => ⟨h.order, h.shapes⟩⟩
  · have hnone : selections.any Selection.isWildcard = false := by simpa using hstar
    have hfields : ∀ selection ∈ selections, selection.field ≠ "*" := fun selection hmem =>
      of_decide_eq_false (Bool.eq_false_iff.mpr (List.any_eq_false.mp hnone selection hmem))
    have hfront := Selection.inFront_of_no_star hnone
    rw [catalog.select_eq_pick layout hne hfields]
    refine iff_of_true rfl ⟨?_, ?_⟩
    · rw [hfront]
      exact List.nil_prefix
    · rw [hfront]
      nofun

/-- **A list shows the same behind a pointer as it does from the table itself exactly if its star
takes nothing from what is in front of it**, for every list of selections of different names.  One
query selects the list behind a pointer, with whatever else beside it, and the other one selects it
from the table that the pointer points at. -/
theorem behind_eq_direct_iff (tables : List Table) {query direct : Query} {table field : String}
    {layout target : Layout} {column : Column} {reference : Reference} {nested : List Selection}
    (hkind : query.kind = .select) (htable : query.table? = some table) (hne : table ≠ "")
    (hlayout : (ofTables tables).layout? table = some layout)
    (hselected : (query.selections.map Selection.field).Nodup)
    (hmem : .mk field nested ∈ query.selections) (hfield : field ≠ "*")
    (hcolumn : Entries.get? field layout.columns = some column)
    (hreference : column.reference = some reference) (htargetNe : reference.table ≠ "")
    (htarget : (ofTables tables).layout? reference.table = some target)
    (hdirectKind : direct.kind = .select) (hdirectTable : direct.table? = some reference.table)
    (hdirect : direct.selections = nested) (hsingle : direct.returnsMany = false)
    (hnested : nested ≠ []) (hnodup : (nested.map Selection.field).Nodup) :
    ∃ fieldsBehind fieldsDirect : Entries Shape,
      (ofTables tables).entryOf? query field = some (around column fieldsBehind) ∧
        (ofTables tables).answerShape direct = .struct fieldsDirect ∧
        (fieldsBehind = fieldsDirect ↔ (ofTables tables).SparesFront target nested) := by
  have hcolumns := (hasDistinctColumns_ofTables tables).nodup_names htarget
  have hqueried := (queried?_eq_layout? _ htable hne).trans hlayout
  have hdirectQueried := (queried?_eq_layout? _ hdirectTable htargetNe).trans htarget
  have hpointed : (ofTables tables).target? column = some target := by
    rw [target?, hreference]
    exact htarget
  have hentry : (ofTables tables).entryOf? query field =
      some (around column ((ofTables tables).pick nested target [])) := by
    rw [entryOf?_of_mem_selections _ hkind hqueried hselected hmem hfield hcolumn, chosen,
      if_neg (by simpa using hnested), expansion_eq_around hpointed]
  have hanswer := answerShape_single _ hdirectKind hdirectQueried hsingle
  rw [hdirect] at hanswer
  exact ⟨_, _, hentry, hanswer, pick_eq_select_iff hcolumns hnested hnodup⟩

/-- A star behind the first column of the table and in front of one that is expanded. -/
theorem behind_eq_direct_iff_boss :
    let user : Table := ⟨"user", none,
      [⟨"name", .string, false, none, none, none⟩,
        ⟨"boss", .record, true, none, none, some ⟨"user", true⟩⟩]⟩
    let post : Table := ⟨"post", none,
      [⟨"title", .string, false, none, none, none⟩,
        ⟨"readers", .arrayOfRecord, false, none, none, some ⟨"User", false⟩⟩]⟩
    let nested : List Selection := [.leaf "name", .leaf "*", .mk "boss" [.leaf "name"]]
    let query : Query := ⟨.select, ["Post"], [.leaf "*", .mk "readers" nested], [], [], true⟩
    let direct : Query := ⟨.select, ["User"], nested, [], [], false⟩
    let catalog := ofTables [user, post]
    let readers : Column := ⟨"readers", .arrayOfRecord, false, some ⟨"User", false⟩⟩
    (catalog.layout? "Post" = some (.ofTable post) ∧
        (query.selections.map Selection.field).Nodup ∧
        Entries.get? "readers" (Layout.ofTable post).columns = some readers ∧
        catalog.layout? "User" = some (.ofTable user) ∧ (nested.map Selection.field).Nodup) ∧
      catalog.SparesFront (.ofTable user) nested ∧
      ∃ fields : Entries Shape, catalog.entryOf? query "readers" = some (around readers fields) ∧
        catalog.answerShape direct = .struct fields := by
  intro user post nested query direct catalog readers
  have hlayout : catalog.layout? "Post" = some (.ofTable post) := by decide +kernel
  have hselected : (query.selections.map Selection.field).Nodup := by decide +kernel
  have hcolumn : Entries.get? "readers" (Layout.ofTable post).columns = some readers := by
    decide +kernel
  have htarget : catalog.layout? "User" = some (.ofTable user) := by decide +kernel
  have hnodup : (nested.map Selection.field).Nodup := by decide +kernel
  have hspares : catalog.SparesFront (.ofTable user) nested := by
    refine ⟨by decide +kernel, ?_⟩
    intro selection hmem hnested
    rw [show Selection.inFront nested = [.leaf "name"] from rfl, List.mem_singleton] at hmem
    rw [hmem] at hnested
    exact absurd rfl hnested
  refine ⟨⟨hlayout, hselected, hcolumn, htarget, hnodup⟩, hspares, ?_⟩
  have hkind : query.kind = .select ∧ direct.kind = .select := ⟨rfl, rfl⟩
  obtain ⟨_, _, hentry, hanswer, hiff⟩ := behind_eq_direct_iff [user, post] hkind.1 rfl (by decide)
    hlayout hselected (List.mem_cons_of_mem _ List.mem_cons_self) (by decide) hcolumn rfl
    (by decide) htarget hkind.2 rfl rfl rfl (List.cons_ne_nil _ _) hnodup
  exact ⟨_, hentry, hiff.mpr hspares ▸ hanswer⟩

/-- A star behind a column that is expanded: from the table itself the column stays expanded, and
behind a pointer the star takes it back. -/
theorem not_behind_eq_direct_boss :
    let user : Table := ⟨"user", none,
      [⟨"name", .string, false, none, none, none⟩,
        ⟨"boss", .record, false, none, none, some ⟨"user", false⟩⟩]⟩
    let post : Table := ⟨"post", none,
      [⟨"author", .record, false, none, none, some ⟨"user", false⟩⟩]⟩
    let nested : List Selection := [.mk "boss" [.leaf "name"], .leaf "*"]
    let query : Query := ⟨.select, ["post"], [.mk "author" nested], [], [], false⟩
    let direct : Query := ⟨.select, ["user"], nested, [], [], false⟩
    let catalog := ofTables [user, post]
    (nested.map Selection.field).Nodup ∧
      catalog.entryOf? query "author" =
        some (.struct [("boss", .recordId "user"), ("name", .scalar .string)]) ∧
      catalog.answerShape direct =
        .struct [("name", .scalar .string), ("boss", .struct [("name", .scalar .string)])] ∧
      catalog.entryOf? query "author" ≠ some (catalog.answerShape direct) := by
  intro user post nested query direct catalog
  have hbehind : catalog.entryOf? query "author" =
      some (.struct [("boss", .recordId "user"), ("name", .scalar .string)]) := by cbv
  have hdirect : catalog.answerShape direct =
      .struct [("name", .scalar .string), ("boss", .struct [("name", .scalar .string)])] := by cbv
  refine ⟨by decide +kernel, hbehind, hdirect, ?_⟩
  rw [hbehind, hdirect]
  simp

end Catalog
end SurrealSchema
