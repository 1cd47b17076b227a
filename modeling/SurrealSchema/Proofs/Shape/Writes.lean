import Mathlib.Data.List.Nodup
import SurrealSchema.Proofs.Entries
import SurrealSchema.Proofs.Shape.Paths

namespace SurrealSchema

/-!
# What selections write

An answer is written selection by selection, and what is written under a name again replaces what
was there, in the same place.  So an answer is told by the list of everything that is written, in
order.  A nested list writes all columns where its star stands.  The list of a query writes them
first if it has a star, and then only what its selections expand.

Main statements: `Catalog.pick_eq_putAll`, `Catalog.select_eq_putAll_of_star`,
`Catalog.entryOf?_of_mem_selections`.
-/

/-! ## Writing several values -/

namespace Entries

variable {α : Type} {entries more : Entries α}

theorem putAll_append (entries first second : Entries α) :
    putAll entries (first ++ second) = putAll (putAll entries first) second :=
  List.foldl_append

/-- Entries whose names differ are told by their names in order and the values under them. -/
theorem eq_of_names_eq {others : Entries α} (hnodup : (names entries).Nodup)
    (hnames : names entries = names others)
    (hvalues : ∀ name ∈ names entries, get? name entries = get? name others) :
    entries = others := by
  have hothers := eq_filterMap_names (hnames ▸ hnodup)
  rw [eq_filterMap_names hnodup, hothers, ← hnames]
  apply List.filterMap_congr
  intro name hname
  rw [hvalues name hname]

/-- A name that is not written keeps what it held. -/
theorem get?_putAll_of_not_mem {name : String} (h : name ∉ names more) (entries : Entries α) :
    get? name (putAll entries more) = get? name entries := by
  induction more generalizing entries with
  | nil => rfl
  | cons next more ih =>
      have hne : next.1 ≠ name ∧ name ∉ names more := by
        simpa [names, eq_comm] using h
      show get? name (putAll (put next.1 next.2 entries) more) = _
      rw [ih hne.2, get?_put, if_neg hne.1]

/-- A name that is written once holds what is written. -/
theorem get?_putAll_of_mem (hnodup : (names more).Nodup) {entry : String × α}
    (hmem : entry ∈ more) (entries : Entries α) :
    get? entry.1 (putAll entries more) = some entry.2 := by
  induction more generalizing entries with
  | nil => contradiction
  | cons next more ih =>
      obtain ⟨hfresh, hrest⟩ := List.nodup_cons.mp hnodup
      show get? entry.1 (putAll (put next.1 next.2 entries) more) = _
      rcases List.mem_cons.mp hmem with rfl | hmem
      · rw [get?_putAll_of_not_mem hfresh, get?_put, if_pos rfl]
      · exact ih hrest hmem _

/-- Names that are there already keep their places, and no other names come. -/
theorem names_putAll_of_subset (h : ∀ name ∈ names more, name ∈ names entries) :
    names (putAll entries more) = names entries := by
  induction more generalizing entries with
  | nil => rfl
  | cons next more ih =>
      have hnext : names (put next.1 next.2 entries) = names entries := by
        rw [names_put, if_pos (h next.1 List.mem_cons_self)]
      show names (putAll (put next.1 next.2 entries) more) = _
      rw [ih fun name hname => hnext ▸ h name (List.mem_cons_of_mem _ hname), hnext]

/-- Names that differ come behind those that are there, unless they are there already. -/
theorem names_putAll_of_nodup (hnodup : (names more).Nodup) (entries : Entries α) :
    names (putAll entries more) =
      names entries ++ (names more).filter fun name => name ∉ names entries := by
  induction more generalizing entries with
  | nil => exact (List.append_nil _).symm
  | cons next more ih =>
      obtain ⟨hfresh, hrest⟩ := List.nodup_cons.mp hnodup
      show names (putAll (put next.1 next.2 entries) more) =
        names entries ++ (next.1 :: names more).filter fun name => name ∉ names entries
      rw [ih hrest, names_put]
      by_cases hknown : next.1 ∈ names entries
      · simp [hknown]
      · have hothers : ((names more).filter fun name => name ∉ names entries ++ [next.1]) =
            (names more).filter fun name => name ∉ names entries := by
          apply List.filter_congr
          intro name hname
          have hne : name ≠ next.1 := fun heq => hfresh (heq ▸ hname)
          simp [hne]
        rw [if_neg hknown, hothers]
        simp [hknown]

end Entries

/-! ## Columns by themselves -/

namespace Layout

theorem get?_shapes (layout : Layout) (name : String) :
    Entries.get? name layout.shapes = (Entries.get? name layout.columns).map Column.shape :=
  Entries.get?_mapValues (fun _ => Column.shape) layout.columns name

theorem names_shapes (layout : Layout) :
    Entries.names layout.shapes = Entries.names layout.columns := by
  simp [shapes, Entries.names]

end Layout

/-! ## Selections -/

/-- Whether a selection replaces the shape of its column by that of fields behind it. -/
def Selection.expands (selection : Selection) : Bool :=
  !(selection.isWildcard || selection.nested.isEmpty)

namespace Catalog

/-- What a selection writes: all columns if it is a star, and else what it makes of its column, if
there is one. -/
def written (catalog : Catalog) (layout : Layout) (selection : Selection) : Entries Shape :=
  if selection.isWildcard then layout.shapes
  else
    ((Entries.get? selection.field layout.columns).map fun column =>
      (selection.field, catalog.chosen column selection.nested)).toList

/-- **Selections are written one after the other.** -/
theorem pick_eq_putAll (catalog : Catalog) (layout : Layout) (selections : List Selection)
    (found : Entries Shape) :
    catalog.pick selections layout found =
      Entries.putAll found (selections.flatMap (catalog.written layout)) := by
  induction selections generalizing found with
  | nil => rfl
  | cons selection selections ih =>
      obtain ⟨field, nested⟩ := selection
      rw [pick, ih, List.flatMap_cons, Entries.putAll_append, pickOne]
      congr 1
      by_cases hstar : field = "*"
      · simp [written, Selection.isWildcard, Selection.field, hstar]
      · rw [if_neg hstar]
        cases hcolumn : Entries.get? field layout.columns with
        | none =>
            simp [written, Selection.isWildcard, Selection.field, hstar, hcolumn, Entries.putAll]
        | some column =>
            simp [written, Selection.isWildcard, Selection.field, Selection.nested, hstar, hcolumn,
              Entries.putAll, chosen, expansion]

/-- Among the selections of a list with a star only those that expand something are written. -/
theorem foldl_expandIn_eq_putAll (catalog : Catalog) (layout : Layout)
    (selections : List Selection) (found : Entries Shape) :
    selections.foldl (catalog.expandIn layout) found =
      Entries.putAll found
        ((selections.filter Selection.expands).flatMap (catalog.written layout)) := by
  induction selections generalizing found with
  | nil => rfl
  | cons selection selections ih =>
      rw [List.foldl_cons, ih]
      unfold expandIn
      by_cases hskipped : (selection.isWildcard || selection.nested.isEmpty) = true
      · rw [if_pos hskipped, List.filter_cons_of_neg (by simp [Selection.expands, hskipped])]
      · have hexpands : selection.expands = true := by simpa [Selection.expands] using hskipped
        have hboth : selection.isWildcard = false ∧ selection.nested.isEmpty = false := by
          simpa using hskipped
        rw [if_neg hskipped, List.filter_cons_of_pos hexpands, List.flatMap_cons,
          Entries.putAll_append]
        congr 1
        cases hcolumn : Entries.get? selection.field layout.columns with
        | none => simp [written, hboth.1, hcolumn, Entries.putAll]
        | some column => simp [written, hboth.1, hboth.2, hcolumn, Entries.putAll, chosen]

/-- **A list with a star writes all columns first**, wherever the star stands. -/
theorem select_eq_putAll_of_star (catalog : Catalog) (layout : Layout)
    {selections : List Selection} (hstar : selections.any Selection.isWildcard = true) :
    catalog.select layout selections =
      Entries.putAll layout.shapes
        ((selections.filter Selection.expands).flatMap (catalog.written layout)) := by
  rw [select, hstar, Bool.or_true, if_pos rfl, foldl_expandIn_eq_putAll]

section WithoutStar

variable {catalog : Catalog} {layout : Layout} {selections : List Selection}
  (hstar : ∀ selection ∈ selections, selection.isWildcard = false)
include hstar

/-- Selections write under their names, as far as these are columns. -/
theorem names_written :
    Entries.names (selections.flatMap (catalog.written layout)) =
      (selections.map Selection.field).filter fun name => name ∈ Entries.names layout.columns := by
  induction selections with
  | nil => rfl
  | cons selection selections ih =>
      obtain ⟨hfirst, hrest⟩ := List.forall_mem_cons.mp hstar
      have hnames : Entries.names ((selection :: selections).flatMap (catalog.written layout)) =
          Entries.names (catalog.written layout selection) ++
            Entries.names (selections.flatMap (catalog.written layout)) := by
        simp [Entries.names]
      rw [hnames, ih hrest, List.map_cons]
      cases hcolumn : Entries.get? selection.field layout.columns with
      | none =>
          have hunknown : selection.field ∉ Entries.names layout.columns := by
            rw [← Entries.isSome_get?_iff, hcolumn]
            exact Bool.false_ne_true
          rw [List.filter_cons_of_neg (by simpa using hunknown)]
          simp [written, hfirst, hcolumn, Entries.names]
      | some column =>
          have hknown : selection.field ∈ Entries.names layout.columns := by
            rw [← Entries.isSome_get?_iff, hcolumn]
            rfl
          rw [List.filter_cons_of_pos (by simpa using hknown)]
          simp [written, hfirst, hcolumn, Entries.names]

/-- A name that no selection has is not written. -/
theorem get?_putAll_written_of_not_mem {name : String}
    (h : name ∉ selections.map Selection.field) (found : Entries Shape) :
    Entries.get? name (Entries.putAll found (selections.flatMap (catalog.written layout))) =
      Entries.get? name found := by
  apply Entries.get?_putAll_of_not_mem
  rw [names_written hstar]
  exact fun hmem => h (List.mem_of_mem_filter hmem)

/-- Under its name a selection writes what it makes of its column, where the names differ. -/
theorem get?_putAll_written_of_mem (hnodup : (selections.map Selection.field).Nodup)
    {selection : Selection} (hmem : selection ∈ selections) {column : Column}
    (hcolumn : Entries.get? selection.field layout.columns = some column)
    (found : Entries Shape) :
    Entries.get? selection.field
        (Entries.putAll found (selections.flatMap (catalog.written layout))) =
      some (catalog.chosen column selection.nested) := by
  have hwritten : (selection.field, catalog.chosen column selection.nested) ∈
      selections.flatMap (catalog.written layout) := by
    refine List.mem_flatMap.mpr ⟨selection, hmem, ?_⟩
    simp [written, hstar selection hmem, hcolumn]
  refine Entries.get?_putAll_of_mem ?_ hwritten found
  rw [names_written hstar]
  exact hnodup.filter _

end WithoutStar

theorem isWildcard_of_mem_expands {selections : List Selection} {selection : Selection}
    (h : selection ∈ selections.filter Selection.expands) :
    selection.isWildcard = false ∧ selection.nested ≠ [] := by
  simpa [Selection.expands] using (List.mem_filter.mp h).2

section Select

variable (catalog : Catalog) (layout : Layout) {selections : List Selection}

/-- Every name in an answer is that of a column. -/
theorem mem_names_of_mem_select {name : String}
    (h : name ∈ Entries.names (catalog.select layout selections)) :
    name ∈ Entries.names layout.columns := by
  have hwritten : ∀ {others : List Selection},
      (∀ selection ∈ others, selection.isWildcard = false) → ∀ other ∈
        Entries.names (others.flatMap (catalog.written layout)),
          other ∈ Entries.names layout.columns := by
    intro others hothers other hmem
    rw [names_written hothers] at hmem
    simpa using (List.mem_filter.mp hmem).2
  have hnamed : ∀ selection ∈ selections.filter Selection.expands,
      selection.isWildcard = false := fun selection hmem => (isWildcard_of_mem_expands hmem).1
  have hexpands := hwritten hnamed
  by_cases hall : (selections.isEmpty || selections.any Selection.isWildcard) = true
  · rw [select, if_pos hall, foldl_expandIn_eq_putAll,
      Entries.names_putAll_of_subset (layout.names_shapes.symm ▸ hexpands),
      layout.names_shapes] at h
    exact h
  · have hstar : ∀ selection ∈ selections, selection.isWildcard = false := by
      have hboth : selections ≠ [] ∧ ∀ selection ∈ selections, selection.isWildcard = false := by
        simpa using hall
      exact hboth.2
    rw [select, if_neg hall, pick_eq_putAll] at h
    obtain ⟨entry, hentry, rfl⟩ := List.mem_map.mp h
    rcases Entries.mem_putAll hentry with hnil | hmem
    · contradiction
    · exact hwritten hstar _ (List.mem_map_of_mem hmem)

/-- **Under the name of a selection an answer has what the selection makes of its column**, where
the names differ, be there a star among them or not. -/
theorem get?_select (hnodup : (selections.map Selection.field).Nodup) {selection : Selection}
    (hmem : selection ∈ selections) (hnamed : selection.isWildcard = false) {column : Column}
    (hcolumn : Entries.get? selection.field layout.columns = some column) :
    Entries.get? selection.field (catalog.select layout selections) =
      some (catalog.chosen column selection.nested) := by
  by_cases hstar : selections.any Selection.isWildcard = true
  · rw [catalog.select_eq_putAll_of_star layout hstar]
    have hothers : ∀ other ∈ selections.filter Selection.expands, other.isWildcard = false :=
      fun other hother => (isWildcard_of_mem_expands hother).1
    have hdistinct : ((selections.filter Selection.expands).map Selection.field).Nodup :=
      (List.filter_sublist.map Selection.field).nodup hnodup
    by_cases hexpands : selection.expands = true
    · exact get?_putAll_written_of_mem hothers hdistinct
        (List.mem_filter.mpr ⟨hmem, hexpands⟩) hcolumn _
    · -- A selection without nested ones leaves the column as the star has written it.
      have hnested : selection.nested = [] := by
        simpa [Selection.expands, hnamed] using hexpands
      have hfresh : selection.field ∉ (selections.filter Selection.expands).map Selection.field := by
        intro hname
        obtain ⟨other, hother, heq⟩ := List.mem_map.mp hname
        obtain ⟨hotherMem, hotherExpands⟩ := List.mem_filter.mp hother
        have hsame := List.inj_on_of_nodup_map hnodup hotherMem hmem heq
        exact hexpands (hsame ▸ hotherExpands)
      rw [get?_putAll_written_of_not_mem hothers hfresh, layout.get?_shapes, hcolumn, hnested]
      rfl
  · have hothers : ∀ other ∈ selections, other.isWildcard = false := by
      simpa using hstar
    have hfields : ∀ other ∈ selections, other.field ≠ "*" := fun other hother =>
      of_decide_eq_false (hothers other hother)
    rw [catalog.select_eq_pick layout (List.ne_nil_of_mem hmem) hfields, pick_eq_putAll]
    exact get?_putAll_written_of_mem hothers hnodup hmem hcolumn []

end Select

/-! ## Entries of an answer -/

/-- The entry of a name in the answer to a query, be it a list of results or a single one. -/
def entryOf? (catalog : Catalog) (query : Query) (name : String) : Option Shape :=
  (Shape.enter? query.returnsMany (catalog.answerShape query)).bind (Shape.entry? name)

/-- **The entry of a selection is what it makes of its column**, whatever is selected with it. -/
theorem entryOf?_of_mem_selections (catalog : Catalog) {query : Query} {layout : Layout}
    (hkind : query.kind = .select) (hqueried : catalog.queried? query = some layout)
    (hnodup : (query.selections.map Selection.field).Nodup) {field : String}
    {nested : List Selection} (hmem : .mk field nested ∈ query.selections) (hfield : field ≠ "*")
    {column : Column} (hcolumn : Entries.get? field layout.columns = some column) :
    catalog.entryOf? query field = some (catalog.chosen column nested) := by
  have hentry := catalog.get?_select layout hnodup hmem (decide_eq_false hfield) hcolumn
  rw [entryOf?, catalog.answerShape_of_select hkind hqueried]
  cases query.returnsMany <;> exact hentry

end Catalog
end SurrealSchema
