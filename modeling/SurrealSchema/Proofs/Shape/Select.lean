import SurrealSchema.Shape.OfQuery

namespace SurrealSchema
namespace Catalog

/-!
# Selections one by one

What a selection writes under the name of a column, and which layout and which selections the answer
to a query is made of.
-/

/-- What a selection writes under the name of a column. -/
def chosen (catalog : Catalog) (column : Column) (nested : List Selection) : Shape :=
  if nested.isEmpty then column.shape else catalog.expansion column nested

/-- Selections are read one after the other. -/
theorem pick_append (catalog : Catalog) (first second : List Selection) (layout : Layout)
    (found : Entries Shape) :
    catalog.pick (first ++ second) layout found =
      catalog.pick second layout (catalog.pick first layout found) := by
  induction first generalizing found with
  | nil => rfl
  | cons selection first ih => simp only [List.cons_append, pick, ih]

/-- A selection writes under its own name, provided that there is a column of that name. -/
theorem pick_singleton (catalog : Catalog) (layout : Layout) {field : String}
    (hstar : field ≠ "*") (nested : List Selection) (found : Entries Shape) :
    catalog.pick [.mk field nested] layout found =
      match Entries.get? field layout.columns with
      | none => found
      | some column => Entries.put field (catalog.chosen column nested) found := by
  simp only [pick, pickOne, if_neg hstar]
  rfl

/-- Without a star a selection list is read from left to right. -/
theorem select_eq_pick (catalog : Catalog) (layout : Layout) {selections : List Selection}
    (hne : selections ≠ []) (hstar : ∀ selection ∈ selections, selection.field ≠ "*") :
    catalog.select layout selections = catalog.pick selections layout [] := by
  have hwildcard : selections.any Selection.isWildcard = false := by
    simpa [Selection.isWildcard] using hstar
  simp [select, hne, hwildcard]

/-- A query reads from the table it names first. -/
theorem queried?_eq_layout? (catalog : Catalog) {query : Query} {table : String}
    (hquery : query.table? = some table) (hne : table ≠ "") :
    catalog.queried? query = catalog.layout? table := by
  simp [queried?, hquery, Option.filter, hne]

/-- The answer depends on no condition, and on the modifiers only in that it is a list or not. -/
theorem answerShape_of_select (catalog : Catalog) {query : Query} {layout : Layout}
    (hkind : query.kind = .select) (hqueried : catalog.queried? query = some layout) :
    catalog.answerShape query =
      if query.returnsMany then .array (.struct (catalog.select layout query.selections))
      else .struct (catalog.select layout query.selections) := by
  simp [answerShape, hkind, hqueried]

/-- The answer to a query for a single result. -/
theorem answerShape_single (catalog : Catalog) {query : Query} {layout : Layout}
    (hkind : query.kind = .select) (hqueried : catalog.queried? query = some layout)
    (hsingle : query.returnsMany = false) :
    catalog.answerShape query = .struct (catalog.select layout query.selections) := by
  rw [catalog.answerShape_of_select hkind hqueried, hsingle]
  rfl

end Catalog
end SurrealSchema
