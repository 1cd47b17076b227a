import SurrealSchema.Proofs.Query.Conditions
import SurrealSchema.Proofs.Shape.Select

namespace SurrealSchema
namespace Catalog

/-!
# Strings in conditions

Whether a query answers with a single result or with a list is told by its limit, and the limit is
searched for without regard to quotes.  So of the string in a condition the shape of the answer
depends on one thing: whether a limit of one can be read in it.
-/

/-- A query that reads from a table starts with `SELECT`. -/
theorem kind_of_queried? (catalog : Catalog) {query : String} {layout : Layout}
    (h : catalog.queried? (Query.parse query) = some layout) :
    (Query.parse query).kind = .select := by
  by_contra hkind
  have htable : (Query.parse query).table? = none := by
    rw [Query.table?, Query.tables_of_kind_ne hkind]
    rfl
  rw [queried?, htable] at h
  contradiction

section StringCondition

variable (catalog : Catalog) {head : String} {table : List Char}
  (hhead : Query.IsHead (Text.collapseBlanks head.toList) table) {layout : Layout}
  (hlayout : catalog.queried? (Query.parse head) = some layout)
  {field : String} (hfield : Text.Solid field.toList)
include hhead hlayout hfield

/-- The answer to a query with a condition on a string is what its head selects, as a single result
if a limit of one is read in the string and as a list if not. -/
theorem answerShape_stringCondition (content : String) :
    catalog.answerShape (Query.parse (head ++ Query.stringCondition field content)) =
      if Query.limit? content.toList = some 1 then
        .struct (catalog.select layout (Query.parse head).selections)
      else .array (.struct (catalog.select layout (Query.parse head).selections)) := by
  have hkind := catalog.kind_of_queried? hlayout
  obtain ⟨conditions, modifiers, hparse⟩ := Query.parse_stringCondition hhead hkind hfield.2
    content
  have hkind' : (Query.parse (head ++ Query.stringCondition field content)).kind = .select := by
    rw [hparse]
    exact hkind
  have hqueried : catalog.queried? (Query.parse (head ++ Query.stringCondition field content)) =
      some layout := by
    rw [hparse]
    exact hlayout
  rw [catalog.answerShape_of_select hkind' hqueried, hparse]
  by_cases hlimit : Query.limit? content.toList = some 1
  · simp [hlimit]
  · simp [hlimit]

/-- **Two strings in a condition give the same shape exactly when a limit of one is read in both or
in neither of them.** -/
theorem answerShape_stringCondition_eq_iff (first second : String) :
    catalog.answerShape (Query.parse (head ++ Query.stringCondition field first)) =
        catalog.answerShape (Query.parse (head ++ Query.stringCondition field second)) ↔
      (Query.limit? first.toList = some 1 ↔ Query.limit? second.toList = some 1) := by
  rw [catalog.answerShape_stringCondition hhead hlayout hfield first,
    catalog.answerShape_stringCondition hhead hlayout hfield second]
  -- A single result and a list are different shapes, whatever the fields are.
  by_cases hfirst : Query.limit? first.toList = some 1 <;>
    by_cases hsecond : Query.limit? second.toList = some 1 <;> simp [hfirst, hsecond]

end StringCondition

/-- A string that speaks of a limit of two is read like any other one. -/
theorem answerShape_stringCondition_limit_two :
    let user : Table := ⟨"user", none, [⟨"name", .string, false, none, none, none⟩]⟩
    let catalog := ofTables [user]
    let head := "SELECT  name FROM user"
    (Query.IsHead (Text.collapseBlanks head.toList) "user".toList ∧
        catalog.queried? (Query.parse head) = some (.ofTable user) ∧
        Text.Solid "name".toList) ∧
      (catalog.answerShape (Query.parse (head ++ Query.stringCondition "name" "the limit  2")) =
          catalog.answerShape (Query.parse (head ++ Query.stringCondition "name" "x")) ↔
        (Query.limit? "the limit  2".toList = some 1 ↔ Query.limit? "x".toList = some 1)) := by
  intro user catalog head
  have hhead : Query.IsHead (Text.collapseBlanks head.toList) "user".toList := by
    have htext : Text.collapseBlanks head.toList = Query.headText [["name"]] "user" := by
      decide +kernel
    have hname : "user".toList = Query.nameText "user" := by
      decide +kernel
    rw [htext, hname]
    exact Query.isHead_headText (by decide +kernel) (by decide +kernel) (by decide +kernel)
  have hlayout : catalog.queried? (Query.parse head) = some (.ofTable user) := by
    decide +kernel
  have hfield : Text.Solid "name".toList := by
    decide
  exact ⟨⟨hhead, hlayout, hfield⟩,
    answerShape_stringCondition_eq_iff catalog hhead hlayout hfield "the limit  2" "x"⟩

/-- A string that speaks of a limit of one turns the list into a single result. -/
theorem answerShape_stringCondition_limit_one :
    let user : Table := ⟨"user", none, [⟨"name", .string, false, none, none, none⟩]⟩
    let head := "SELECT name FROM user"
    (ofTables [user]).answerShape
        (Query.parse (head ++ Query.stringCondition "name" "LIMIT 1")) ≠
      (ofTables [user]).answerShape (Query.parse (head ++ Query.stringCondition "name" "x")) := by
  intro user head
  have hhead : Query.IsHead (Text.collapseBlanks head.toList) (Query.nameText "user") := by
    have htext : Text.collapseBlanks head.toList = Query.headText [["name"]] "user" := by
      decide +kernel
    rw [htext]
    exact Query.isHead_headText (by decide +kernel) (by decide +kernel) (by decide +kernel)
  have hlayout : (ofTables [user]).queried? (Query.parse head) = some (.ofTable user) := by
    decide +kernel
  have hfield : Text.Solid "name".toList := by
    decide
  have hone : Query.limit? "LIMIT 1".toList = some 1 := by
    decide +kernel
  have hnone : Query.limit? "x".toList = none := by
    decide +kernel
  rw [answerShape_stringCondition _ hhead hlayout hfield "LIMIT 1",
    answerShape_stringCondition _ hhead hlayout hfield "x", hone, hnone]
  simp

end Catalog
end SurrealSchema
