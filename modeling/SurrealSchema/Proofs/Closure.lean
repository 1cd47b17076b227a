import Mathlib.Data.List.Forall2
import SurrealSchema.Closure
import SurrealSchema.Proofs.Ddl.Invariant

namespace SurrealSchema

/-!
# Closed tables

What closing tables under references does to their pointers.  Those that stay name one of the
tables, and a field that only points by its kind still does.  Nothing but kinds and pointers is
changed, and closing tables again changes nothing: `Table.closeReferences_closes`.
-/

/-- A field carries a pointer only if its kind is one of those that point. -/
def Field.PointsByKind (field : Field) : Prop :=
  field.reference.isSome = true →
    field.kind = Kind.record ∨ field.kind = Kind.references ∨ field.kind = Kind.arrayOfRecord

namespace Field

/-- A pointer that is not dropped was there before and names a declared table. -/
theorem mem_of_dropDangling {declared : List String} {field : Field} {reference : Reference}
    (h : (field.dropDangling declared).reference = some reference) :
    lowerName reference.table ∈ declared ∧ field.dropDangling declared = field := by
  unfold dropDangling at h ⊢
  cases hreference : field.reference with
  | none => simp [hreference] at h
  | some old =>
      by_cases hknown : declared.contains (lowerName old.table) = true
      · simp only [hreference, hknown, if_true, Option.some.injEq] at h ⊢
        subst h
        simpa using hknown
      · simp only [hreference, hknown, if_false, Bool.false_eq_true] at h
        split at h <;> contradiction

theorem typeVector_reference (conventions : Conventions) (field : Field) :
    (field.typeVector conventions).reference = field.reference := by
  unfold typeVector
  split <;> rfl

/-- Fields that always hold vectors are lists of anything before they are typed, and those do not
point. -/
theorem PointsByKind.typeVector {field : Field} (h : field.PointsByKind)
    (conventions : Conventions) : (field.typeVector conventions).PointsByKind := by
  intro hsome
  rw [typeVector_reference] at hsome
  have hkind := h hsome
  have hlist : field.kind ≠ Kind.array := by
    rcases hkind with hkind | hkind | hkind <;> rw [hkind] <;> decide
  simpa [Field.typeVector, hlist] using hkind

theorem PointsByKind.dropDangling {field : Field} (h : field.PointsByKind)
    (declared : List String) : (field.dropDangling declared).PointsByKind := by
  intro hsome
  obtain ⟨reference, hreference⟩ := Option.isSome_iff_exists.mp hsome
  -- A field that still points was not changed at all.
  have hkept := (mem_of_dropDangling hreference).2
  rw [hkept] at hsome ⊢
  exact h hsome

/-- A pointer that is there when the tables are closed was there before. -/
theorem reference_of_closed {conventions : Conventions} {declared : List String} {field : Field}
    {reference : Reference}
    (h : ((field.dropDangling declared).typeVector conventions).reference = some reference) :
    field.reference = some reference := by
  rw [typeVector_reference] at h
  rw [← (mem_of_dropDangling h).2]
  exact h

theorem name_dropDangling (declared : List String) (field : Field) :
    (field.dropDangling declared).name = field.name := by
  unfold dropDangling
  repeat' split
  all_goals rfl

/-- Closing changes no name. -/
theorem name_dropDangling_typeVector (declared : List String) (conventions : Conventions)
    (field : Field) :
    ((field.dropDangling declared).typeVector conventions).name = field.name := by
  rw [← name_dropDangling declared field]
  unfold typeVector
  split <;> rfl

end Field

namespace Table

theorem mem_closeReferences {conventions : Conventions} {tables : List Table} {table : Table}
    (h : table ∈ closeReferences conventions tables) {field : Field}
    (hfield : field ∈ table.fields) :
    ∃ old ∈ tables, ∃ declared ∈ old.fields,
      field = (declared.dropDangling (declaredNames tables)).typeVector conventions := by
  obtain ⟨old, hold, rfl⟩ := List.mem_map.mp h
  obtain ⟨declared, hdeclared, rfl⟩ := List.mem_map.mp hfield
  exact ⟨old, hold, declared, hdeclared, rfl⟩

/-- Closing tables keeps their names. -/
theorem declaredNames_closeReferences (conventions : Conventions) (tables : List Table) :
    declaredNames (closeReferences conventions tables) = declaredNames tables := by
  unfold declaredNames closeReferences
  rw [List.map_map]
  rfl

/-- The names of the fields of a closed table are those of one of the tables. -/
theorem fieldNames_of_mem_closeReferences {conventions : Conventions} {tables : List Table}
    {table : Table} (h : table ∈ closeReferences conventions tables) :
    ∃ old ∈ tables, table.fieldNames = old.fieldNames := by
  obtain ⟨old, hold, rfl⟩ := List.mem_map.mp h
  refine ⟨old, hold, ?_⟩
  unfold fieldNames
  rw [List.map_map]
  apply List.map_congr_left
  intro field _
  exact field.name_dropDangling_typeVector _ _

/-- Every pointer of closed tables names one of them. -/
theorem reference_mem_declaredNames {conventions : Conventions} {tables : List Table}
    {table : Table} (h : table ∈ closeReferences conventions tables) {field : Field}
    (hfield : field ∈ table.fields) {reference : Reference}
    (hreference : field.reference = some reference) :
    lowerName reference.table ∈ declaredNames (closeReferences conventions tables) := by
  obtain ⟨_, _, declared, _, rfl⟩ := mem_closeReferences h hfield
  rw [Field.typeVector_reference] at hreference
  rw [declaredNames_closeReferences]
  exact (Field.mem_of_dropDangling hreference).1

/-- Closing keeps tables whose fields only point by their kinds that way. -/
theorem pointsByKind_closeReferences (conventions : Conventions) {tables : List Table}
    (h : ∀ table ∈ tables, ∀ field ∈ table.fields, field.PointsByKind) :
    ∀ table ∈ closeReferences conventions tables, ∀ field ∈ table.fields, field.PointsByKind := by
  intro table htable field hfield
  obtain ⟨old, hold, declared, hdeclared, rfl⟩ := mem_closeReferences htable hfield
  exact ((h old hold declared hdeclared).dropDangling _).typeVector conventions

end Table

/-! ## What closing changes -/

namespace Field

/-- Whether a field points at a table that is not among the declared ones. -/
def IsDangling (declared : List String) (field : Field) : Prop :=
  ∃ reference, field.reference = some reference ∧ lowerName reference.table ∉ declared

/-- The pointers to declared tables are the ones that stay. -/
theorem dropDangling_reference (declared : List String) (field : Field) :
    (field.dropDangling declared).reference =
      field.reference.filter fun reference => declared.contains (lowerName reference.table) := by
  unfold dropDangling
  split
  · next hreference => rw [hreference, Option.filter_none]
  · next reference hreference =>
      rw [hreference, Option.filter_some]
      split
      · exact hreference
      · split <;> rfl

theorem dropDangling_eq_self {declared : List String} {field : Field}
    (h : ¬ field.IsDangling declared) : field.dropDangling declared = field := by
  unfold dropDangling
  split
  · rfl
  · next reference hreference =>
      have hdeclared : lowerName reference.table ∈ declared := by
        by_contra hunknown
        exact h ⟨reference, hreference, hunknown⟩
      rw [if_pos (List.contains_iff_mem.mpr hdeclared)]

/-- A dangling pointer is dropped, and with it the kind of a collection. -/
theorem dropDangling_of_isDangling {declared : List String} {field : Field}
    (h : field.IsDangling declared) :
    field.dropDangling declared =
      { field with
        kind := if field.kind.isCollection then .array else field.kind
        reference := none } := by
  obtain ⟨reference, hreference, hunknown⟩ := h
  unfold dropDangling
  rw [hreference]
  dsimp only
  rw [if_neg (mt List.contains_iff_mem.mp hunknown)]
  split <;> rfl

/-- A collection that loses its pointer becomes a list of anything. -/
theorem kind_dropDangling_of_lost {declared : List String} {field : Field}
    (hdangling : field.IsDangling declared) (hcollection : field.kind.isCollection = true) :
    (field.dropDangling declared).kind = .array := by
  rw [dropDangling_of_isDangling hdangling]
  exact if_pos hcollection

/-- Any other field keeps its kind where its pointer is dropped. -/
theorem kind_dropDangling_of_not_lost {declared : List String} {field : Field}
    (h : ¬ (field.IsDangling declared ∧ field.kind.isCollection = true)) :
    (field.dropDangling declared).kind = field.kind := by
  by_cases hdangling : field.IsDangling declared
  · rw [dropDangling_of_isDangling hdangling]
    exact if_neg fun hcollection => h ⟨hdangling, hcollection⟩
  · rw [dropDangling_eq_self hdangling]

/-- Typing a vector changes a list of anything that always holds vectors, and nothing else. -/
theorem kind_typeVector (conventions : Conventions) (field : Field) :
    (field.typeVector conventions).kind =
      if conventions.isVectorField field.name = true ∧ field.kind = .array then .arrayOfFloat
      else field.kind := by
  unfold typeVector
  by_cases hvector : conventions.isVectorField field.name = true ∧ field.kind = .array
  · simp [hvector.1, hvector.2]
  · rw [if_neg hvector, if_neg]
    rwa [Bool.and_eq_true, decide_eq_true_eq]

theorem typeVector_eq_self {conventions : Conventions} {field : Field}
    (h : conventions.isVectorField field.name = true → field.kind ≠ .array) :
    field.typeVector conventions = field := by
  unfold typeVector
  rw [if_neg]
  rw [Bool.and_eq_true, decide_eq_true_eq]
  exact fun hvector => h hvector.1 hvector.2

/-- What becomes of a field when tables are closed.  Its pointer stays if its table is declared, its
kind changes only if it is a collection whose pointer is dropped or a list of anything that always
holds vectors, and nothing else changes. -/
structure ClosesTo (conventions : Conventions) (declared : List String) (field closed : Field) :
    Prop where
  frame : closed = { field with kind := closed.kind, reference := closed.reference }
  reference : closed.reference =
    field.reference.filter fun reference => declared.contains (lowerName reference.table)
  vector : conventions.isVectorField closed.name = true → closed.kind ≠ .array
  kind : closed.kind = field.kind ∨
    ((field.kind = .references ∨ field.kind = .arrayOfRecord) ∧ field.IsDangling declared ∧
      closed.kind = if conventions.isVectorField field.name then .arrayOfFloat else .array) ∨
    (field.kind = .array ∧ conventions.isVectorField field.name = true ∧
      closed.kind = .arrayOfFloat)

/-- Closing does to a field what it may do. -/
theorem closesTo_close (conventions : Conventions) (declared : List String) (field : Field) :
    field.ClosesTo conventions declared ((field.dropDangling declared).typeVector conventions) where
  frame := by
    unfold typeVector dropDangling
    repeat' split
    all_goals rfl
  reference := by rw [typeVector_reference, dropDangling_reference]
  vector := by
    intro hvector harray
    rw [name_dropDangling_typeVector] at hvector
    rw [kind_typeVector, name_dropDangling] at harray
    split at harray
    · contradiction
    · next hother => exact hother ⟨hvector, harray⟩
  kind := by
    rw [kind_typeVector, name_dropDangling]
    by_cases hlost : field.IsDangling declared ∧ field.kind.isCollection = true
    · have hcollection := hlost.2
      rw [Kind.isCollection, Bool.or_eq_true, decide_eq_true_eq, decide_eq_true_eq] at hcollection
      refine Or.inr (Or.inl ⟨hcollection, hlost.1, ?_⟩)
      simp only [kind_dropDangling_of_lost hlost.1 hlost.2, and_true]
    · rw [kind_dropDangling_of_not_lost hlost]
      split
      · next hvector => exact Or.inr (Or.inr ⟨hvector.2, hvector.1, rfl⟩)
      · exact Or.inl rfl

/-- A field that is closed is not changed by closing it again. -/
theorem ClosesTo.close_eq_self {conventions : Conventions} {declared : List String}
    {field closed : Field} (h : field.ClosesTo conventions declared closed) :
    (closed.dropDangling declared).typeVector conventions = closed := by
  have hdangling : ¬ closed.IsDangling declared := by
    rintro ⟨reference, hreference, hunknown⟩
    rw [h.reference, Option.filter_eq_some_iff] at hreference
    exact hunknown (List.contains_iff_mem.mp hreference.2)
  rw [dropDangling_eq_self hdangling, typeVector_eq_self h.vector]

end Field

namespace Table

/-- What becomes of a table when tables are closed: nothing but its fields changes. -/
structure ClosesTo (conventions : Conventions) (declared : List String) (table closed : Table) :
    Prop where
  name : closed.name = table.name
  description : closed.description = table.description
  fields : List.Forall₂ (Field.ClosesTo conventions declared) table.fields closed.fields

theorem closesTo_close (conventions : Conventions) (declared : List String) (table : Table) :
    table.ClosesTo conventions declared
      { table with
        fields := table.fields.map fun field =>
          (field.dropDangling declared).typeVector conventions } where
  name := rfl
  description := rfl
  fields := by
    rw [List.forall₂_map_right_iff, List.forall₂_same]
    exact fun field _ => field.closesTo_close conventions declared

/-- What is closed stays as it is. -/
theorem closeReferences_closeReferences (conventions : Conventions) (tables : List Table) :
    closeReferences conventions (closeReferences conventions tables) =
      closeReferences conventions tables := by
  -- The same names are declared the second time, so that field by field nothing is left to close.
  have hdeclared := declaredNames_closeReferences conventions tables
  unfold closeReferences at hdeclared ⊢
  rw [hdeclared, List.map_map]
  apply List.map_congr_left
  intro table _
  simp only [Function.comp_apply, List.map_map]
  congr 1
  apply List.map_congr_left
  intro field _
  exact (field.closesTo_close conventions (declaredNames tables)).close_eq_self

/-- **Closing tables is idempotent and changes nothing but kinds and pointers.**  What is closed
stays as it is, there are as many tables and fields as before, in the same order and under the same
names, and of each field only the pointer to an undeclared table is dropped and only the kind of a
collection that loses its pointer or of a field that always holds vectors changes. -/
theorem closeReferences_closes (conventions : Conventions) (tables : List Table) :
    closeReferences conventions (closeReferences conventions tables) =
        closeReferences conventions tables ∧
      List.Forall₂ (ClosesTo conventions (declaredNames tables)) tables
        (closeReferences conventions tables) := by
  refine ⟨closeReferences_closeReferences conventions tables, ?_⟩
  unfold closeReferences
  rw [List.forall₂_map_right_iff, List.forall₂_same]
  exact fun table _ => table.closesTo_close conventions _

/-- A dangling collection under the name of a vector is changed twice at once. -/
example :
    closeReferences .standard
        [⟨"doc", none, [⟨"embedding", .references, true, none, none, some ⟨"chunk", true⟩⟩]⟩] =
      [⟨"doc", none, [⟨"embedding", .arrayOfFloat, true, none, none, none⟩]⟩] := by
  decide +kernel

end Table
end SurrealSchema
