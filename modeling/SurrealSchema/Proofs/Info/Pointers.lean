import SurrealSchema.Info.Tables
import SurrealSchema.Proofs.Closure

namespace SurrealSchema
namespace Info

/-!
# Pointers of described fields

However a response describes a field, by a definition or by properties, the field carries a pointer
only where its kind points.  So it is in all tables that responses or a provider describe.
-/

/-- A reading in two parts succeeds exactly when the first part does and the second one does with
what the first one gave. -/
theorem bind_eq_ok {α β : Type} {first : Except Failure α} {next : α → Except Failure β}
    {value : β} :
    first >>= next = .ok value ↔ ∃ middle, first = .ok middle ∧ next middle = .ok value := by
  cases first with
  | error failure => simp [bind, Except.bind]
  | ok middle => simp [bind, Except.bind]

/-- What is gathered comes from the elements. -/
theorem exists_of_mem_gather {α β : Type} {read : α → Except Failure (Option β)} {items : List α}
    {found : List β} (h : gather read items = .ok found) {value : β} (hvalue : value ∈ found) :
    ∃ item ∈ items, read item = .ok (some value) := by
  induction items generalizing found with
  | nil =>
      rw [gather, Except.ok.injEq] at h
      subst h
      contradiction
  | cons first items ih =>
      -- An element may give nothing, and then all that is gathered comes from the later ones.
      have hlater : ∀ {rest}, gather read items = .ok rest → value ∈ rest →
          ∃ item ∈ first :: items, read item = .ok (some value) := by
        intro rest hrest hmem
        obtain ⟨item, hitem, hread⟩ := ih hrest hmem
        exact ⟨item, List.mem_cons_of_mem _ hitem, hread⟩
      rw [gather, bind_eq_ok] at h
      obtain ⟨result, hread, h⟩ := h
      cases result with
      | none => exact hlater h hvalue
      | some added =>
          obtain ⟨rest, hrest, hfound⟩ := bind_eq_ok.mp h
          rw [← Except.ok.inj hfound] at hvalue
          rcases List.mem_cons.mp hvalue with rfl | hmem
          · exact ⟨first, List.mem_cons_self, hread⟩
          · exact hlater hrest hmem

/-- If what an element gives is labelled by a key of the element, then what is gathered is labelled
by some of the keys, in their order. -/
theorem sublist_of_gather {α β γ : Type} {key : α → γ} {label : β → γ}
    {read : α → Except Failure (Option β)}
    (hread : ∀ item value, read item = .ok (some value) → label value = key item)
    {items : List α} {found : List β} (h : gather read items = .ok found) :
    (found.map label).Sublist (items.map key) := by
  induction items generalizing found with
  | nil =>
      rw [gather, Except.ok.injEq] at h
      subst h
      exact List.Sublist.refl _
  | cons first items ih =>
      rw [gather, bind_eq_ok] at h
      obtain ⟨result, hresult, h⟩ := h
      cases result with
      | none => exact (ih h).cons _
      | some added =>
          obtain ⟨rest, hrest, hfound⟩ := bind_eq_ok.mp h
          rw [← Except.ok.inj hfound, List.map_cons, hread first added hresult]
          exact (ih hrest).cons_cons _

/-! ## Fields -/

/-- The field that clauses declare points by the kind of its type. -/
theorem pointsByKind_fieldOfClauses (name : String) (clauses : List Char) :
    (Ddl.fieldOfClauses name clauses).PointsByKind := by
  intro hsome
  rw [← Kind.isReference_iff]
  exact Descriptor.pointsByKind_ofTypeText _ hsome

theorem Properties.pointsByKind_descriptor (properties : Properties) :
    properties.descriptor.PointsByKind := by
  unfold descriptor
  dsimp only
  split
  · intro hsome
    contradiction
  · exact Descriptor.pointsByKind_ofTypeText _

theorem Properties.pointsByKind_toField (name : String) (properties : Properties) :
    (properties.toField name).PointsByKind := by
  intro hsome
  rw [← Kind.isReference_iff]
  have hdeclared := properties.pointsByKind_descriptor
  -- The descriptor of the field is the declared one or the optional form of it.
  have hdescriptor : (if properties.isOptional then properties.descriptor.optional
      else properties.descriptor).PointsByKind := by
    split
    · exact Descriptor.persists_pointsByKind.optional _ hdeclared
    · exact hdeclared
  exact hdescriptor hsome

/-- Whatever describes a field, it carries a pointer only where its kind points. -/
theorem FieldInfo.pointsByKind_toField (name : String) (info : FieldInfo) :
    (info.toField name).PointsByKind := by
  cases info with
  | statement definition =>
      show (fieldOfStatement name definition).PointsByKind
      unfold fieldOfStatement
      dsimp only
      split <;> exact pointsByKind_fieldOfClauses _ _
  | properties found => exact found.pointsByKind_toField name

/-! ## Tables -/

theorem pointsByKind_of_mem_fields {conventions : Conventions} {entries : Entries Value}
    {found : List Field} (h : fields conventions entries = .ok found) :
    ∀ field ∈ found, field.PointsByKind := by
  intro field hfield
  obtain ⟨⟨name, raw⟩, -, hread⟩ := exists_of_mem_gather h hfield
  obtain ⟨isElement, -, hfield⟩ := bind_eq_ok.mp hread
  split at hfield
  · rw [Except.ok.injEq] at hfield
    contradiction
  · obtain ⟨info, -, rfl⟩ := Option.map_eq_some_iff.mp (Except.ok.inj hfield)
    exact info.pointsByKind_toField name

theorem pointsByKind_of_table? {conventions : Conventions} {responses : Value} {name : String}
    {raw : Value} {table : Table} (h : table? conventions responses name raw = .ok (some table)) :
    ∀ field ∈ table.fields, field.PointsByKind := by
  obtain ⟨isUser, -, h⟩ := bind_eq_ok.mp h
  split at h
  · obtain ⟨response, -, h⟩ := bind_eq_ok.mp h
    split at h
    · obtain ⟨found, hfields, h⟩ := bind_eq_ok.mp h
      rw [Except.ok.injEq, Option.some.injEq] at h
      subst h
      exact pointsByKind_of_mem_fields hfields
    · rw [Except.ok.injEq] at h
      contradiction
  · rw [Except.ok.injEq] at h
    contradiction

theorem pointsByKind_of_mem_tablesOf {conventions : Conventions} {database : Database}
    {responses : Value} {tables : List Table}
    (h : tablesOf conventions database responses = .ok tables) :
    ∀ table ∈ tables, ∀ field ∈ table.fields, field.PointsByKind := by
  intro table htable
  obtain ⟨⟨name, raw⟩, -, hread⟩ := exists_of_mem_gather h htable
  exact pointsByKind_of_table? hread

/-- In the tables that a provider describes, fields only point by their kinds. -/
theorem pointsByKind_of_fetch {conventions : Conventions} {provider : Provider}
    {fetched : Fetched (List Table)} (h : fetch conventions provider = .ok fetched) :
    ∀ table ∈ fetched.result, ∀ field ∈ table.fields, field.PointsByKind := by
  unfold fetch at h
  dsimp only at h
  split at h
  · contradiction
  · obtain ⟨answers, -, h⟩ := bind_eq_ok.mp h
    obtain ⟨tables, htables, h⟩ := bind_eq_ok.mp h
    rw [← Except.ok.inj h]
    exact pointsByKind_of_mem_tablesOf htables

end Info
end SurrealSchema
