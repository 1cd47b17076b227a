import SurrealSchema.Proofs.Ddl.Checked

namespace SurrealSchema
namespace Ddl

/-!
# What a line may change

Reading on loses nothing: the tables that are there keep their places and names, and their fields
keep theirs.  `Extends` says so of two lists of tables, and every step and every end of a document
is compared by it.

A line writes at most two fields, that of the statement which it continues or ends and that which it
defines itself, and it replaces a description only where it declares the table again with a comment
of its own.  A step is the end of a statement followed by what the line does by its kind, so each of
these facts is shown for the two parts.
-/

/-! ## Tables with more in them -/

/-- Whether some tables are others, in their places, with more fields behind their own and more
tables behind them. -/
structure Extends (before after : List Table) : Prop where
  names : before.map Table.name <+: after.map Table.name
  fieldNames : ∀ (index : Nat) (table : Table), before[index]? = some table →
    ∃ grown : Table, after[index]? = some grown ∧ table.fieldNames <+: grown.fieldNames

namespace Extends

theorem refl (tables : List Table) : Extends tables tables where
  names := List.prefix_rfl
  fieldNames := fun _ table htable => ⟨table, htable, List.prefix_rfl⟩

theorem trans {first second third : List Table} (h : Extends first second)
    (hnext : Extends second third) : Extends first third where
  names := h.names.trans hnext.names
  fieldNames := by
    intro index table htable
    obtain ⟨grown, hgrown, hprefix⟩ := h.fieldNames index table htable
    obtain ⟨final, hfinal, hprefix'⟩ := hnext.fieldNames index grown hgrown
    exact ⟨final, hfinal, hprefix.trans hprefix'⟩

/-- Two changes of one table that rename it in neither case, the second with more fields. -/
theorem modify_modify (tables : List Table) (index : Nat) {change other : Table → Table}
    (hname : ∀ table, (change table).name = table.name)
    (hother : ∀ table, (other table).name = table.name)
    (hfields : ∀ table, (change table).fieldNames <+: (other table).fieldNames) :
    Extends (tables.modify index change) (tables.modify index other) where
  names := by
    rw [map_name_modify _ _ _ hname, map_name_modify _ _ _ hother]
  fieldNames := by
    intro place table htable
    rw [List.getElem?_modify, Option.map_eq_map, Option.map_eq_some_iff] at htable
    obtain ⟨old, hold, rfl⟩ := htable
    refine ⟨if index = place then other old else old, ?_, ?_⟩
    · rw [List.getElem?_modify, hold]
      split <;> rfl
    · split
      · exact hfields old
      · exact List.prefix_rfl

/-- A change that renames no table and only adds fields behind the ones that are there. -/
theorem modify (tables : List Table) (index : Nat) {change : Table → Table}
    (hname : ∀ table, (change table).name = table.name)
    (hfields : ∀ table, table.fieldNames <+: (change table).fieldNames) :
    Extends tables (tables.modify index change) := by
  have hmodify : Extends (tables.modify index id) (tables.modify index change) :=
    modify_modify tables index (fun _ => rfl) hname hfields
  rwa [List.modify_id] at hmodify

end Extends

/-- The field at a place of a table. -/
def fieldAt (tables : List Table) (index place : Nat) : Option Field :=
  (tables[index]?).bind fun table => table.fields[place]?

/-- The description of the table at a place. -/
def descriptionAt (tables : List Table) (index : Nat) : Option String :=
  (tables[index]?).bind Table.description

theorem fieldAt_modify (tables : List Table) (index : Nat) (change : Table → Table)
    (other place : Nat) :
    fieldAt (tables.modify index change) other place =
      if index = other then (tables[other]?).bind fun table => (change table).fields[place]?
      else fieldAt tables other place := by
  unfold fieldAt
  rw [List.getElem?_modify]
  cases tables[other]? with
  | none => split <;> rfl
  | some table => by_cases hindex : index = other <;> simp [hindex]

theorem descriptionAt_modify (tables : List Table) (index : Nat) (change : Table → Table)
    (other : Nat) :
    descriptionAt (tables.modify index change) other =
      if index = other then (tables[other]?).bind fun table => (change table).description
      else descriptionAt tables other := by
  unfold descriptionAt
  rw [List.getElem?_modify]
  cases tables[other]? with
  | none => split <;> rfl
  | some table => by_cases hindex : index = other <;> simp [hindex]

/-- A change that leaves the fields of tables alone. -/
theorem fieldAt_modify_of_fields_eq (tables : List Table) (index : Nat) {change : Table → Table}
    (hfields : ∀ table, (change table).fields = table.fields) (other place : Nat) :
    fieldAt (tables.modify index change) other place = fieldAt tables other place := by
  rw [fieldAt_modify]
  simp only [hfields]
  split <;> rfl

/-- A change that leaves the descriptions alone that are there. -/
theorem descriptionAt_modify_of_keeps {tables : List Table} {index : Nat} {change : Table → Table}
    (hkeeps : ∀ table text, table.description = some text →
      (change table).description = some text) {other : Nat} {text : String}
    (h : descriptionAt tables other = some text) :
    descriptionAt (tables.modify index change) other = some text := by
  rw [descriptionAt_modify]
  split
  · obtain ⟨table, htable, htext⟩ := Option.bind_eq_some_iff.mp h
    rw [htable, Option.bind_some]
    exact hkeeps table text htext
  · exact h

/-! ## Fields of tables -/

/-- Declaring a field writes it in one place and leaves the fields in the other places alone. -/
theorem getElem?_addField {added field : Field} {fields : List Field} {place : Nat}
    (h : (Table.addField added fields)[place]? = some field) :
    fields[place]? = some field ∨ field = added := by
  induction fields generalizing place with
  | nil =>
      have hmem := List.mem_of_getElem? h
      exact Or.inr (List.mem_singleton.mp hmem)
  | cons first fields ih =>
      unfold Table.addField at h
      split at h
      · cases place with
        | zero => exact Or.inr (Option.some.inj h).symm
        | succ place => exact Or.inl h
      · cases place with
        | zero => exact Or.inl h
        | succ place => exact ih h

theorem fieldNames_prefix_withField (table : Table) (added : Field) :
    table.fieldNames <+: (table.withField added).fieldNames := by
  show table.fields.map Field.name <+: (Table.addField added table.fields).map Field.name
  rw [Table.map_name_addField]
  split
  · exact List.prefix_rfl
  · exact List.prefix_append _ _

/-! ## The end of a statement -/

theorem settle_name (statement : Ongoing) (table : Table) :
    (statement.settle table).name = table.name := by
  unfold Ongoing.settle
  cases statement.field <;> rfl

theorem fieldNames_prefix_settle (statement : Ongoing) (table : Table) :
    table.fieldNames <+: (statement.settle table).fieldNames := by
  unfold Ongoing.settle
  cases statement.field with
  | none => exact List.prefix_rfl
  | some field => exact fieldNames_prefix_withField table _

/-- The end of a statement keeps the description that a table has. -/
theorem settle_description (statement : Ongoing) {table : Table} {text : String}
    (h : table.description = some text) : (statement.settle table).description = some text := by
  unfold Ongoing.settle
  cases statement.field with
  | none => simp [describeTable, h]
  | some field => exact h

namespace State

/-- What the end of the open statement does to the tables. -/
theorem close_tables {state : State} {statement : Ongoing}
    (hopen : state.ongoing = some statement) :
    state.close.tables = state.tables.modify statement.table statement.settle := by
  unfold close
  rw [hopen]
  exact apply_eq_modify statement state.tables

/-- Ending the open statement loses nothing. -/
theorem extends_close (state : State) : Extends state.tables state.close.tables := by
  cases hopen : state.ongoing with
  | none =>
      rw [close_eq_self hopen]
      exact Extends.refl _
  | some statement =>
      rw [close_tables hopen]
      exact Extends.modify _ _ (settle_name statement) (fieldNames_prefix_settle statement)

/-- Ending the open statement writes its field. -/
theorem fieldAt_close {state : State} {index place : Nat} {field : Field}
    (h : fieldAt state.close.tables index place = some field) :
    fieldAt state.tables index place = some field ∨
      ∃ statement opened, state.ongoing = some statement ∧ statement.table = index ∧
        statement.field = some opened ∧ field = describeField statement.fallback opened := by
  cases hopen : state.ongoing with
  | none =>
      rw [close_eq_self hopen] at h
      exact Or.inl h
  | some statement =>
      rw [close_tables hopen] at h
      cases hfield : statement.field with
      | none =>
          have hsettle : ∀ table, (statement.settle table).fields = table.fields := by
            intro table
            unfold Ongoing.settle
            rw [hfield]
            rfl
          rw [fieldAt_modify_of_fields_eq _ _ hsettle] at h
          exact Or.inl h
      | some opened =>
          rw [fieldAt_modify] at h
          split at h
          · next hindex =>
              obtain ⟨table, htable, hplace⟩ := Option.bind_eq_some_iff.mp h
              unfold Ongoing.settle at hplace
              rw [hfield] at hplace
              rcases getElem?_addField hplace with hold | hnew
              · exact Or.inl (Option.bind_eq_some_iff.mpr ⟨table, htable, hold⟩)
              · exact Or.inr ⟨statement, opened, rfl, hindex, hfield, hnew⟩
          · exact Or.inl h

/-- Ending the open statement keeps the descriptions that are there. -/
theorem descriptionAt_close {state : State} {index : Nat} {text : String}
    (h : descriptionAt state.tables index = some text) :
    descriptionAt state.close.tables index = some text := by
  cases hopen : state.ongoing with
  | none =>
      rw [close_eq_self hopen]
      exact h
  | some statement =>
      rw [close_tables hopen]
      exact descriptionAt_modify_of_keeps (fun _ _ => settle_description statement) h

/-- Ending a statement leaves the look-up of tables alone. -/
theorem indexOf_close (state : State) (name : String) :
    Table.indexOf? state.close.tables name = Table.indexOf? state.tables name := by
  have hnames := congrArg Outline.names (outline_close state)
  rw [indexOf_eq_placeOf, indexOf_eq_placeOf]
  exact congrArg (placeOf? · name) hnames

/-! ## A line of the open statement -/

/-- The state after a line of the open statement that does not end it. -/
def extend (state : State) (statement : Ongoing) (line : List Char) : State :=
  match statement.field with
  | none =>
    { state with
      tables := state.tables.modify statement.table
        (describeTable ((comment? line).map String.ofList)) }
  | some field =>
    { state with ongoing := some { statement with field := some (continueField line field) } }

theorem continueWith_eq (state : State) (statement : Ongoing) (line : List Char) :
    state.continueWith statement line =
      if isTerminated line then (state.extend statement line).close
      else state.extend statement line := rfl

section Continued

variable {state : State} {statement : Ongoing} {line : List Char}

/-- A line of the open statement leaves the fields in the tables alone. -/
theorem fieldAt_extend (state : State) (statement : Ongoing) (line : List Char)
    (index place : Nat) :
    fieldAt (state.extend statement line).tables index place =
      fieldAt state.tables index place := by
  unfold extend
  cases statement.field with
  | none => exact fieldAt_modify_of_fields_eq _ _ (describeTable_fields _) _ _
  | some field => rfl

theorem extends_extend (state : State) (statement : Ongoing) (line : List Char) :
    Extends state.tables (state.extend statement line).tables := by
  unfold extend
  cases statement.field with
  | none => exact Extends.modify _ _ (describeTable_name _) fun _ => List.prefix_rfl
  | some field => exact Extends.refl _

theorem descriptionAt_extend {index : Nat} {text : String}
    (h : descriptionAt state.tables index = some text) :
    descriptionAt (state.extend statement line).tables index = some text := by
  unfold extend
  cases statement.field with
  | none =>
      apply descriptionAt_modify_of_keeps _ h
      intro table text htext
      simp [describeTable, htext]
  | some field => exact h

/-- The statement that a line of it leaves open. -/
theorem ongoing_extend (hopen : state.ongoing = some statement) :
    (state.extend statement line).ongoing =
      some { statement with field := statement.field.map (continueField line) } := by
  unfold extend
  cases hfield : statement.field with
  | none =>
      obtain ⟨table, field, fallback⟩ := statement
      obtain rfl : field = none := hfield
      exact hopen
  | some field => rfl

/-- **A line of the open statement writes the field of the statement**, if it ends it, and the line
is part of what is written. -/
theorem fieldAt_continueWith (hopen : state.ongoing = some statement) {index place : Nat}
    {field : Field}
    (h : fieldAt (state.continueWith statement line).tables index place = some field) :
    fieldAt state.tables index place = some field ∨
      statement.table = index ∧ ∃ opened, statement.field = some opened ∧
        field = describeField statement.fallback (continueField line opened) := by
  rw [continueWith_eq] at h
  split at h
  · rcases fieldAt_close h with hold | ⟨closed, opened, hongoing, hindex, hfield, rfl⟩
    · rw [fieldAt_extend] at hold
      exact Or.inl hold
    · rw [ongoing_extend hopen] at hongoing
      obtain rfl := Option.some.inj hongoing
      obtain ⟨first, hfirst, rfl⟩ := Option.map_eq_some_iff.mp hfield
      exact Or.inr ⟨hindex, first, hfirst, rfl⟩
  · rw [fieldAt_extend] at h
    exact Or.inl h

/-- The end of a document after a line of the open statement has what its end before the line
has. -/
theorem extends_finish_extend (hopen : state.ongoing = some statement) :
    Extends state.finish (state.extend statement line).finish := by
  have hextended : (state.extend statement line).ongoing = _ := ongoing_extend hopen
  unfold finish
  rw [close_tables hopen, close_tables hextended]
  unfold extend
  cases hfield : statement.field with
  | none =>
      rw [List.modify_modify_eq]
      refine Extends.modify_modify _ _ (settle_name statement) (fun table => ?_) fun table => ?_
      · exact settle_name _ _
      · unfold Ongoing.settle
        rw [hfield]
        exact List.prefix_rfl
  | some field =>
      refine Extends.modify_modify _ _ (settle_name statement) (settle_name _) fun table => ?_
      unfold Ongoing.settle
      rw [hfield]
      show (table.withField _).fields.map Field.name <+: (table.withField _).fields.map Field.name
      unfold Table.withField
      rw [Table.map_name_addField, Table.map_name_addField]
      exact List.prefix_rfl

end Continued

/-! ## A line taken by its kind -/

/-- The state in which a line has declared a table and left its statement open. -/
def declared (state : State) (name : String) (line : List Char) : State :=
  let (tables, index) := declareTable state.tables name ((comment? line).map String.ofList)
  ⟨tables, some index, none, some ⟨index, none, state.heading⟩⟩

/-- The state in which a line has opened the statement of a field. -/
def opened (state : State) (index : Nat) (field : Field) : State :=
  ⟨state.tables, state.current, none, some ⟨index, some field, state.heading⟩⟩

/-- A line that is taken by its kind leaves the tables alone, or it opens the statement of a table
or of a field and may end it. -/
theorem enter_cases (state : State) (kind : Line) (line : List Char) :
    (state.enter kind line).tables = state.tables ∨
      ∃ next, (state.enter kind line = if isTerminated line then next.close else next) ∧
        ((∃ name, kind = .table name ∧ next = state.declared name line) ∨
          ∃ owner field index, kind = .field (some (owner, field)) ∧
            Table.indexOf? state.tables owner = some index ∧ next = state.opened index field) := by
  cases kind with
  | blank => exact Or.inl rfl
  | comment text =>
      refine Or.inl ?_
      unfold enter
      dsimp only
      split <;> rfl
  | table name => exact Or.inr ⟨_, rfl, Or.inl ⟨name, rfl, rfl⟩⟩
  | field definition =>
      cases hcurrent : state.current with
      | none => exact Or.inl (by simp [enter, hcurrent])
      | some current =>
          cases definition with
          | none => exact Or.inl (by simp [enter, hcurrent])
          | some definition =>
              obtain ⟨owner, field⟩ := definition
              rw [enter_field_of_current hcurrent]
              cases hindex : Table.indexOf? state.tables owner with
              | none => exact Or.inl (by rw [defineField_of_indexOf_eq_none hindex])
              | some index =>
                  rw [defineField_of_indexOf_eq_some hindex]
                  exact Or.inr ⟨_, rfl, Or.inr ⟨owner, field, index, rfl, hindex, rfl⟩⟩
  | definition => exact Or.inl rfl
  | other => exact Or.inl rfl

theorem extends_declared (state : State) (name : String) (line : List Char) :
    Extends state.tables (state.declared name line).tables := by
  show Extends state.tables (declareTable _ _ _).1
  unfold declareTable
  cases Table.indexOf? state.tables name with
  | none =>
      refine ⟨?_, fun index table htable => ⟨table, ?_, List.prefix_rfl⟩⟩
      · rw [List.map_append]
        exact List.prefix_append _ _
      · obtain ⟨hlt, -⟩ := List.getElem?_eq_some_iff.mp htable
        rw [List.getElem?_append_left hlt, htable]
  | some index => exact Extends.modify _ _ (fun _ => rfl) fun _ => List.prefix_rfl

/-- Declaring a table leaves the fields of all tables alone; a new table has none. -/
theorem fieldAt_declared (state : State) (name : String) (line : List Char) (index place : Nat) :
    fieldAt (state.declared name line).tables index place = fieldAt state.tables index place := by
  show fieldAt (declareTable _ _ _).1 index place = _
  unfold declareTable
  cases Table.indexOf? state.tables name with
  | none =>
      unfold fieldAt
      rcases Nat.lt_or_ge index state.tables.length with hlt | hge
      · rw [List.getElem?_append_left hlt]
      · rw [List.getElem?_append_right hge, List.getElem?_eq_none hge]
        cases index - state.tables.length <;> rfl
  | some found =>
      apply fieldAt_modify_of_fields_eq
      intro table
      rfl

/-- Declaring a table replaces its description by the comment of the line, if there is one. -/
theorem descriptionAt_declared {state : State} {name : String} {line : List Char} {index : Nat}
    {text : String} (h : descriptionAt state.tables index = some text) :
    descriptionAt (state.declared name line).tables index = some text ∨
      Table.indexOf? state.tables name = some index ∧ ∃ comment, comment? line = some comment ∧
        descriptionAt (state.declared name line).tables index = some (String.ofList comment) := by
  obtain ⟨table, htable, htext⟩ := Option.bind_eq_some_iff.mp h
  have hdeclared : (state.declared name line).tables =
      (declareTable state.tables name ((comment? line).map String.ofList)).1 := rfl
  rw [hdeclared]
  unfold declareTable
  cases hindex : Table.indexOf? state.tables name with
  | none =>
      obtain ⟨hlt, -⟩ := List.getElem?_eq_some_iff.mp htable
      refine Or.inl ?_
      unfold descriptionAt
      dsimp only
      rw [List.getElem?_append_left hlt]
      exact h
  | some found =>
      dsimp only
      rw [descriptionAt_modify, htable]
      by_cases hfound : found = index
      · rw [if_pos hfound, Option.bind_some, htext, hfound]
        cases comment? line with
        | none => exact Or.inl rfl
        | some comment => exact Or.inr ⟨rfl, comment, rfl, rfl⟩
      · rw [if_neg hfound]
        exact Or.inl h

/-- A statement that may end at once loses nothing if it loses nothing when it is opened. -/
theorem extends_closeIf {tables : List Table} {state : State} (h : Extends tables state.tables)
    (terminated : Bool) :
    Extends tables (if terminated then state.close else state).tables := by
  split
  · exact h.trans state.extends_close
  · exact h

theorem extends_enter (state : State) (kind : Line) (line : List Char) :
    Extends state.tables (state.enter kind line).tables := by
  rcases state.enter_cases kind line with hsame | ⟨next, henter, hnext⟩
  · rw [hsame]
    exact Extends.refl _
  · rw [henter]
    apply extends_closeIf
    rcases hnext with ⟨name, -, rfl⟩ | ⟨owner, field, index, -, -, rfl⟩
    · exact state.extends_declared name line
    · exact Extends.refl _

/-- **A line that is taken by its kind writes the field it defines**, in the table it names. -/
theorem fieldAt_enter {state : State} {kind : Line} {line : List Char} {index place : Nat}
    {field : Field} (h : fieldAt (state.enter kind line).tables index place = some field) :
    fieldAt state.tables index place = some field ∨
      ∃ owner defined, kind = .field (some (owner, defined)) ∧
        Table.indexOf? state.tables owner = some index ∧
        field = describeField state.heading defined := by
  rcases state.enter_cases kind line with hsame | ⟨next, henter, hnext⟩
  · rw [hsame] at h
    exact Or.inl h
  · have hwritten : fieldAt next.tables index place = some field ∨
        ∃ statement found, next.ongoing = some statement ∧ statement.table = index ∧
          statement.field = some found ∧ field = describeField statement.fallback found := by
      rw [henter] at h
      split at h
      · exact fieldAt_close h
      · exact Or.inl h
    rcases hnext with ⟨name, -, rfl⟩ | ⟨owner, defined, found, hkind, hindex, rfl⟩
    · rcases hwritten with hold | ⟨statement, found, hopen, -, hfield, -⟩
      · rw [fieldAt_declared] at hold
        exact Or.inl hold
      · obtain rfl := Option.some.inj hopen
        contradiction
    · rcases hwritten with hold | ⟨statement, read, hopen, rfl, hfield, rfl⟩
      · exact Or.inl hold
      · obtain rfl := Option.some.inj hopen
        obtain rfl := Option.some.inj hfield
        exact Or.inr ⟨owner, _, hkind, hindex, rfl⟩

/-- **A line that is taken by its kind replaces a description only by its comment**, where it
declares the table. -/
theorem descriptionAt_enter {state : State} {kind : Line} {line : List Char} {index : Nat}
    {text : String} (h : descriptionAt state.tables index = some text) :
    descriptionAt (state.enter kind line).tables index = some text ∨
      ∃ name comment, kind = .table name ∧ Table.indexOf? state.tables name = some index ∧
        comment? line = some comment ∧
        descriptionAt (state.enter kind line).tables index = some (String.ofList comment) := by
  rcases state.enter_cases kind line with hsame | ⟨next, henter, hnext⟩
  · rw [hsame]
    exact Or.inl h
  · have hkeeps : ∀ kept, descriptionAt next.tables index = some kept →
        descriptionAt (state.enter kind line).tables index = some kept := by
      intro kept hkept
      rw [henter]
      split
      · exact descriptionAt_close hkept
      · exact hkept
    rcases hnext with ⟨name, hkind, rfl⟩ | ⟨owner, defined, found, -, -, rfl⟩
    · rcases descriptionAt_declared h with hold | ⟨hindex, comment, hcomment, hnew⟩
      · exact Or.inl (hkeeps text hold)
      · exact Or.inr ⟨name, comment, hkind, hindex, hcomment, hkeeps _ hnew⟩
    · exact Or.inl (hkeeps text h)

/-! ## Steps -/

/-- **A step loses nothing.** -/
theorem extends_step (state : State) (line : List Char) :
    Extends state.tables (state.step line).tables := by
  cases hcontinues : continues (Text.trim line) with
  | false =>
      rw [step_of_not_continues state hcontinues]
      exact state.extends_close.trans (extends_enter _ _ _)
  | true =>
      cases hopen : state.ongoing with
      | none =>
          rw [step_of_closed_of_continues hopen hcontinues]
          exact Extends.refl _
      | some statement =>
          rw [step_of_continues hopen hcontinues, continueWith_eq]
          exact extends_closeIf (extends_extend _ _ _) _

/-- **The end of a document after one more line has what its end before the line has.** -/
theorem extends_finish_step (state : State) (line : List Char) :
    Extends state.finish (state.step line).finish := by
  cases hcontinues : continues (Text.trim line) with
  | false =>
      rw [step_of_not_continues state hcontinues]
      exact (extends_enter _ _ _).trans (extends_close _)
  | true =>
      cases hopen : state.ongoing with
      | none =>
          rw [step_of_closed_of_continues hopen hcontinues]
          exact Extends.refl _
      | some statement =>
          rw [step_of_continues hopen hcontinues, continueWith_eq]
          have hextended : Extends state.finish
              (state.extend statement (Text.trim line)).finish := extends_finish_extend hopen
          split
          · -- A statement that has ended has nothing left to end.
            have hclosed := close_eq_self
              (close_ongoing (state.extend statement (Text.trim line)))
            unfold finish at hextended ⊢
            rw [hclosed]
            exact hextended
          · exact hextended

/-- A step adds at most one table. -/
theorem length_tables_step_le (state : State) (line : List Char) :
    (state.step line).tables.length ≤ state.tables.length + 1 := by
  have hnames : (state.step line).outline.names.length ≤ state.outline.names.length + 1 := by
    rw [outline_step]
    cases Line.ofTrimmed (Text.trim line) with
    | table name =>
        show (addName state.outline.names name).length ≤ _
        unfold addName
        split
        · exact Nat.le_succ _
        · simp
    | comment text =>
        unfold Outline.enter
        dsimp only
        split <;> exact Nat.le_succ _
    | field definition =>
        unfold Outline.enter
        dsimp only
        split <;> exact Nat.le_succ _
    | _ => exact Nat.le_succ _
  simpa [outline] using hnames

/-- Whether a line writes a field to the table at a place of a state: it ends the open statement,
which it may have added to, or it defines a field of the table. -/
inductive Writes (state : State) (line : List Char) (index : Nat) : Field → Prop
  | ongoing {statement : Ongoing} {field : Field} (hopen : state.ongoing = some statement)
      (htable : statement.table = index) (hfield : statement.field = some field) :
      Writes state line index (describeField statement.fallback
        (if continues (Text.trim line) then continueField (Text.trim line) field else field))
  | defined {owner : String} {field : Field}
      (hdefined : definedField? (Text.trim line) = some (owner, field))
      (howner : Table.indexOf? state.tables owner = some index) :
      Writes state line index (describeField state.heading field)

/-- **A step writes the field of the open statement and the field that its line defines, and no
other.** -/
theorem fieldAt_step {state : State} {line : List Char} {index place : Nat} {field : Field}
    (h : fieldAt (state.step line).tables index place = some field) :
    fieldAt state.tables index place = some field ∨ state.Writes line index field := by
  cases hcontinues : continues (Text.trim line) with
  | false =>
      rw [step_of_not_continues state hcontinues] at h
      rcases fieldAt_enter h with hclosed | ⟨owner, defined, hkind, howner, rfl⟩
      · rcases fieldAt_close hclosed with hold | ⟨statement, read, hopen, htable, hfield, rfl⟩
        · exact Or.inl hold
        · have hwrites : state.Writes line index _ := .ongoing hopen htable hfield
          rw [hcontinues] at hwrites
          exact Or.inr hwrites
      · rw [Line.ofTrimmed_eq_field_iff (Text.trimmed_trim line)] at hkind
        rw [indexOf_close] at howner
        rw [close_heading]
        exact Or.inr (.defined hkind howner)
  | true =>
      cases hopen : state.ongoing with
      | none =>
          rw [step_of_closed_of_continues hopen hcontinues] at h
          exact Or.inl h
      | some statement =>
          rw [step_of_continues hopen hcontinues] at h
          rcases fieldAt_continueWith hopen h with hold | ⟨htable, read, hfield, rfl⟩
          · exact Or.inl hold
          · have hwrites : state.Writes line index _ := .ongoing hopen htable hfield
            rw [hcontinues] at hwrites
            exact Or.inr hwrites

/-- **A step replaces a description only by the comment of its line**, where the line declares the
table again. -/
theorem descriptionAt_step {state : State} {line : List Char} {index : Nat} {text : String}
    (h : descriptionAt state.tables index = some text) :
    descriptionAt (state.step line).tables index = some text ∨
      ∃ name comment, definedTable? (Text.trim line) = some name ∧
        Table.indexOf? state.tables name = some index ∧
        comment? (Text.trim line) = some comment ∧
        descriptionAt (state.step line).tables index = some (String.ofList comment) := by
  cases hcontinues : continues (Text.trim line) with
  | false =>
      rw [step_of_not_continues state hcontinues]
      rcases descriptionAt_enter (descriptionAt_close h) with
        hold | ⟨name, comment, hkind, hindex, hcomment, hnew⟩
      · exact Or.inl hold
      · rw [Line.ofTrimmed_eq_table_iff] at hkind
        rw [indexOf_close] at hindex
        exact Or.inr ⟨name, comment, hkind, hindex, hcomment, hnew⟩
  | true =>
      refine Or.inl ?_
      cases hopen : state.ongoing with
      | none =>
          rw [step_of_closed_of_continues hopen hcontinues]
          exact h
      | some statement =>
          rw [step_of_continues hopen hcontinues, continueWith_eq]
          split
          · exact descriptionAt_close (descriptionAt_extend h)
          · exact descriptionAt_extend h

/-! ## Readings -/

/-- **The end of a document has what the end of each of its beginnings has.** -/
theorem extends_finish_foldl (state : State) (lines : List (List Char)) :
    Extends state.finish (lines.foldl step state).finish := by
  induction lines generalizing state with
  | nil => exact Extends.refl _
  | cons line lines ih => exact (state.extends_finish_step line).trans (ih (state.step line))

/-- **Nothing that has been read is lost or disturbed.**  Whatever the state and the line, a step
keeps the tables and their fields in their places and adds one table at most; every field that is
new or changed is that of the open statement or the one that the line defines, in its table; and a
description is replaced only by the comment of a line that declares its table again.  So what a
document has given up to a line is still there at its end. -/
theorem step_and_finish_lose_nothing :
    (∀ (state : State) (line : List Char),
      Extends state.tables (state.step line).tables ∧
      (state.step line).tables.length ≤ state.tables.length + 1 ∧
      (∀ index place field, fieldAt (state.step line).tables index place = some field →
        fieldAt state.tables index place ≠ some field → state.Writes line index field) ∧
      ∀ index text, descriptionAt state.tables index = some text →
        descriptionAt (state.step line).tables index ≠ some text →
        ∃ name comment, definedTable? (Text.trim line) = some name ∧
          Table.indexOf? state.tables name = some index ∧
          comment? (Text.trim line) = some comment ∧
          descriptionAt (state.step line).tables index = some (String.ofList comment)) ∧
    ∀ lines more : List (List Char),
      Extends (run lines).finish (run (lines ++ more)).finish := by
  refine ⟨fun state line => ⟨state.extends_step line, state.length_tables_step_le line, ?_, ?_⟩, ?_⟩
  · intro index place field hfield hnew
    exact (fieldAt_step hfield).resolve_left hnew
  · intro index text htext hchanged
    exact (descriptionAt_step htext).resolve_left hchanged
  · intro lines more
    unfold run
    rw [List.foldl_append]
    exact extends_finish_foldl _ more

end State
end Ddl
end SurrealSchema
