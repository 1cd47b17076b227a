import SurrealSchema.Proofs.Ddl.Steps

namespace SurrealSchema
namespace Ddl

/-!
# Readings that look before they write

The states of a reading hold places of tables that are used later without another look: the place
an open statement belongs to, and the place a look-up by name has given.  Here every such use is
checked, and a place that holds no table makes the reading fail.  As long as the place of the open
statement holds a table, the checked reading never fails and agrees with the unchecked one.
-/

/-- Some tables with the one at a place changed; it fails where there is no table. -/
def changeAt? (tables : List Table) (index : Nat) (change : Table → Table) : Option (List Table) :=
  (tables[index]?).map fun table => tables.set index (change table)

/-- What the end of a statement does to its table. -/
def Ongoing.settle (statement : Ongoing) (table : Table) : Table :=
  match statement.field with
  | none => describeTable statement.fallback table
  | some field => table.withField (describeField statement.fallback field)

/-- `declareTable` with a checked place. -/
def declareTable? (tables : List Table) (name : String) (description : Option String) :
    Option (List Table × Nat) :=
  match Table.indexOf? tables name with
  | none => some (tables ++ [⟨name, description, []⟩], tables.length)
  | some index =>
    (changeAt? tables index fun table =>
      { table with description := description.or table.description }).map (·, index)

namespace State

/-- `State.close` with a checked place. -/
def close? (state : State) : Option State :=
  match state.ongoing with
  | none => some state
  | some statement =>
    (changeAt? state.tables statement.table statement.settle).map fun tables =>
      { state with tables := tables, ongoing := none }

/-- A state after a line of its open statement: the statement ends if the line ends it. -/
def closeIf? (terminated : Bool) (state : State) : Option State :=
  if terminated then state.close? else some state

/-- `State.continueWith` with checked places. -/
def continueWith? (state : State) (statement : Ongoing) (line : List Char) : Option State :=
  match statement.field with
  | none =>
    (changeAt? state.tables statement.table
      (describeTable ((comment? line).map String.ofList))).bind fun tables =>
        closeIf? (isTerminated line) { state with tables := tables }
  | some field =>
    closeIf? (isTerminated line)
      { state with ongoing := some { statement with field := some (continueField line field) } }

/-- `State.defineTable` with checked places. -/
def defineTable? (state : State) (name : String) (line : List Char) : Option State :=
  (declareTable? state.tables name ((comment? line).map String.ofList)).bind
    fun (tables, index) =>
      closeIf? (isTerminated line) ⟨tables, some index, none, some ⟨index, none, state.heading⟩⟩

/-- `State.defineField` with a checked place. -/
def defineField? (state : State) (owner : String) (field : Field) (line : List Char) :
    Option State :=
  match Table.indexOf? state.tables owner with
  | none => some { state with heading := none }
  | some index =>
    closeIf? (isTerminated line)
      { state with heading := none, ongoing := some ⟨index, some field, state.heading⟩ }

/-- `State.enter` with checked places. -/
def enter? (state : State) (kind : Line) (line : List Char) : Option State :=
  match kind with
  | .table name => state.defineTable? name line
  | .field (some (owner, field)) =>
    if state.current.isNone then some state else state.defineField? owner field line
  | kind => some (state.enter kind line)

/-- `State.step` with checked places. -/
def step? (state : State) (line : List Char) : Option State :=
  let text := Text.trim line
  match Line.ofTrimmed text, state.ongoing with
  | .other, some statement => state.continueWith? statement text
  | kind, _ => state.close?.bind fun closed => closed.enter? kind text

/-- `State.finish` with a checked place. -/
def finish? (state : State) : Option (List Table) :=
  state.close?.map State.tables

/-- Whether the place of the open statement holds a table. -/
def InRange (state : State) : Prop :=
  ∀ statement, state.ongoing = some statement → statement.table < state.tables.length

end State

/-! ## The checks succeed -/

/-- Changing a table that is there is changing it without a check. -/
theorem changeAt?_eq_some {tables : List Table} {index : Nat} (h : index < tables.length)
    (change : Table → Table) :
    changeAt? tables index change = some (tables.modify index change) := by
  unfold changeAt?
  rw [List.getElem?_eq_getElem h, Option.map_some, List.modify_eq_set_getElem?,
    List.getElem?_eq_getElem h]
  rfl

/-- A look-up by name gives the place of a table. -/
theorem indexOf?_lt_length {tables : List Table} {name : String} {index : Nat}
    (h : Table.indexOf? tables name = some index) : index < tables.length := by
  obtain ⟨hlt, -⟩ := List.findIdx?_eq_some_iff_getElem.mp h
  exact hlt

theorem apply_eq_modify (statement : Ongoing) (tables : List Table) :
    statement.apply tables = tables.modify statement.table statement.settle := rfl

theorem declareTable?_eq_some (tables : List Table) (name : String)
    (description : Option String) :
    declareTable? tables name description = some (declareTable tables name description) := by
  unfold declareTable? declareTable
  cases hindex : Table.indexOf? tables name with
  | none => rfl
  | some index =>
      dsimp only
      rw [changeAt?_eq_some (indexOf?_lt_length hindex), Option.map_some]

/-- The place that declaring a table gives holds a table. -/
theorem declareTable_snd_lt (tables : List Table) (name : String) (description : Option String) :
    (declareTable tables name description).2 < (declareTable tables name description).1.length := by
  unfold declareTable
  cases hindex : Table.indexOf? tables name with
  | none => simp
  | some index =>
      dsimp only
      rw [List.length_modify]
      exact indexOf?_lt_length hindex

namespace State

theorem close?_eq_some {state : State} (h : state.InRange) : state.close? = some state.close := by
  unfold close? close
  cases hopen : state.ongoing with
  | none => rfl
  | some statement =>
      dsimp only
      rw [changeAt?_eq_some (h statement hopen), Option.map_some, apply_eq_modify]

theorem closeIf?_eq_some {state : State} (h : state.InRange) (terminated : Bool) :
    state.closeIf? terminated = some (if terminated then state.close else state) := by
  unfold closeIf?
  split
  · exact close?_eq_some h
  · rfl

theorem continueWith?_eq_some {state : State} (h : state.InRange) {statement : Ongoing}
    (hopen : state.ongoing = some statement) (line : List Char) :
    state.continueWith? statement line = some (state.continueWith statement line) := by
  have hplace : statement.table < state.tables.length := h statement hopen
  unfold continueWith? continueWith
  cases statement.field with
  | none =>
      dsimp only
      rw [changeAt?_eq_some hplace, Option.bind_some]
      apply closeIf?_eq_some
      intro other hother
      rw [List.length_modify]
      exact h other hother
  | some field =>
      apply closeIf?_eq_some
      intro other hother
      rw [← Option.some.inj hother]
      exact hplace

theorem defineTable?_eq_some (state : State) (name : String) (line : List Char) :
    state.defineTable? name line = some (state.defineTable name line) := by
  unfold defineTable?
  rw [declareTable?_eq_some, Option.bind_some]
  apply closeIf?_eq_some
  intro statement hopen
  rw [← Option.some.inj hopen]
  exact declareTable_snd_lt _ _ _

theorem defineField?_eq_some (state : State) (owner : String) (field : Field) (line : List Char) :
    state.defineField? owner field line = some (state.defineField owner field line) := by
  unfold defineField? defineField
  cases hindex : Table.indexOf? state.tables owner with
  | none => rfl
  | some index =>
      apply closeIf?_eq_some
      intro statement hopen
      rw [← Option.some.inj hopen]
      exact indexOf?_lt_length hindex

theorem enter?_eq_some (state : State) (kind : Line) (line : List Char) :
    state.enter? kind line = some (state.enter kind line) := by
  unfold enter?
  split
  · exact defineTable?_eq_some _ _ _
  · next owner field =>
      unfold enter
      dsimp only
      split
      · rfl
      · exact defineField?_eq_some _ _ _ _
  · rfl

/-- **A checked step never fails where the open statement has a table**, and it does what the
unchecked one does. -/
theorem step?_eq_some {state : State} (h : state.InRange) (line : List Char) :
    state.step? line = some (state.step line) := by
  unfold step?
  dsimp only
  split
  · next statement hkind hopen =>
      rw [step_of_continues hopen ((Line.ofTrimmed_eq_other_iff _).mp hkind)]
      exact continueWith?_eq_some h hopen _
  · next hnone =>
      rw [close?_eq_some h, Option.bind_some, enter?_eq_some]
      cases hcontinues : continues (Text.trim line) with
      | false => rw [step_of_not_continues state hcontinues]
      | true =>
          have hclosed : state.ongoing = none := by
            rw [Option.eq_none_iff_forall_ne_some]
            intro statement hopen
            exact hnone statement ((Line.ofTrimmed_eq_other_iff _).mpr hcontinues) hopen
          rw [step_of_closed hclosed, close_eq_self hclosed]

theorem finish?_eq_some {state : State} (h : state.InRange) :
    state.finish? = some state.finish := by
  unfold finish? finish
  rw [close?_eq_some h, Option.map_some]

end State
end Ddl
end SurrealSchema
