import SurrealSchema.Proofs.Ddl.Lines

namespace SurrealSchema
namespace Ddl

/-!
# Steps of a reading

What one line does to a state.  A line that continues a statement is taken by the statement; any
other line first ends the statement and then does what its kind says.  What a line does to the
names of the tables, the current table and the heading does not depend on whether a statement is
open, so these three parts form a small machine of their own, `Outline`.
-/

namespace State

/-- The state after some lines, read from the start. -/
def run (lines : List (List Char)) : State :=
  lines.foldl step initial

/-- One more line is one more step. -/
@[simp] theorem run_append_singleton (lines : List (List Char)) (line : List Char) :
    run (lines ++ [line]) = (run lines).step line := by
  simp [run]

@[simp] theorem close_current (state : State) : state.close.current = state.current := by
  unfold close
  split <;> rfl

@[simp] theorem close_heading (state : State) : state.close.heading = state.heading := by
  unfold close
  split <;> rfl

@[simp] theorem close_ongoing (state : State) : state.close.ongoing = none := by
  unfold close
  split
  · assumption
  · rfl

/-- Without an open statement there is nothing to end. -/
theorem close_eq_self {state : State} (h : state.ongoing = none) : state.close = state := by
  unfold close
  rw [h]

/-- A line that does not continue a statement ends it and is taken by its kind. -/
theorem step_of_not_continues (state : State) {line : List Char}
    (h : continues (Text.trim line) = false) :
    state.step line = state.close.enter (Line.ofTrimmed (Text.trim line)) (Text.trim line) := by
  have hother : Line.ofTrimmed (Text.trim line) ≠ .other := by
    intro heq
    rw [Line.ofTrimmed_eq_other_iff, h] at heq
    contradiction
  unfold step
  dsimp only
  split
  · contradiction
  · rfl

/-- A line that continues a statement is taken by the open one. -/
theorem step_of_continues {state : State} {statement : Ongoing} {line : List Char}
    (hopen : state.ongoing = some statement) (h : continues (Text.trim line) = true) :
    state.step line = state.continueWith statement (Text.trim line) := by
  unfold step
  dsimp only
  rw [(Line.ofTrimmed_eq_other_iff _).mpr h, hopen]

/-- A line that continues a statement does nothing where no statement is open. -/
theorem step_of_closed_of_continues {state : State} {line : List Char}
    (hclosed : state.ongoing = none) (h : continues (Text.trim line) = true) :
    state.step line = state := by
  unfold step
  dsimp only
  rw [(Line.ofTrimmed_eq_other_iff _).mpr h, hclosed]
  exact close_eq_self hclosed

/-- Where no statement is open a line is taken by its kind. -/
theorem step_of_closed {state : State} (hclosed : state.ongoing = none) (line : List Char) :
    state.step line = state.enter (Line.ofTrimmed (Text.trim line)) (Text.trim line) := by
  cases h : continues (Text.trim line) with
  | false => rw [step_of_not_continues state h, close_eq_self hclosed]
  | true =>
      rw [step_of_closed_of_continues hclosed h, (Line.ofTrimmed_eq_other_iff _).mpr h]
      rfl

end State

/-! ## Outlines -/

/-- The parts of a state that decide which statements a line may open. -/
structure Outline where
  names : List String
  current : Option Nat
  heading : Option String
  deriving DecidableEq

/-- The outline of a state. -/
def State.outline (state : State) : Outline :=
  ⟨state.tables.map Table.name, state.current, state.heading⟩

/-- Some names with one more, unless it is among them when case is ignored. -/
def addName (names : List String) (name : String) : List String :=
  if names.any (fun known => lowerName known = lowerName name) then names else names ++ [name]

/-- The place of the first of some names that is a name when case is ignored. -/
def placeOf? (names : List String) (name : String) : Option Nat :=
  names.findIdx? fun known => lowerName known = lowerName name

/-- What a line of a kind does to an outline. -/
def Outline.enter (outline : Outline) : Line → Outline
  | .blank => { outline with heading := none }
  | .comment text =>
    if text.any (· != '-') then { outline with heading := some (String.ofList text) } else outline
  | .table name =>
    ⟨addName outline.names name,
      some ((placeOf? outline.names name).getD outline.names.length), none⟩
  | .field _ => if outline.current.isNone then outline else { outline with heading := none }
  | .definition => outline
  | .other => outline

/-- Looking a table up by name needs its name only. -/
theorem indexOf_eq_placeOf (tables : List Table) (name : String) :
    Table.indexOf? tables name = placeOf? (tables.map Table.name) name := by
  simp only [Table.indexOf?, placeOf?, List.findIdx?_map]
  rfl

/-- A name has a place exactly when it is there. -/
theorem isNone_placeOf_iff (names : List String) (name : String) :
    placeOf? names name = none ↔
      names.any (fun known => lowerName known = lowerName name) = false := by
  simp [placeOf?, List.findIdx?_eq_none_iff]

/-- Changing a table in place without renaming it leaves the names alone. -/
theorem map_name_modify (tables : List Table) (index : Nat) (change : Table → Table)
    (hname : ∀ table, (change table).name = table.name) :
    (tables.modify index change).map Table.name = tables.map Table.name := by
  induction tables generalizing index with
  | nil => simp
  | cons table tables ih =>
      cases index with
      | zero => simp [hname]
      | succ index => simp [ih]

@[simp] theorem describeTable_name (fallback : Option String) (table : Table) :
    (describeTable fallback table).name = table.name := rfl

@[simp] theorem describeTable_fields (fallback : Option String) (table : Table) :
    (describeTable fallback table).fields = table.fields := rfl

@[simp] theorem withField_name (table : Table) (field : Field) :
    (table.withField field).name = table.name := rfl

/-- Declaring a table adds its name to the names of the tables. -/
theorem map_name_declareTable (tables : List Table) (name : String)
    (description : Option String) :
    (declareTable tables name description).1.map Table.name =
      addName (tables.map Table.name) name := by
  unfold declareTable addName
  rw [indexOf_eq_placeOf]
  cases hplace : placeOf? (tables.map Table.name) name with
  | none => simp only [(isNone_placeOf_iff _ _).mp hplace]; simp
  | some index =>
      have hknown : (tables.map Table.name).any
          (fun known => lowerName known = lowerName name) = true := by
        by_contra hno
        rw [(isNone_placeOf_iff _ _).mpr (by simpa using hno)] at hplace
        contradiction
      rw [if_pos hknown]
      exact map_name_modify _ _ _ fun _ => rfl

/-- Declaring a table gives the place of its name. -/
theorem declareTable_snd (tables : List Table) (name : String) (description : Option String) :
    (declareTable tables name description).2 =
      (placeOf? (tables.map Table.name) name).getD (tables.map Table.name).length := by
  unfold declareTable
  rw [indexOf_eq_placeOf]
  cases placeOf? (tables.map Table.name) name with
  | none => simp
  | some index => rfl

/-- Ending a statement does not rename tables. -/
theorem map_name_apply (statement : Ongoing) (tables : List Table) :
    (statement.apply tables).map Table.name = tables.map Table.name := by
  apply map_name_modify
  intro table
  cases statement.field <;> rfl

namespace State

/-- Ending a statement leaves the outline alone. -/
@[simp] theorem outline_close (state : State) : state.close.outline = state.outline := by
  unfold close
  split
  · rfl
  · simp [outline, map_name_apply]

/-- Continuing a statement leaves the outline alone. -/
theorem outline_continueWith (state : State) (statement : Ongoing) (line : List Char) :
    (state.continueWith statement line).outline = state.outline := by
  unfold continueWith
  cases statement.field with
  | some field =>
      dsimp only
      split
      · rw [outline_close]
        rfl
      · rfl
  | none =>
      have hnames := map_name_modify state.tables statement.table
        (describeTable ((comment? line).map String.ofList)) (describeTable_name _)
      dsimp only
      split
      · rw [outline_close]
        simp [outline, hnames]
      · simp [outline, hnames]

/-- Defining a table is declaring it and opening its statement, which may end at once. -/
theorem defineTable_eq (state : State) (name : String) (line : List Char) :
    state.defineTable name line =
      let declared := declareTable state.tables name ((comment? line).map String.ofList)
      if isTerminated line then
        close ⟨declared.1, some declared.2, none, some ⟨declared.2, none, state.heading⟩⟩
      else ⟨declared.1, some declared.2, none, some ⟨declared.2, none, state.heading⟩⟩ := rfl

/-- Declaring a table adds its name and makes it the current table. -/
theorem outline_defineTable (state : State) (name : String) (line : List Char) :
    (state.defineTable name line).outline = state.outline.enter (.table name) := by
  have hnames := map_name_declareTable state.tables name ((comment? line).map String.ofList)
  have hindex := declareTable_snd state.tables name ((comment? line).map String.ofList)
  rw [defineTable_eq]
  split
  · rw [outline_close]
    simp only [outline, Outline.enter, hnames, hindex]
  · simp only [outline, Outline.enter, hnames, hindex]

/-- Defining a field of a table that is there is opening its statement, which may end at once. -/
theorem defineField_of_indexOf_eq_some {state : State} {owner : String} {index : Nat}
    (hindex : Table.indexOf? state.tables owner = some index) (field : Field) (line : List Char) :
    state.defineField owner field line =
      if isTerminated line then
        close ⟨state.tables, state.current, none, some ⟨index, some field, state.heading⟩⟩
      else ⟨state.tables, state.current, none, some ⟨index, some field, state.heading⟩⟩ := by
  unfold defineField
  rw [hindex]

/-- A field of a table that is not there is dropped. -/
theorem defineField_of_indexOf_eq_none {state : State} {owner : String}
    (hindex : Table.indexOf? state.tables owner = none) (field : Field) (line : List Char) :
    state.defineField owner field line = { state with heading := none } := by
  unfold defineField
  rw [hindex]

/-- Once a table is current, a line that defines a field is taken as such. -/
theorem enter_field_of_current {state : State} {current : Nat}
    (hcurrent : state.current = some current) (owner : String) (field : Field) (line : List Char) :
    state.enter (.field (some (owner, field))) line = state.defineField owner field line := by
  unfold enter
  rw [hcurrent]
  rfl

/-- A line that defines neither a table nor a field changes the heading at most. -/
theorem enter_eq_reheaded (state : State) {kind : Line} (line : List Char)
    (htable : ∀ name, kind ≠ .table name)
    (hfield : ∀ definition, kind ≠ .field (some definition)) :
    ∃ heading, state.enter kind line = { state with heading := heading } := by
  cases kind with
  | blank => exact ⟨none, rfl⟩
  | comment text =>
      unfold enter
      dsimp only
      split
      · exact ⟨_, rfl⟩
      · exact ⟨state.heading, rfl⟩
  | table name => exact absurd rfl (htable name)
  | field definition =>
      cases definition with
      | some definition => exact absurd rfl (hfield definition)
      | none =>
          unfold enter
          dsimp only
          split
          · exact ⟨state.heading, rfl⟩
          · exact ⟨none, rfl⟩
  | definition => exact ⟨state.heading, rfl⟩
  | other => exact ⟨state.heading, rfl⟩

/-- A step on a line that defines neither a table nor a field changes the heading at most. -/
theorem step_eq_reheaded {state : State} (hclosed : state.ongoing = none) {line : List Char}
    (htable : definedTable? (Text.trim line) = none)
    (hfield : definedField? (Text.trim line) = none) :
    ∃ heading, state.step line = { state with heading := heading } := by
  rw [step_of_closed hclosed]
  apply enter_eq_reheaded
  · intro name hkind
    rw [Line.ofTrimmed_eq_table_iff, htable] at hkind
    contradiction
  · intro definition hkind
    rw [Line.ofTrimmed_eq_field_iff (Text.trimmed_trim line), hfield] at hkind
    contradiction

/-- A line that defines a field uses the heading up, whether or not its table is known. -/
theorem outline_defineField (state : State) (table : String) (field : Field) (line : List Char) :
    (state.defineField table field line).outline = { state.outline with heading := none } := by
  unfold defineField
  split
  · rfl
  · dsimp only
    split
    · rw [outline_close]
      rfl
    · rfl

/-- What a line of a kind does to the outline of a state. -/
theorem outline_enter (state : State) (kind : Line) (line : List Char) :
    (state.enter kind line).outline = state.outline.enter kind := by
  cases kind with
  | blank => rfl
  | comment text =>
      unfold enter Outline.enter
      dsimp only
      split <;> rfl
  | table name => exact outline_defineTable state name line
  | field definition =>
      unfold enter Outline.enter
      cases hcurrent : state.current with
      | none => simp [outline, hcurrent]
      | some index =>
          cases definition with
          | none => simp [outline, hcurrent]
          | some definition =>
              obtain ⟨table, field⟩ := definition
              have hdefine := outline_defineField state table field line
              simp only [Option.isNone_some, Bool.false_eq_true, if_false, hdefine]
              simp [outline, hcurrent]
  | definition => rfl
  | other => rfl

/-- **A step changes the outline by the kind of the line alone**, whether or not a statement is
open. -/
theorem outline_step (state : State) (line : List Char) :
    (state.step line).outline = state.outline.enter (Line.ofTrimmed (Text.trim line)) := by
  cases h : continues (Text.trim line) with
  | false => rw [step_of_not_continues state h, outline_enter, outline_close]
  | true =>
      rw [(Line.ofTrimmed_eq_other_iff _).mpr h]
      cases hopen : state.ongoing with
      | none => rw [step_of_closed_of_continues hopen h]; rfl
      | some statement =>
          rw [step_of_continues hopen h, outline_continueWith]
          rfl

end State
end Ddl
end SurrealSchema
