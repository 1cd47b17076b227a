import SurrealSchema.Proofs.Ddl.Checked

namespace SurrealSchema

/-!
# Readings that differ in one description

Two readings of which one has `old` for a description where the other one has `new`: that of one
table, that of one field of a table, or that of the field whose statement is open.  Nothing else a
reading does looks at a description, except for whether there is one, so lines that are read by both
never make them differ in anything else.  A later line may overwrite the description, and then the
two agree again.
-/

/-! ## Lists that differ at one place -/

/-- Two lists that are the same except for at most one place, where a relation holds. -/
inductive UpToOne {α : Type} (R : α → α → Prop) : List α → List α → Prop
  | same (items : List α) : UpToOne R items items
  | here {item other : α} (h : R item other) (items : List α) :
      UpToOne R (item :: items) (other :: items)
  | later (item : α) {items others : List α} (h : UpToOne R items others) :
      UpToOne R (item :: items) (item :: others)

namespace UpToOne

variable {α : Type} {R : α → α → Prop} {items others : List α}

/-- What the relation keeps is the same at all places. -/
theorem map_eq {β : Type} {f : α → β} (hf : ∀ item other, R item other → f item = f other)
    (h : UpToOne R items others) : items.map f = others.map f := by
  induction h with
  | same items => rfl
  | here h items => rw [List.map_cons, List.map_cons, hf _ _ h]
  | later item _ ih => rw [List.map_cons, List.map_cons, ih]

theorem append (h : UpToOne R items others) (more : List α) :
    UpToOne R (items ++ more) (others ++ more) := by
  induction h with
  | same items => exact .same _
  | here h items => exact .here h _
  | later item _ ih => exact .later item ih

theorem prepend (front : List α) (h : UpToOne R items others) :
    UpToOne R (front ++ items) (front ++ others) := by
  induction front with
  | nil => exact h
  | cons item front ih => exact .later item ih

/-- A change that respects the relation may be made at any place of both lists. -/
theorem modify {change : α → α}
    (hchange : ∀ item other, R item other → R (change item) (change other))
    (h : UpToOne R items others) (index : Nat) :
    UpToOne R (items.modify index change) (others.modify index change) := by
  induction h generalizing index with
  | same items => exact .same _
  | here h items =>
      cases index with
      | zero => exact .here (hchange _ _ h) items
      | succ index => exact .here h _
  | later item h ih =>
      cases index with
      | zero => exact .later _ h
      | succ index => exact .later item (ih index)

/-- Two changes whose results are related may be made at the same place of one list. -/
theorem modify_apart {change change' : α → α} (hchange : ∀ item, R (change item) (change' item))
    (items : List α) (index : Nat) :
    UpToOne R (items.modify index change) (items.modify index change') := by
  induction items generalizing index with
  | nil =>
      rw [List.modify_nil, List.modify_nil]
      exact .same []
  | cons item items ih =>
      cases index with
      | zero => exact .here (hchange item) items
      | succ index => exact .later item (ih index)

end UpToOne

/-! ## Fields and tables -/

section Reworded

variable {old new : String}

/-- Two fields that are the same except for their descriptions. -/
def Field.Reworded (old new : String) (field other : Field) : Prop :=
  field.description = some old ∧ other = { field with description := some new }

theorem Field.Reworded.name_eq {field other : Field} (h : field.Reworded old new other) :
    field.name = other.name := by
  rw [h.2]

/-- Two tables that are the same except for their descriptions, or for that of one field. -/
inductive Table.Reworded (old new : String) : Table → Table → Prop
  | description (table : Table) (h : table.description = some old) :
      Reworded old new table { table with description := some new }
  | fields (table : Table) {fields : List Field}
      (h : UpToOne (Field.Reworded old new) table.fields fields) :
      Reworded old new table { table with fields := fields }

namespace Table.Reworded

variable {table other : Table}

theorem refl (table : Table) : Table.Reworded old new table table :=
  .fields table (.same table.fields)

theorem name_eq (h : Table.Reworded old new table other) : table.name = other.name := by
  cases h <;> rfl

/-- A description that is there is kept, and one that is not is the same for both. -/
theorem describe (h : Table.Reworded old new table other) (fallback : Option String) :
    Table.Reworded old new (Ddl.describeTable fallback table)
      (Ddl.describeTable fallback other) := by
  cases h with
  | description hold =>
      have hkept : (Ddl.describeTable fallback table).description = some old := by
        simp [Ddl.describeTable, hold]
      exact .description _ hkept
  | fields h => exact .fields _ h

/-- A new description makes up for the difference. -/
theorem redescribe (h : Table.Reworded old new table other) (description : Option String) :
    Table.Reworded old new
      { table with description := description.or table.description }
      { other with description := description.or other.description } := by
  cases h with
  | description hold =>
      cases description with
      | none => exact .description _ hold
      | some text => exact refl _
  | fields h => exact .fields _ h

/-- Tables that get different descriptions differ in them, unless both have one already. -/
theorem describe_apart (table : Table) :
    Table.Reworded old new (Ddl.describeTable (some old) table)
      (Ddl.describeTable (some new) table) := by
  cases hdescription : table.description with
  | none =>
      have hnew : Ddl.describeTable (some new) table =
          { Ddl.describeTable (some old) table with description := some new } := by
        simp [Ddl.describeTable, hdescription]
      rw [hnew]
      exact .description _ (by simp [Ddl.describeTable, hdescription])
  | some text =>
      have hsame : Ddl.describeTable (some new) table = Ddl.describeTable (some old) table := by
        simp [Ddl.describeTable, hdescription]
      rw [hsame]
      exact refl _

end Table.Reworded

/-- Declaring the same field keeps fields the same except for one description. -/
theorem addField_reworded {fields others : List Field}
    (h : UpToOne (Field.Reworded old new) fields others) (added : Field) :
    UpToOne (Field.Reworded old new) (Table.addField added fields)
      (Table.addField added others) := by
  induction h with
  | same fields => exact .same _
  | @here field other h fields =>
      unfold Table.addField
      rw [← h.name_eq]
      split
      · -- The field that differs is replaced, and the difference goes with it.
        exact .same _
      · exact .here h _
  | later field h ih =>
      unfold Table.addField
      split
      · exact .later _ h
      · exact .later _ ih

/-- Declaring fields that differ in their descriptions makes no other difference. -/
theorem addField_apart {field other : Field} (h : field.Reworded old new other)
    (fields : List Field) :
    UpToOne (Field.Reworded old new) (Table.addField field fields)
      (Table.addField other fields) := by
  induction fields with
  | nil => exact .here h []
  | cons first fields ih =>
      unfold Table.addField
      rw [← h.name_eq]
      split
      · exact .here h fields
      · exact .later first ih

theorem Table.Reworded.withField {table other : Table} (h : table.Reworded old new other)
    (added : Field) : (table.withField added).Reworded old new (other.withField added) := by
  cases h with
  | description hold => exact .description (table.withField added) hold
  | fields h => exact .fields (table.withField added) (addField_reworded h added)

theorem Table.Reworded.withField_apart {field other : Field} (h : field.Reworded old new other)
    (table : Table) : (table.withField field).Reworded old new (table.withField other) :=
  .fields (table.withField field) (addField_apart h table.fields)

namespace Ddl

theorem describeField_reworded {field other : Field} (h : field.Reworded old new other)
    (fallback : Option String) :
    (describeField fallback field).Reworded old new (describeField fallback other) := by
  obtain ⟨hold, rfl⟩ := h
  constructor
  · simp [describeField, hold]
  · rfl

theorem continueField_reworded {field other : Field} (h : field.Reworded old new other)
    (line : List Char) :
    (continueField line field).Reworded old new (continueField line other) := by
  obtain ⟨hold, rfl⟩ := h
  constructor
  · simp [continueField, hold]
  · rfl

/-- The end of a statement keeps the difference to one description. -/
theorem settle_reworded (statement : Ongoing) {table other : Table}
    (h : table.Reworded old new other) :
    (statement.settle table).Reworded old new (statement.settle other) := by
  unfold Ongoing.settle
  cases statement.field with
  | none => exact h.describe _
  | some field => exact h.withField _

/-! ## Tables -/

section Tables

variable {tables others : List Table}

theorem indexOf_reworded (h : UpToOne (Table.Reworded old new) tables others) (name : String) :
    Table.indexOf? others name = Table.indexOf? tables name := by
  rw [indexOf_eq_placeOf, indexOf_eq_placeOf, h.map_eq fun _ _ hone => hone.name_eq]

/-- Declaring the same table keeps the difference to one description. -/
theorem declareTable_reworded (h : UpToOne (Table.Reworded old new) tables others) (name : String)
    (description : Option String) :
    UpToOne (Table.Reworded old new) (declareTable tables name description).1
        (declareTable others name description).1 ∧
      (declareTable others name description).2 = (declareTable tables name description).2 := by
  -- A new table is put at the end, so its place is the number of tables.
  have hlength : others.length = tables.length := by
    have hnames : tables.map Table.name = others.map Table.name :=
      h.map_eq fun _ _ hone => hone.name_eq
    have hcount := congrArg List.length hnames
    rw [List.length_map, List.length_map] at hcount
    exact hcount.symm
  unfold declareTable
  rw [indexOf_reworded h]
  cases Table.indexOf? tables name with
  | none => exact ⟨h.append _, hlength⟩
  | some index => exact ⟨h.modify (fun _ _ hone => hone.redescribe description) index, rfl⟩

variable (old new) in
/-- Declaring a table with different descriptions makes no other difference. -/
theorem declareTable_apart (tables : List Table) (name : String) :
    UpToOne (Table.Reworded old new) (declareTable tables name (some old)).1
        (declareTable tables name (some new)).1 ∧
      (declareTable tables name (some new)).2 = (declareTable tables name (some old)).2 := by
  unfold declareTable
  cases Table.indexOf? tables name with
  | none =>
      refine ⟨.prepend tables (.here ?_ []), rfl⟩
      exact .description ⟨name, some old, []⟩ rfl
  | some index =>
      refine ⟨.modify_apart (fun table => ?_) tables index, rfl⟩
      exact .description { table with description := some old } rfl

end Tables

/-! ## States -/

/-- Two states that are the same except for the description of one table, of one field of a table,
or of the field whose statement is open. -/
inductive State.Reworded (old new : String) : State → State → Prop
  | tables (state : State) {tables : List Table}
      (h : UpToOne (Table.Reworded old new) state.tables tables) :
      Reworded old new state { state with tables := tables }
  | ongoing (state : State) {index : Nat} {field other : Field} {fallback : Option String}
      (hopen : state.ongoing = some ⟨index, some field, fallback⟩)
      (h : field.Reworded old new other) :
      Reworded old new state { state with ongoing := some ⟨index, some other, fallback⟩ }

namespace State

variable {state other : State}

theorem Reworded.refl (state : State) : state.Reworded old new state :=
  .tables state (.same state.tables)

/-- Once the open statement has ended, only the tables differ. -/
theorem Reworded.close (h : state.Reworded old new other) :
    ∃ tables, UpToOne (Table.Reworded old new) state.close.tables tables ∧
      other.close = { state.close with tables := tables } := by
  cases h with
  | @tables tables h =>
      rcases Option.eq_none_or_eq_some state.ongoing with hclosed | ⟨statement, hopen⟩
      · have hclosed' : ({ state with tables := tables } : State).ongoing = none := hclosed
        rw [close_eq_self hclosed, close_eq_self hclosed']
        exact ⟨tables, h, rfl⟩
      · unfold State.close
        simp only [hopen]
        exact ⟨_, h.modify (fun _ _ => settle_reworded statement) statement.table, rfl⟩
  | @ongoing index field other fallback hopen h =>
      unfold State.close
      rw [hopen]
      refine ⟨_, ?_, rfl⟩
      exact .modify_apart (fun table => .withField_apart (describeField_reworded h fallback) table)
        state.tables index

theorem Reworded.closeIf (h : state.Reworded old new other) (terminated : Bool) :
    (if terminated then state.close else state).Reworded old new
      (if terminated then other.close else other) := by
  split
  · obtain ⟨tables, htables, heq⟩ := h.close
    rw [heq]
    exact .tables _ htables
  · exact h

/-- A line that continues a statement keeps the difference to one description. -/
theorem continueWith_reworded {tables : List Table}
    (h : UpToOne (Table.Reworded old new) state.tables tables) (statement : Ongoing)
    (line : List Char) :
    (state.continueWith statement line).Reworded old new
      ({ state with tables := tables }.continueWith statement line) := by
  unfold continueWith
  cases statement.field with
  | none =>
      apply Reworded.closeIf
      exact .tables _ (h.modify (fun _ _ hone => hone.describe _) statement.table)
  | some field =>
      apply Reworded.closeIf
      exact .tables _ h

theorem defineTable_reworded {tables : List Table}
    (h : UpToOne (Table.Reworded old new) state.tables tables) (name : String) (line : List Char) :
    (state.defineTable name line).Reworded old new
      ({ state with tables := tables }.defineTable name line) := by
  obtain ⟨hdeclared, hindex⟩ :=
    declareTable_reworded h name ((comment? line).map String.ofList)
  rw [defineTable_eq, defineTable_eq]
  dsimp only
  rw [hindex]
  apply Reworded.closeIf
  exact .tables _ hdeclared

theorem defineField_reworded {tables : List Table}
    (h : UpToOne (Table.Reworded old new) state.tables tables) (owner : String) (field : Field)
    (line : List Char) :
    (state.defineField owner field line).Reworded old new
      ({ state with tables := tables }.defineField owner field line) := by
  have hindex := indexOf_reworded h owner
  unfold defineField
  dsimp only
  rw [hindex]
  cases Table.indexOf? state.tables owner with
  | none => exact .tables _ h
  | some index =>
      apply Reworded.closeIf
      exact .tables _ h

/-- A line that is taken by its kind keeps the difference to one description. -/
theorem enter_reworded {tables : List Table}
    (h : UpToOne (Table.Reworded old new) state.tables tables) (kind : Line) (line : List Char) :
    (state.enter kind line).Reworded old new ({ state with tables := tables }.enter kind line) := by
  cases kind with
  | blank => exact .tables _ h
  | comment text =>
      unfold enter
      dsimp only
      split
      · exact .tables _ h
      · exact .tables _ h
  | table name => exact defineTable_reworded h name line
  | field definition =>
      unfold enter
      dsimp only
      split
      · exact .tables _ h
      · cases definition with
        | none => exact .tables _ h
        | some definition => exact defineField_reworded h _ _ _
  | definition => exact .tables _ h
  | other => exact .tables _ h

/-- **A line that both readings take keeps the difference to one description.** -/
theorem Reworded.step (h : state.Reworded old new other) (line : List Char) :
    (state.step line).Reworded old new (other.step line) := by
  cases hcontinues : continues (Text.trim line) with
  | false =>
      -- Such a line ends the open statement first, and behind that only the tables differ.
      obtain ⟨tables, htables, heq⟩ := h.close
      rw [step_of_not_continues state hcontinues, step_of_not_continues other hcontinues, heq]
      exact enter_reworded htables _ _
  | true =>
      cases h with
      | @tables tables h =>
          have hsame : ({ state with tables := tables } : State).ongoing = state.ongoing := rfl
          rcases Option.eq_none_or_eq_some state.ongoing with hclosed | ⟨statement, hopen⟩
          · rw [step_of_closed_of_continues hclosed hcontinues,
              step_of_closed_of_continues (hsame.trans hclosed) hcontinues]
            exact .tables _ h
          · rw [step_of_continues hopen hcontinues,
              step_of_continues (hsame.trans hopen) hcontinues]
            exact continueWith_reworded h statement _
      | @ongoing index field other fallback hopen h =>
          rw [step_of_continues hopen hcontinues, step_of_continues rfl hcontinues]
          unfold continueWith
          dsimp only
          apply Reworded.closeIf
          exact .ongoing _ rfl (continueField_reworded h _)

theorem Reworded.foldl_step (h : state.Reworded old new other) (lines : List (List Char)) :
    (lines.foldl State.step state).Reworded old new (lines.foldl State.step other) := by
  induction lines generalizing state other with
  | nil => exact h
  | cons line lines ih => exact ih (h.step line)

theorem Reworded.finish (h : state.Reworded old new other) :
    UpToOne (Table.Reworded old new) state.finish other.finish := by
  obtain ⟨tables, htables, heq⟩ := h.close
  unfold State.finish
  rw [heq]
  exact htables

end State

/-! ## Lines that differ in their comments -/

/-- Two kinds of lines that are the same except for the description of a field that they define. -/
inductive Line.Reworded (old new : String) : Line → Line → Prop
  | same (kind : Line) : Reworded old new kind kind
  | field {owner : String} {field other : Field} (h : field.Reworded old new other) :
      Reworded old new (.field (some (owner, field))) (.field (some (owner, other)))

/-- Two lines without blanks around them that say the same except for their comments. -/
structure SameButComment (old new : String) (line other : List Char) : Prop where
  comment : (comment? line).map String.ofList = some old
  comment' : (comment? other).map String.ofList = some new
  default : default? other = default? line
  terminated : isTerminated other = isTerminated line
  kind : (Line.ofTrimmed line).Reworded old new (Line.ofTrimmed other)

/-- Lines that differ in their comments both continue a statement, or neither does. -/
theorem SameButComment.continues_eq {line other : List Char}
    (h : SameButComment old new line other) :
    continues other = continues line := by
  rw [Bool.eq_iff_iff, ← Line.ofTrimmed_eq_other_iff, ← Line.ofTrimmed_eq_other_iff]
  have hkind := h.kind
  generalize Line.ofTrimmed line = kind at hkind ⊢
  generalize Line.ofTrimmed other = kind' at hkind ⊢
  cases hkind <;> simp

namespace State

variable {line other : List Char}

/-- A statement gets what the two lines say, and with it one description at most. -/
theorem continueWith_apart (h : SameButComment old new line other) (state : State)
    (statement : Ongoing) :
    (state.continueWith statement line).Reworded old new
      (state.continueWith statement other) := by
  unfold continueWith
  rw [h.terminated]
  cases statement.field with
  | none =>
      apply Reworded.closeIf
      rw [h.comment, h.comment']
      exact .tables _ (.modify_apart Table.Reworded.describe_apart state.tables statement.table)
  | some field =>
      apply Reworded.closeIf
      cases hdescription : field.description with
      | none =>
          refine .ongoing { state with
            ongoing := some { statement with field := some (continueField line field) } } rfl ?_
          constructor
          · simp [continueField, hdescription, h.comment]
          · simp [continueField, hdescription, h.comment', h.default]
      | some text =>
          -- A field that is described already does not look at the comment.
          have hsame : continueField other field = continueField line field := by
            simp [continueField, hdescription, h.default]
          dsimp only
          rw [hsame]
          exact .refl _

theorem defineTable_apart (h : SameButComment old new line other) (state : State) (name : String) :
    (state.defineTable name line).Reworded old new (state.defineTable name other) := by
  obtain ⟨hdeclared, hindex⟩ := declareTable_apart old new state.tables name
  rw [defineTable_eq, defineTable_eq]
  dsimp only
  rw [h.terminated, h.comment, h.comment', hindex]
  apply Reworded.closeIf
  exact .tables _ hdeclared

theorem defineField_apart (h : SameButComment old new line other) (state : State) (owner : String)
    {field field' : Field} (hfield : field.Reworded old new field') :
    (state.defineField owner field line).Reworded old new
      (state.defineField owner field' other) := by
  unfold defineField
  rw [h.terminated]
  cases Table.indexOf? state.tables owner with
  | none => exact .refl _
  | some index =>
      apply Reworded.closeIf
      exact .ongoing { state with
        heading := none, ongoing := some ⟨index, some field, state.heading⟩ } rfl hfield

/-- A line that defines the same field ends its statement or does not. -/
theorem defineField_congr (h : SameButComment old new line other) (state : State) (owner : String)
    (field : Field) : state.defineField owner field other = state.defineField owner field line := by
  unfold defineField
  rw [h.terminated]

/-- **Lines that differ in their comments make a difference of one description at most.** -/
theorem step_apart (h : SameButComment old new (Text.trim line) (Text.trim other)) (state : State) :
    (state.step line).Reworded old new (state.step other) := by
  cases hcontinues : continues (Text.trim line) with
  | true =>
      have hcontinues' := h.continues_eq.trans hcontinues
      rcases Option.eq_none_or_eq_some state.ongoing with hopen | ⟨statement, hopen⟩
      · rw [step_of_closed_of_continues hopen hcontinues,
          step_of_closed_of_continues hopen hcontinues']
        exact .refl state
      · rw [step_of_continues hopen hcontinues, step_of_continues hopen hcontinues']
        exact continueWith_apart h state statement
  | false =>
      have hcontinues' := h.continues_eq.trans hcontinues
      rw [step_of_not_continues state hcontinues, step_of_not_continues state hcontinues']
      generalize state.close = closed
      have hkind := h.kind
      generalize Line.ofTrimmed (Text.trim line) = kind at hkind ⊢
      generalize Line.ofTrimmed (Text.trim other) = kind' at hkind ⊢
      cases hkind with
      | same =>
          -- Only a definition looks at the line behind its kind.
          cases kind with
          | table name => exact defineTable_apart h closed name
          | field definition =>
              cases definition with
              | none => exact .refl _
              | some definition =>
                  unfold enter
                  dsimp only
                  rw [defineField_congr h]
                  exact .refl _
          | blank | comment _ | definition | other => exact .refl _
      | field hfield =>
          unfold enter
          dsimp only
          split
          · exact .refl closed
          · exact defineField_apart h closed _ hfield

/-- Two documents that differ in the comment of one line give the same tables, except for one
description. -/
theorem finish_run_apart (h : SameButComment old new (Text.trim line) (Text.trim other))
    (before after : List (List Char)) :
    UpToOne (Table.Reworded old new) (run (before ++ line :: after)).finish
      (run (before ++ other :: after)).finish := by
  have hsplit : ∀ middle, run (before ++ middle :: after) =
      after.foldl step ((run before).step middle) := by
    intro middle
    rw [run, List.foldl_append, List.foldl_cons]
    rfl
  rw [hsplit, hsplit]
  exact ((step_apart h (run before)).foldl_step after).finish

end State
end Ddl
end Reworded
end SurrealSchema
