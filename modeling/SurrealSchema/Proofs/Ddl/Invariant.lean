import SurrealSchema.Proofs.Ddl.Checked
import SurrealSchema.Proofs.TypeExpr.Pointers
import Mathlib.Data.List.TakeWhile

namespace SurrealSchema

/-!
# What holds in every state of a reading

`State.WellFormed` collects what a reading keeps true from line to line: the tables have distinct
names, the places that the state remembers hold tables, a heading is never kept while a statement
is open, and no field, the one of the open statement included, is ill formed.  Each of the ways in
which a line can change the state keeps it, so every state that is reached has it, and no such
state lets a checked reading fail.
-/

/-! ## Fields and tables -/

/-- A field that may stand in a table: its name is that of a whole field, none of its texts is
empty, and it carries a pointer only where its kind points. -/
structure Field.WellFormed (field : Field) : Prop where
  name : ∀ c ∈ field.name.toList, c ≠ '[' ∧ c ≠ '.' ∧ Text.isBlank c = false
  description : field.description ≠ some ""
  defaultValue : field.defaultValue ≠ some ""
  kind_of_reference : field.reference.isSome = true →
    field.kind = Kind.record ∨ field.kind = Kind.references ∨ field.kind = Kind.arrayOfRecord

/-- A table of well formed fields with distinct names and without an empty description. -/
structure Table.WellFormed (table : Table) : Prop where
  description : table.description ≠ some ""
  fieldNames : table.fieldNames.Nodup
  fields : ∀ field ∈ table.fields, field.WellFormed

/-- A text that falls back on another one is empty only if one of the two is. -/
theorem or_ne_empty {first second : Option String} (hfirst : first ≠ some "")
    (hsecond : second ≠ some "") : first.or second ≠ some "" := by
  cases first with
  | none => exact hsecond
  | some text => exact hfirst

theorem Kind.isReference_iff (kind : Kind) :
    kind.isReference = true ↔
      kind = record ∨ kind = references ∨ kind = arrayOfRecord := by
  simp [Kind.isReference, Kind.isCollection]

namespace Table

/-- A field that is declared is one of the fields that were there or the new one. -/
theorem mem_addField {added field : Field} {fields : List Field}
    (h : field ∈ addField added fields) : field = added ∨ field ∈ fields := by
  induction fields with
  | nil => exact Or.inl (List.mem_singleton.mp h)
  | cons first fields ih =>
      unfold addField at h
      split at h
      · rcases List.mem_cons.mp h with rfl | hmem
        · exact Or.inl rfl
        · exact Or.inr (List.mem_cons_of_mem _ hmem)
      · rcases List.mem_cons.mp h with rfl | hmem
        · exact Or.inr List.mem_cons_self
        · rcases ih hmem with rfl | hmem
          · exact Or.inl rfl
          · exact Or.inr (List.mem_cons_of_mem _ hmem)

/-- Declaring a well formed field keeps a table well formed. -/
theorem WellFormed.withField {table : Table} (h : table.WellFormed) {added : Field}
    (hadded : added.WellFormed) : (table.withField added).WellFormed where
  description := h.description
  fieldNames := by
    have hdistinct : (table.fields.map Field.name).Nodup := h.fieldNames
    show ((addField added table.fields).map Field.name).Nodup
    rw [map_name_addField]
    split
    · exact hdistinct
    · next hfresh =>
        rw [List.nodup_append]
        refine ⟨hdistinct, List.nodup_singleton _, ?_⟩
        intro known hknown other hother heq
        rw [List.mem_singleton.mp hother] at heq
        exact hfresh (heq ▸ hknown)
  fields := by
    intro field hmem
    rcases mem_addField hmem with rfl | hmem
    · exact hadded
    · exact h.fields field hmem

/-- A new description that is not empty keeps a table well formed. -/
theorem WellFormed.describe {table : Table} (h : table.WellFormed) {description : Option String}
    (hne : description ≠ some "") :
    ({ table with description := description } : Table).WellFormed :=
  ⟨hne, h.fieldNames, h.fields⟩

end Table

namespace Ddl

/-! ## Texts and fields that are read -/

/-- Where a reader that may skip a word first succeeds, it succeeds at some place. -/
theorem exists_of_behindOptional {α : Type} {word? : List Char → Option (List Char)}
    {read : List Char → Option α} {text : List Char} {found : α}
    (h : behindOptional word? read text = some found) : ∃ rest, read rest = some found := by
  unfold behindOptional at h
  rcases Option.or_eq_some_iff.mp h with hbehind | ⟨-, hhere⟩
  · obtain ⟨rest, -, hread⟩ := Option.bind_eq_some_iff.mp hbehind
    exact ⟨rest, hread⟩
  · exact ⟨text, hhere⟩

/-- A text that is read and filtered for not being empty is not empty. -/
theorem map_ofList_ne_empty {text : Option (List Char)} (hne : text ≠ some []) :
    text.map String.ofList ≠ some "" := by
  intro h
  obtain ⟨chars, hchars, hempty⟩ := Option.map_eq_some_iff.mp h
  have hnil : chars = [] := by
    rw [← String.toList_ofList (l := chars), hempty]
    rfl
  exact hne (hnil ▸ hchars)

theorem filter_not_isEmpty_ne {text : Option (List Char)} :
    text.filter (fun content => !content.isEmpty) ≠ some [] := by
  intro h
  obtain ⟨-, hfilter⟩ := Option.filter_eq_some_iff.mp h
  contradiction

/-- The payload of a comment clause is not empty. -/
theorem comment?_ne_empty (line : List Char) : (comment? line).map String.ofList ≠ some "" := by
  apply map_ofList_ne_empty
  unfold comment?
  split
  · intro h
    contradiction
  · exact filter_not_isEmpty_ne

/-- The expression of a default is not empty. -/
theorem default?_ne_empty (line : List Char) : (default? line).map String.ofList ≠ some "" := by
  apply map_ofList_ne_empty
  unfold default?
  exact filter_not_isEmpty_ne

/-- The name of a field that is read has no blanks. -/
theorem isBlank_of_mem_name {text : List Char} {parts : FieldParts}
    (h : fieldAndTable? text = some parts) : ∀ c ∈ parts.name.toList, Text.isBlank c = false := by
  unfold fieldAndTable? at h
  dsimp only at h
  split at h
  · contradiction
  · obtain ⟨read, -, rfl⟩ := Option.map_eq_some_iff.mp h
    intro c hc
    rw [String.toList_ofList] at hc
    simpa using List.mem_takeWhile_imp hc

/-- Every field that a statement defines is well formed. -/
theorem wellFormed_of_definedField {statement : List Char} {owner : String} {field : Field}
    (h : definedField? statement = some (owner, field)) : field.WellFormed := by
  unfold definedField? at h
  split at h
  · contradiction
  · next parts hparts =>
      obtain ⟨behind, -, hread⟩ := Option.bind_eq_some_iff.mp hparts
      obtain ⟨text, hname⟩ := exists_of_behindOptional hread
      split at h
      · contradiction
      · next hpart =>
          obtain ⟨-, rfl⟩ := Prod.mk.inj (Option.some.inj h)
          constructor
          · intro c hc
            have hwhole : '[' ∉ parts.name.toList ∧ '.' ∉ parts.name.toList := by
              simpa [isPartName] using hpart
            refine ⟨?_, ?_, isBlank_of_mem_name hname c hc⟩
            · rintro rfl
              exact hwhole.1 hc
            · rintro rfl
              exact hwhole.2 hc
          · exact comment?_ne_empty _
          · exact default?_ne_empty _
          · intro hreference
            rw [← Kind.isReference_iff]
            exact Descriptor.pointsByKind_ofTypeText _ hreference

/-- Falling back on a description that is not empty keeps a field well formed. -/
theorem describeField_wellFormed {field : Field} (h : field.WellFormed) {fallback : Option String}
    (hfallback : fallback ≠ some "") : (describeField fallback field).WellFormed :=
  ⟨h.name, or_ne_empty h.description hfallback, h.defaultValue, h.kind_of_reference⟩

/-- A further line keeps the field of a statement well formed. -/
theorem continueField_wellFormed {field : Field} (h : field.WellFormed) (line : List Char) :
    (continueField line field).WellFormed :=
  ⟨h.name, or_ne_empty h.description (comment?_ne_empty line),
    or_ne_empty h.defaultValue (default?_ne_empty line), h.kind_of_reference⟩

/-! ## States -/

/-- An open statement that belongs to one of a number of tables, with a well formed field if it
defines one, and no empty text to fall back on. -/
structure Ongoing.WellFormed (statement : Ongoing) (count : Nat) : Prop where
  table_lt : statement.table < count
  field : ∀ field, statement.field = some field → field.WellFormed
  fallback : statement.fallback ≠ some ""

/-- A state that a reading may reach. -/
structure State.WellFormed (state : State) : Prop where
  names : ((state.tables.map Table.name).map lowerName).Nodup
  tables : ∀ table ∈ state.tables, table.WellFormed
  current_eq_none : state.current = none ↔ state.tables = []
  current_lt : ∀ index, state.current = some index → index < state.tables.length
  heading : state.heading ≠ some ""
  ongoing : ∀ statement, state.ongoing = some statement →
    statement.WellFormed state.tables.length
  heading_or_ongoing : state.heading = none ∨ state.ongoing = none

/-- A table of a list with one table changed is one of the old ones, changed or not. -/
theorem mem_modify {tables : List Table} {index : Nat} {change : Table → Table} {table : Table}
    (h : table ∈ tables.modify index change) :
    ∃ old ∈ tables, table = old ∨ table = change old := by
  obtain ⟨place, hplace⟩ := List.mem_iff_getElem?.mp h
  rw [List.getElem?_modify, Option.map_eq_map, Option.map_eq_some_iff] at hplace
  obtain ⟨old, hold, hchange⟩ := hplace
  refine ⟨old, List.mem_of_getElem? hold, ?_⟩
  split at hchange
  · exact Or.inr hchange.symm
  · exact Or.inl hchange.symm

namespace State

theorem wellFormed_initial : initial.WellFormed where
  names := List.nodup_nil
  tables := by
    intro table hmem
    contradiction
  current_eq_none := ⟨fun _ => rfl, fun _ => rfl⟩
  current_lt := by
    intro index h
    contradiction
  heading := by
    intro h
    contradiction
  ongoing := by
    intro statement h
    contradiction
  heading_or_ongoing := Or.inl rfl

/-- A well formed state remembers the place of a table for its open statement. -/
theorem WellFormed.inRange {state : State} (h : state.WellFormed) : state.InRange := by
  intro statement hopen
  exact (h.ongoing statement hopen).table_lt

/-- Changing a table without renaming or spoiling it keeps a state well formed. -/
theorem WellFormed.modify {state : State} (h : state.WellFormed) (index : Nat)
    {change : Table → Table} (hname : ∀ table, (change table).name = table.name)
    (hchange : ∀ table, table.WellFormed → (change table).WellFormed) :
    ({ state with tables := state.tables.modify index change } : State).WellFormed where
  names := by
    rw [map_name_modify _ _ _ hname]
    exact h.names
  tables := by
    intro table hmem
    obtain ⟨old, hold, rfl | rfl⟩ := mem_modify hmem
    · exact h.tables _ hold
    · exact hchange old (h.tables old hold)
  current_eq_none := by
    rw [h.current_eq_none, ← List.length_eq_zero_iff, ← List.length_eq_zero_iff,
      List.length_modify]
  current_lt := by
    rw [List.length_modify]
    exact h.current_lt
  heading := h.heading
  ongoing := by
    rw [List.length_modify]
    exact h.ongoing
  heading_or_ongoing := h.heading_or_ongoing

/-- What the end of a statement does to its table keeps the table well formed. -/
theorem settle_wellFormed {statement : Ongoing} {count : Nat} (h : statement.WellFormed count)
    {table : Table} (htable : table.WellFormed) : (statement.settle table).WellFormed := by
  unfold Ongoing.settle
  cases hfield : statement.field with
  | none => exact htable.describe (or_ne_empty htable.description h.fallback)
  | some field =>
      exact htable.withField (describeField_wellFormed (h.field field hfield) h.fallback)

/-- Ending the open statement keeps a state well formed. -/
theorem WellFormed.close {state : State} (h : state.WellFormed) : state.close.WellFormed := by
  unfold State.close
  cases hopen : state.ongoing with
  | none => exact h
  | some statement =>
      have hstatement := h.ongoing statement hopen
      have hname : ∀ table, (statement.settle table).name = table.name := by
        intro table
        unfold Ongoing.settle
        cases statement.field <;> rfl
      have hsettle : ∀ table, table.WellFormed → (statement.settle table).WellFormed := by
        intro table htable
        exact settle_wellFormed hstatement htable
      have hmodify := h.modify statement.table hname hsettle
      refine ⟨hmodify.names, hmodify.tables, hmodify.current_eq_none, hmodify.current_lt, h.heading,
        ?_, Or.inr rfl⟩
      intro other hother
      contradiction

/-- A statement that may end at once keeps a state well formed if staying open does. -/
theorem WellFormed.closeIf {state : State} (h : state.WellFormed) (terminated : Bool) :
    (if terminated then state.close else state).WellFormed := by
  split
  · exact h.close
  · exact h

/-- Opening another statement keeps a state well formed. -/
theorem WellFormed.reopen {state : State} (h : state.WellFormed) {statement : Ongoing}
    (hstatement : statement.WellFormed state.tables.length) :
    ({ state with heading := none, ongoing := some statement } : State).WellFormed where
  names := h.names
  tables := h.tables
  current_eq_none := h.current_eq_none
  current_lt := h.current_lt
  heading := by
    intro hempty
    contradiction
  ongoing := by
    intro other hother
    rw [← Option.some.inj hother]
    exact hstatement
  heading_or_ongoing := Or.inl rfl

/-- Another heading keeps a state without an open statement well formed. -/
theorem WellFormed.rehead {state : State} (h : state.WellFormed) (hclosed : state.ongoing = none)
    {heading : Option String} (hne : heading ≠ some "") :
    ({ state with heading := heading } : State).WellFormed :=
  ⟨h.names, h.tables, h.current_eq_none, h.current_lt, hne, h.ongoing, Or.inr hclosed⟩

/-- A line of the open statement keeps a state well formed. -/
theorem WellFormed.continueWith {state : State} (h : state.WellFormed) {statement : Ongoing}
    (hopen : state.ongoing = some statement) (line : List Char) :
    (state.continueWith statement line).WellFormed := by
  have hstatement := h.ongoing statement hopen
  unfold State.continueWith
  cases hfield : statement.field with
  | none =>
      apply WellFormed.closeIf
      apply h.modify
      · exact describeTable_name _
      · intro table htable
        exact htable.describe (or_ne_empty htable.description (comment?_ne_empty line))
  | some field =>
      have hheading : state.heading = none := by
        rcases h.heading_or_ongoing with hnone | hclosed
        · exact hnone
        · rw [hopen] at hclosed
          contradiction
      have hextended : ({ statement with field := some (continueField line field) } :
          Ongoing).WellFormed state.tables.length := by
        refine ⟨hstatement.table_lt, ?_, hstatement.fallback⟩
        intro other hother
        rw [← Option.some.inj hother]
        exact continueField_wellFormed (hstatement.field field hfield) line
      have hreopened := h.reopen hextended
      rw [← hheading] at hreopened
      exact hreopened.closeIf _

/-- A new name stays apart from the known ones when case is ignored. -/
theorem nodup_addName {names : List String} (h : (names.map lowerName).Nodup) (name : String) :
    ((addName names name).map lowerName).Nodup := by
  unfold addName
  split
  · exact h
  · next hfresh =>
      rw [List.map_append, List.nodup_append]
      refine ⟨h, List.nodup_singleton _, ?_⟩
      intro known hknown other hother heq
      obtain ⟨first, hfirst, hlower⟩ := List.mem_map.mp hknown
      apply hfresh
      rw [List.any_eq_true]
      refine ⟨first, hfirst, ?_⟩
      rw [decide_eq_true_eq, hlower, heq]
      exact List.mem_singleton.mp hother

/-- A table that is declared is well formed as soon as the others and its description are. -/
theorem mem_declareTable {tables : List Table} (htables : ∀ table ∈ tables, table.WellFormed)
    (name : String) {description : Option String} (hne : description ≠ some "") :
    ∀ table ∈ (declareTable tables name description).1, table.WellFormed := by
  intro table hmem
  unfold declareTable at hmem
  cases hindex : Table.indexOf? tables name with
  | none =>
      rw [hindex] at hmem
      rcases List.mem_append.mp hmem with hold | hnew
      · exact htables table hold
      · rw [List.mem_singleton.mp hnew]
        refine ⟨hne, List.nodup_nil, ?_⟩
        intro field hfield
        contradiction
  | some index =>
      rw [hindex] at hmem
      obtain ⟨old, hold, rfl | rfl⟩ := mem_modify hmem
      · exact htables _ hold
      · have hsound := htables old hold
        exact hsound.describe (or_ne_empty hne hsound.description)

/-- A line that defines a table keeps a state well formed. -/
theorem WellFormed.defineTable {state : State} (h : state.WellFormed) (name : String)
    (line : List Char) : (state.defineTable name line).WellFormed := by
  have hcomment := comment?_ne_empty line
  have hplace := declareTable_snd_lt state.tables name ((comment? line).map String.ofList)
  rw [defineTable_eq]
  apply WellFormed.closeIf
  constructor
  · rw [map_name_declareTable]
    exact nodup_addName h.names name
  · exact mem_declareTable h.tables name hcomment
  · constructor
    · intro hnone
      contradiction
    · intro hempty
      exact absurd hempty (List.ne_nil_of_length_pos (Nat.zero_lt_of_lt hplace))
  · intro index hindex
    rw [← Option.some.inj hindex]
    exact hplace
  · intro hempty
    contradiction
  · intro statement hopen
    rw [← Option.some.inj hopen]
    refine ⟨hplace, ?_, h.heading⟩
    intro field hfield
    contradiction
  · exact Or.inl rfl

/-- A line that defines a field keeps a state without an open statement well formed. -/
theorem WellFormed.defineField {state : State} (h : state.WellFormed)
    (hclosed : state.ongoing = none) {field : Field} (hfield : field.WellFormed) (owner : String)
    (line : List Char) : (state.defineField owner field line).WellFormed := by
  have hnone : (none : Option String) ≠ some "" := by
    intro hempty
    contradiction
  cases hindex : Table.indexOf? state.tables owner with
  | none =>
      rw [defineField_of_indexOf_eq_none hindex]
      exact h.rehead hclosed hnone
  | some index =>
      rw [defineField_of_indexOf_eq_some hindex]
      apply WellFormed.closeIf
      apply h.reopen
      refine ⟨indexOf?_lt_length hindex, ?_, h.heading⟩
      intro other hother
      rw [← Option.some.inj hother]
      exact hfield

/-- A line that is taken by its kind keeps a state without an open statement well formed. -/
theorem WellFormed.enter {state : State} (h : state.WellFormed) (hclosed : state.ongoing = none)
    {text : List Char} (htrimmed : Text.Trimmed text) :
    (state.enter (Line.ofTrimmed text) text).WellFormed := by
  have hnone : (none : Option String) ≠ some "" := by
    intro hempty
    contradiction
  cases hkind : Line.ofTrimmed text with
  | blank => exact h.rehead hclosed hnone
  | comment content =>
      unfold State.enter
      dsimp only
      split
      · next hany =>
          apply h.rehead hclosed
          have hcontent : some content ≠ some [] := by
            intro hempty
            rw [Option.some.inj hempty] at hany
            contradiction
          exact map_ofList_ne_empty hcontent
      · exact h
  | table name => exact h.defineTable name text
  | field definition =>
      unfold State.enter
      dsimp only
      split
      · exact h
      · cases definition with
        | none => exact h.rehead hclosed hnone
        | some definition =>
            have hdefined := (Line.ofTrimmed_eq_field_iff htrimmed _).mp hkind
            exact h.defineField hclosed (wellFormed_of_definedField hdefined) _ _
  | definition => exact h
  | other => exact h

/-- **Every line keeps a state well formed.** -/
theorem WellFormed.step {state : State} (h : state.WellFormed) (line : List Char) :
    (state.step line).WellFormed := by
  cases hcontinues : continues (Text.trim line) with
  | false =>
      rw [step_of_not_continues state hcontinues]
      exact h.close.enter state.close_ongoing (Text.trimmed_trim line)
  | true =>
      cases hopen : state.ongoing with
      | none =>
          rw [step_of_closed_of_continues hopen hcontinues]
          exact h
      | some statement =>
          rw [step_of_continues hopen hcontinues]
          exact h.continueWith hopen _

/-- Every state that is reached by reading lines is well formed. -/
theorem wellFormed_run (lines : List (List Char)) : (run lines).WellFormed := by
  induction lines using List.reverseRecOn with
  | nil => exact wellFormed_initial
  | append_singleton lines line ih =>
      rw [run_append_singleton]
      exact ih.step line

/-- **What holds whatever has been read.**  The state is well formed, the next line never makes a
checked step fail, and neither does the end of the document. -/
theorem reached_wellFormed_and_never_fails (lines : List (List Char)) :
    (run lines).WellFormed ∧
      (∀ line, (run lines).step? line = some ((run lines).step line)) ∧
      (run lines).finish? = some (run lines).finish := by
  have hreached := wellFormed_run lines
  refine ⟨hreached, ?_, ?_⟩
  · intro line
    exact step?_eq_some hreached.inRange line
  · exact finish?_eq_some hreached.inRange

end State
end Ddl
end SurrealSchema
