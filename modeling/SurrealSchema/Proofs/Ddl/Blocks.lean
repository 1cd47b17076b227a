import SurrealSchema.Entries
import SurrealSchema.Proofs.Ddl.Steps

namespace SurrealSchema
namespace Ddl

/-!
# Blocks

A document read by blocks instead of line by line.  A field block is a line that defines a field of
a table declared above it, together with the lines that continue it; the block is read at once, and
the fields of a table are the fields of its blocks as ordered entries.

Main statement: `fields_finish_run_eq_blockReading`.  The step-by-step reading, which keeps a
statement open and merges one clause after the other into it, gives every table exactly these
fields.

The clauses of a block's first line are what follows the name of its table there.  Reading the whole
first line instead is something else: a field may be called `DEFAULT`, and
`not_fields_eq_wholeLineReading` is a document on which that reading goes wrong.
-/

/-! ## The reference reading -/

/-- The lines that continue a statement, without blanks around them: up to the first that does not,
and no further than the first that ends the statement. -/
def continuation : List (List Char) → List (List Char)
  | [] => []
  | line :: lines =>
    let text := Text.trim line
    if continues text then text :: (if isTerminated text then [] else continuation lines) else []

/-- The lines that belong to a statement behind its first line. -/
def furtherLines (first : List Char) (rest : List (List Char)) : List (List Char) :=
  if isTerminated first then [] else continuation rest

/-- The names that some lines declare tables under: the first spelling of each, in order. -/
def declaredNames (lines : List (List Char)) : List String :=
  (lines.filterMap fun line => definedTable? (Text.trim line)).foldl addName []

/-- A field block: its first line and what that line names, the heading it found, and its further
lines. -/
structure Block where
  first : List Char
  parts : FieldParts
  heading : Option String
  further : List (List Char)

/-- The block that starts at a line, given the lines before and behind it. -/
def blockAt? (before : List (List Char)) (line : List Char) (rest : List (List Char)) :
    Option Block :=
  match fieldParts? (Text.trim line) with
  | none => none
  | some parts =>
    if isPartName parts.name then none
    else if (placeOf? (declaredNames before) parts.table).isNone then none
    else
      some ⟨Text.trim line, parts, (State.run before).heading, furtherLines (Text.trim line) rest⟩

/-- The blocks among some lines that follow others. -/
def blocksAfter (before : List (List Char)) : List (List Char) → List Block
  | [] => []
  | line :: rest => (blockAt? before line rest).toList ++ blocksAfter (before ++ [line]) rest

/-- Whether a block defines a field of the table of a name. -/
def Block.isOf (name : String) (block : Block) : Bool :=
  lowerName block.parts.table = lowerName name

/-- A block's field, given the texts that its comment and its default are looked for in. -/
def Block.fieldFrom (block : Block) (texts : List (List Char)) : Field :=
  { fieldOfClauses block.parts.name block.parts.clauses with
    description := ((texts.findSome? comment?).map String.ofList).or block.heading
    defaultValue := (texts.findSome? default?).map String.ofList }

/-- A block's field: name, type, marker and pointer come from the first line alone, the comment and
the default from the first of its texts that has one. -/
def Block.field (block : Block) : Field :=
  block.fieldFrom (block.parts.clauses :: block.further)

/-- The fields of the table of a name: its blocks' fields as ordered entries, so that each name is
at its first place with its last field. -/
def fieldsOfBlocks (fieldOf : Block → Field) (blocks : List Block) (name : String) : List Field :=
  Entries.values (Entries.ofList
    ((blocks.filter (Block.isOf name)).map fun block => ((fieldOf block).name, fieldOf block)))

/-- The tables of some lines with their fields, read by blocks. -/
def blockReading (fieldOf : Block → Field) (lines : List (List Char)) :
    List (String × List Field) :=
  (declaredNames lines).map fun name =>
    (name, fieldsOfBlocks fieldOf (blocksAfter [] lines) name)

/-! ## Statements read at once -/

/-- A table described twice is described by the first description there is. -/
theorem describeTable_describeTable (first second : Option String) (table : Table) :
    describeTable second (describeTable first table) = describeTable (first.or second) table := by
  simp [describeTable, Option.or_assoc]

/-- A field that is continued by some lines takes the first comment and the first default among
them, where it has none yet. -/
theorem foldl_continueField (texts : List (List Char)) (field : Field) :
    texts.foldl (fun field text => continueField text field) field =
      { field with
        description := field.description.or ((texts.findSome? comment?).map String.ofList)
        defaultValue := field.defaultValue.or ((texts.findSome? default?).map String.ofList) } := by
  induction texts generalizing field with
  | nil => simp
  | cons text texts ih =>
      rw [List.foldl_cons, ih]
      simp only [continueField, List.findSome?_cons, Option.or_assoc]
      congr 2
      · cases comment? text <;> simp
      · cases default? text <;> simp

/-- A line that continues a statement is the first line of the continuation. -/
theorem continuation_cons_of_continues {line : List Char} (lines : List (List Char))
    (h : continues (Text.trim line) = true) :
    continuation (line :: lines) = Text.trim line :: furtherLines (Text.trim line) lines := by
  unfold continuation furtherLines
  dsimp only
  rw [if_pos h]

/-- A line that does not continue a statement ends the continuation. -/
theorem continuation_cons_of_not_continues {line : List Char} (lines : List (List Char))
    (h : continues (Text.trim line) = false) : continuation (line :: lines) = [] := by
  unfold continuation
  dsimp only
  rw [h, if_neg Bool.false_ne_true]

/-- **A field statement may be ended at once.**  Reading on with a field statement open is the same
as ending it with all the lines that continue it merged in, and reading those lines again where
they do nothing. -/
theorem finish_foldl_of_open_field (lines : List (List Char)) (tables : List Table)
    (current : Option Nat) (heading : Option String) (index : Nat) (field : Field)
    (fallback : Option String) :
    (lines.foldl State.step ⟨tables, current, heading, some ⟨index, some field, fallback⟩⟩).finish =
      (lines.foldl State.step
        ⟨Ongoing.apply ⟨index, some ((continuation lines).foldl
          (fun field text => continueField text field) field), fallback⟩ tables,
          current, heading, none⟩).finish := by
  induction lines generalizing field with
  | nil => rfl
  | cons line lines ih =>
      rw [List.foldl_cons, List.foldl_cons]
      cases hcontinues : continues (Text.trim line) with
      | false =>
          rw [continuation_cons_of_not_continues lines hcontinues,
            State.step_of_not_continues _ hcontinues, State.step_of_not_continues _ hcontinues]
          rfl
      | true =>
          rw [continuation_cons_of_continues lines hcontinues,
            State.step_of_continues rfl hcontinues,
            State.step_of_closed_of_continues rfl hcontinues]
          unfold State.continueWith furtherLines
          dsimp only
          cases isTerminated (Text.trim line) with
          | true => rfl
          | false => exact ih (continueField (Text.trim line) field)

/-- A table statement may be ended at once, too. -/
theorem finish_foldl_of_open_table (lines : List (List Char)) (tables : List Table)
    (current : Option Nat) (heading : Option String) (index : Nat) (fallback : Option String) :
    (lines.foldl State.step ⟨tables, current, heading, some ⟨index, none, fallback⟩⟩).finish =
      (lines.foldl State.step
        ⟨tables.modify index (describeTable
          ((((continuation lines).findSome? comment?).map String.ofList).or fallback)),
          current, heading, none⟩).finish := by
  induction lines generalizing tables with
  | nil => rfl
  | cons line lines ih =>
      rw [List.foldl_cons, List.foldl_cons]
      cases hcontinues : continues (Text.trim line) with
      | false =>
          rw [continuation_cons_of_not_continues lines hcontinues,
            State.step_of_not_continues _ hcontinues, State.step_of_not_continues _ hcontinues]
          rfl
      | true =>
          rw [continuation_cons_of_continues lines hcontinues,
            State.step_of_continues rfl hcontinues,
            State.step_of_closed_of_continues rfl hcontinues]
          -- The comment of this line comes before those of the lines behind it.
          have hmerge : ∀ texts : List (List Char),
              (tables.modify index (describeTable ((comment? (Text.trim line)).map
                String.ofList))).modify index (describeTable
                  (((texts.findSome? comment?).map String.ofList).or fallback)) =
              tables.modify index (describeTable
                (((((Text.trim line) :: texts).findSome? comment?).map String.ofList).or
                  fallback)) := by
            intro texts
            rw [List.modify_modify_eq]
            congr 1
            funext table
            rw [Function.comp_apply, describeTable_describeTable, List.findSome?_cons]
            cases comment? (Text.trim line) <;> rfl
          unfold State.continueWith furtherLines
          dsimp only
          cases isTerminated (Text.trim line) with
          | true =>
              rw [if_pos rfl, if_pos rfl, ← hmerge]
              rfl
          | false =>
              rw [if_neg Bool.false_ne_true, if_neg Bool.false_ne_true, ← hmerge]
              exact ih _

/-- A field statement whose first line has just been read may be ended at once. -/
theorem finish_foldl_of_defineField (first : List Char) (rest : List (List Char))
    (tables : List Table) (current : Option Nat) (heading : Option String) (index : Nat)
    (field : Field) (fallback : Option String) :
    (rest.foldl State.step
      (if isTerminated first then
        State.close ⟨tables, current, heading, some ⟨index, some field, fallback⟩⟩
      else ⟨tables, current, heading, some ⟨index, some field, fallback⟩⟩)).finish =
      (rest.foldl State.step
        ⟨Ongoing.apply ⟨index, some ((furtherLines first rest).foldl
          (fun field text => continueField text field) field), fallback⟩ tables,
          current, heading, none⟩).finish := by
  unfold furtherLines
  cases isTerminated first with
  | true => rfl
  | false => exact finish_foldl_of_open_field rest tables current heading index field fallback

/-- A table statement whose first line has just been read may be ended at once. -/
theorem finish_foldl_of_defineTable (first : List Char) (rest : List (List Char))
    (tables : List Table) (current : Option Nat) (heading : Option String) (index : Nat)
    (fallback : Option String) :
    (rest.foldl State.step
      (if isTerminated first then
        State.close ⟨tables, current, heading, some ⟨index, none, fallback⟩⟩
      else ⟨tables, current, heading, some ⟨index, none, fallback⟩⟩)).finish =
      (rest.foldl State.step
        ⟨tables.modify index (describeTable
          ((((furtherLines first rest).findSome? comment?).map String.ofList).or fallback)),
          current, heading, none⟩).finish := by
  unfold furtherLines
  cases isTerminated first with
  | true => rfl
  | false => exact finish_foldl_of_open_table rest tables current heading index fallback

/-! ## The fields under a name -/

/-- The fields of the first table of a name, case ignored; none if there is no such table. -/
def fieldsUnder (tables : List Table) (name : String) : List Field :=
  ((tables.find? (Table.isNamed name)).map Table.fields).getD []

/-- Changing a table without touching its name and its fields changes no fields. -/
theorem fieldsUnder_modify (tables : List Table) (index : Nat) (change : Table → Table)
    (hname : ∀ table, (change table).name = table.name)
    (hfields : ∀ table, (change table).fields = table.fields) (name : String) :
    fieldsUnder (tables.modify index change) name = fieldsUnder tables name := by
  induction tables generalizing index with
  | nil => simp
  | cons table tables ih =>
      have hnamed : Table.isNamed name (change table) = Table.isNamed name table := by
        simp [Table.isNamed, hname]
      cases index with
      | zero =>
          cases h : Table.isNamed name table <;> simp [fieldsUnder, hnamed, h, hfields]
      | succ index =>
          cases h : Table.isNamed name table with
          | true => simp [fieldsUnder, h]
          | false => simpa [fieldsUnder, h] using ih index

/-- Declaring a table changes no fields. -/
theorem fieldsUnder_declareTable (tables : List Table) (declared : String)
    (description : Option String) (name : String) :
    fieldsUnder (declareTable tables declared description).1 name = fieldsUnder tables name := by
  unfold declareTable
  cases Table.indexOf? tables declared with
  | none =>
      cases hfound : tables.find? (Table.isNamed name) with
      | some table => simp [fieldsUnder, List.find?_append, hfound]
      | none =>
          cases h : Table.isNamed name ⟨declared, description, []⟩ <;>
            simp [fieldsUnder, List.find?_append, hfound, h]
  | some index =>
      apply fieldsUnder_modify
      · intro table
        rfl
      · intro table
        rfl

/-- Adding a field to the table found under a name adds it to the fields under every spelling of
that name and to no others. -/
theorem fieldsUnder_modify_addField {tables : List Table} {owner : String} {index : Nat}
    (howner : Table.indexOf? tables owner = some index) (field : Field) (name : String) :
    fieldsUnder (tables.modify index fun table => table.withField field) name =
      if lowerName owner = lowerName name then Table.addField field (fieldsUnder tables name)
      else fieldsUnder tables name := by
  induction tables generalizing index with
  | nil => simp [Table.indexOf?] at howner
  | cons table tables ih =>
      unfold Table.indexOf? at howner
      rw [List.findIdx?_cons] at howner
      by_cases hfirst : Table.isNamed owner table = true
      · -- The table is the one found: it is under the name exactly when the spellings agree.
        rw [if_pos hfirst] at howner
        obtain rfl := Option.some.inj howner
        have hlower : lowerName table.name = lowerName owner := by
          simpa [Table.isNamed] using hfirst
        by_cases hname : lowerName owner = lowerName name
        · simp [fieldsUnder, Table.isNamed, Table.withField, hlower, hname]
        · simp [fieldsUnder, Table.isNamed, Table.withField, hlower, hname]
      · rw [if_neg hfirst] at howner
        obtain ⟨index, hindex, rfl⟩ := Option.map_eq_some_iff.mp howner
        have hih := ih hindex
        by_cases hnamed : Table.isNamed name table = true
        · have hne : lowerName owner ≠ lowerName name := by
            intro heq
            apply hfirst
            simpa [Table.isNamed, heq] using hnamed
          simp [fieldsUnder, hnamed, hne]
        · simpa [fieldsUnder, hnamed] using hih

/-- Tables whose names differ when case is ignored are given by their names and the fields under
them. -/
theorem map_name_fields_eq (tables : List Table)
    (hdistinct : (tables.map fun table => lowerName table.name).Nodup) :
    tables.map (fun table => (table.name, table.fields)) =
      (tables.map Table.name).map fun name => (name, fieldsUnder tables name) := by
  rw [List.map_map]
  apply List.map_congr_left
  intro table htable
  have hfind : tables.find? (Table.isNamed table.name) = some table := by
    rw [List.find?_eq_some_iff_getElem]
    obtain ⟨place, hplace, rfl⟩ := List.mem_iff_getElem.mp htable
    refine ⟨by simp [Table.isNamed], place, hplace, rfl, ?_⟩
    intro earlier hearlier
    have hne := List.pairwise_iff_getElem.mp hdistinct earlier place
      (by simpa using Nat.lt_trans hearlier hplace) (by simpa using hplace) hearlier
    simpa [Table.isNamed] using hne
  simp [fieldsUnder, hfind]

/-! ## Names of declared tables -/

/-- One more line declares at most one more name. -/
theorem declaredNames_append_singleton (lines : List (List Char)) (line : List Char) :
    declaredNames (lines ++ [line]) =
      match definedTable? (Text.trim line) with
      | none => declaredNames lines
      | some name => addName (declaredNames lines) name := by
  unfold declaredNames
  rw [List.filterMap_append, List.foldl_append]
  cases h : definedTable? (Text.trim line) <;> simp [h]

/-- Adding a name keeps the names distinct when case is ignored. -/
theorem nodup_lowerName_addName {names : List String} (name : String)
    (hdistinct : (names.map lowerName).Nodup) : ((addName names name).map lowerName).Nodup := by
  unfold addName
  split
  · exact hdistinct
  · next hfresh =>
    rw [List.map_append, List.map_singleton, List.nodup_append]
    refine ⟨hdistinct, by simp, ?_⟩
    intro known hknown new hnew
    rw [List.mem_singleton] at hnew
    subst hnew
    obtain ⟨spelling, hmem, rfl⟩ := List.mem_map.mp hknown
    intro heq
    apply hfresh
    rw [List.any_eq_true]
    exact ⟨spelling, hmem, by simpa using heq⟩

/-- The declared names are distinct when case is ignored. -/
theorem nodup_lowerName_declaredNames (lines : List (List Char)) :
    ((declaredNames lines).map lowerName).Nodup := by
  induction lines using List.reverseRecOn with
  | nil => exact List.nodup_nil
  | append_singleton lines line ih =>
      rw [declaredNames_append_singleton]
      cases definedTable? (Text.trim line) with
      | none => exact ih
      | some name => exact nodup_lowerName_addName name ih

/-- Entering a line adds the name that it declares a table under, if it does. -/
theorem names_enter (outline : Outline) (text : List Char) :
    (outline.enter (Line.ofTrimmed text)).names =
      match definedTable? text with
      | none => outline.names
      | some name => addName outline.names name := by
  cases htable : definedTable? text with
  | some name =>
      rw [(Line.ofTrimmed_eq_table_iff text name).mpr htable]
      rfl
  | none =>
      have hkind : ∀ name, Line.ofTrimmed text ≠ .table name := by
        intro name heq
        rw [Line.ofTrimmed_eq_table_iff, htable] at heq
        contradiction
      cases hline : Line.ofTrimmed text with
      | table name => exact absurd hline (hkind name)
      | comment text =>
          unfold Outline.enter
          dsimp only
          split <;> rfl
      | field definition =>
          unfold Outline.enter
          dsimp only
          split <;> rfl
      | _ => rfl

/-- The tables of a reading are the declared ones. -/
theorem names_outline_run (lines : List (List Char)) :
    (State.run lines).outline.names = declaredNames lines := by
  induction lines using List.reverseRecOn with
  | nil => rfl
  | append_singleton lines line ih =>
      rw [State.run_append_singleton, State.outline_step, names_enter,
        declaredNames_append_singleton, ih]

/-- As long as no table is current, none has been declared. -/
theorem names_eq_nil_of_current_eq_none (lines : List (List Char))
    (h : (State.run lines).outline.current = none) : declaredNames lines = [] := by
  induction lines using List.reverseRecOn with
  | nil => rfl
  | append_singleton lines line ih =>
      rw [State.run_append_singleton, State.outline_step] at h
      rw [declaredNames_append_singleton]
      cases htable : definedTable? (Text.trim line) with
      | some name =>
          rw [(Line.ofTrimmed_eq_table_iff _ name).mpr htable] at h
          contradiction
      | none =>
          apply ih
          cases hline : Line.ofTrimmed (Text.trim line) with
          | table name =>
              rw [Line.ofTrimmed_eq_table_iff, htable] at hline
              contradiction
          | comment text =>
              rw [hline] at h
              unfold Outline.enter at h
              dsimp only at h
              split at h <;> exact h
          | field definition =>
              rw [hline] at h
              unfold Outline.enter at h
              dsimp only at h
              split at h <;> exact h
          | _ => rw [hline] at h; exact h

/-! ## One line of the reference reading -/

/-- A definition of a field is its parts, the clauses read into a field. -/
theorem definedField_eq_some_iff (text : List Char) (owner : String) (field : Field) :
    definedField? text = some (owner, field) ↔
      ∃ parts, fieldParts? text = some parts ∧ isPartName parts.name = false ∧
        parts.table = owner ∧ fieldOfClauses parts.name parts.clauses = field := by
  unfold definedField?
  cases hparts : fieldParts? text with
  | none => simp
  | some parts =>
      cases hname : isPartName parts.name <;> simp [hname]

/-- A line that defines no field starts no block. -/
theorem blockAt_of_definedField_eq_none {line : List Char}
    (h : definedField? (Text.trim line) = none) (before rest : List (List Char)) :
    blockAt? before line rest = none := by
  unfold blockAt?
  cases hparts : fieldParts? (Text.trim line) with
  | none => rfl
  | some parts =>
      cases hname : isPartName parts.name with
      | true => simp [hname]
      | false => simp [definedField?, hparts, hname] at h

/-- A line that defines a field of a table that is not declared starts no block. -/
theorem blockAt_of_placeOf_eq_none {line : List Char} {owner : String} {field : Field}
    (h : definedField? (Text.trim line) = some (owner, field)) {before : List (List Char)}
    (hplace : placeOf? (declaredNames before) owner = none) (rest : List (List Char)) :
    blockAt? before line rest = none := by
  obtain ⟨parts, hparts, hname, rfl, -⟩ := (definedField_eq_some_iff _ _ _).mp h
  simp [blockAt?, hparts, hname, hplace]

/-- A line that defines a field of a declared table starts a block, whose field is what the
statement comes to when its further lines are merged in one by one. -/
theorem blockAt_of_placeOf_eq_some {line : List Char} {owner : String} {field : Field}
    (h : definedField? (Text.trim line) = some (owner, field)) {before : List (List Char)}
    {index : Nat} (hplace : placeOf? (declaredNames before) owner = some index)
    (rest : List (List Char)) :
    ∃ block, blockAt? before line rest = some block ∧ block.parts.table = owner ∧
      block.field = describeField (State.run before).heading
        ((furtherLines (Text.trim line) rest).foldl
          (fun field text => continueField text field) field) := by
  obtain ⟨parts, hparts, hname, rfl, rfl⟩ := (definedField_eq_some_iff _ _ _).mp h
  refine ⟨⟨Text.trim line, parts, (State.run before).heading,
    furtherLines (Text.trim line) rest⟩, by simp [blockAt?, hparts, hname, hplace], rfl, ?_⟩
  rw [foldl_continueField]
  unfold Block.field Block.fieldFrom describeField
  simp only [fieldOfClauses, List.findSome?_cons]
  congr 2
  · cases comment? parts.clauses <;> rfl
  · cases default? parts.clauses <;> rfl

/-- What a line and its further lines do to a state without an open statement can be done at once:
the state that `settles` them has no open statement either, goes on to the same tables, and has the
fields of the line's block added. -/
structure Settles (before : List (List Char)) (line : List Char) (rest : List (List Char))
    (state settled : State) : Prop where
  closed : settled.ongoing = none
  outline : settled.outline = (state.step line).outline
  finish : (rest.foldl State.step (state.step line)).finish =
    (rest.foldl State.step settled).finish
  fields : ∀ name, fieldsUnder settled.tables name =
    ((blockAt? before line rest).toList.filter (Block.isOf name)).foldl
      (fun fields block => Table.addField block.field fields) (fieldsUnder state.tables name)

/-- A line that defines a table is settled by declaring it with its description. -/
theorem settles_of_table {before : List (List Char)} {line : List Char} {state : State}
    (hclosed : state.ongoing = none) {name : String}
    (hkind : Line.ofTrimmed (Text.trim line) = .table name)
    (hblock : definedField? (Text.trim line) = none) (rest : List (List Char)) :
    ∃ settled, Settles before line rest state settled := by
  obtain ⟨declared, hdeclared⟩ : ∃ declared, declared =
      declareTable state.tables name ((comment? (Text.trim line)).map String.ofList) := ⟨_, rfl⟩
  refine ⟨⟨declared.1.modify declared.2 (describeTable
    ((((furtherLines (Text.trim line) rest).findSome? comment?).map String.ofList).or
      state.heading)), some declared.2, none, none⟩, rfl, ?_, ?_, ?_⟩
  · have hnames := map_name_modify declared.1 declared.2 _ (describeTable_name
      ((((furtherLines (Text.trim line) rest).findSome? comment?).map String.ofList).or
        state.heading))
    rw [State.outline_step, hkind]
    unfold State.outline Outline.enter
    dsimp only
    rw [hnames, hdeclared, map_name_declareTable, declareTable_snd]
  · rw [State.step_of_closed hclosed, hkind]
    unfold State.enter
    dsimp only
    rw [State.defineTable_eq, ← hdeclared]
    exact finish_foldl_of_defineTable (Text.trim line) rest declared.1 (some declared.2) none
      declared.2 state.heading
  · intro owner
    rw [blockAt_of_definedField_eq_none hblock,
      fieldsUnder_modify _ _ _ (describeTable_name _) (describeTable_fields _), hdeclared,
      fieldsUnder_declareTable]
    rfl

/-- A line that defines a field of a declared table is settled by adding its block's field. -/
theorem settles_of_field {before : List (List Char)} {line : List Char} {state : State}
    (hclosed : state.ongoing = none) (houtline : state.outline = (State.run before).outline)
    {owner : String} {field : Field} {current index : Nat}
    (hfield : definedField? (Text.trim line) = some (owner, field))
    (hcurrent : state.current = some current)
    (hplace : placeOf? (declaredNames before) owner = some index) (rest : List (List Char)) :
    ∃ settled, Settles before line rest state settled := by
  have hkind := (Line.ofTrimmed_eq_field_iff (Text.trimmed_trim line) (owner, field)).mpr hfield
  have hindex : Table.indexOf? state.tables owner = some index := by
    rw [indexOf_eq_placeOf, ← hplace, ← names_outline_run, ← houtline]
    rfl
  have hheading : state.heading = (State.run before).heading := congrArg Outline.heading houtline
  obtain ⟨block, hblock, howner, hblockField⟩ := blockAt_of_placeOf_eq_some hfield hplace rest
  refine ⟨⟨state.tables.modify index (fun table => table.withField block.field), state.current,
    none, none⟩, rfl, ?_, ?_, ?_⟩
  · rw [State.outline_step, hkind]
    unfold State.outline Outline.enter
    dsimp only
    rw [map_name_modify _ _ _ (fun table => withField_name table block.field), hcurrent]
    rfl
  · rw [State.step_of_closed hclosed, hkind, State.enter_field_of_current hcurrent,
      State.defineField_of_indexOf_eq_some hindex, finish_foldl_of_defineField, hblockField,
      hheading]
    rfl
  · intro name
    rw [hblock, fieldsUnder_modify_addField hindex]
    by_cases hname : lowerName owner = lowerName name
    · simp [Block.isOf, howner, hname]
    · simp [Block.isOf, howner, hname]

/-- Any other line is settled as soon as it is read. -/
theorem settles_of_unchanged {before : List (List Char)} {line : List Char}
    {rest : List (List Char)} {state : State} (htables : (state.step line).tables = state.tables)
    (hclosed : (state.step line).ongoing = none) (hblock : blockAt? before line rest = none) :
    Settles before line rest state (state.step line) where
  closed := hclosed
  outline := rfl
  finish := rfl
  fields := by
    intro name
    rw [htables, hblock]
    rfl

/-- Every line can be settled. -/
theorem exists_settles (before : List (List Char)) (line : List Char) (rest : List (List Char))
    {state : State} (hclosed : state.ongoing = none)
    (houtline : state.outline = (State.run before).outline) :
    ∃ settled, Settles before line rest state settled := by
  cases hfield : definedField? (Text.trim line) with
  | none =>
      have hblock := blockAt_of_definedField_eq_none hfield before rest
      cases htable : definedTable? (Text.trim line) with
      | some name =>
          have hkind := (Line.ofTrimmed_eq_table_iff (Text.trim line) name).mpr htable
          exact settles_of_table hclosed hkind hfield rest
      | none =>
          obtain ⟨heading, hsame⟩ := State.step_eq_reheaded hclosed htable hfield
          exact ⟨_, settles_of_unchanged (by rw [hsame]) (by rw [hsame, hclosed]) hblock⟩
  | some definition =>
      obtain ⟨owner, field⟩ := definition
      have hstep := State.step_of_closed hclosed line
      rw [(Line.ofTrimmed_eq_field_iff (Text.trimmed_trim line) _).mpr hfield] at hstep
      cases hplace : placeOf? (declaredNames before) owner with
      | none =>
          have hindex : Table.indexOf? state.tables owner = none := by
            rw [indexOf_eq_placeOf, ← hplace, ← names_outline_run, ← houtline]
            rfl
          have hblock := blockAt_of_placeOf_eq_none hfield hplace rest
          cases hcurrent : state.current with
          | none =>
              have hsame : state.step line = state := by
                rw [hstep]
                unfold State.enter
                rw [hcurrent]
                rfl
              exact ⟨_, settles_of_unchanged (by rw [hsame]) (by rw [hsame, hclosed]) hblock⟩
          | some current =>
              rw [State.enter_field_of_current hcurrent,
                State.defineField_of_indexOf_eq_none hindex] at hstep
              exact ⟨_, settles_of_unchanged (by rw [hstep]) (by rw [hstep]; exact hclosed) hblock⟩
      | some index =>
          cases hcurrent : state.current with
          | some current => exact settles_of_field hclosed houtline hfield hcurrent hplace rest
          | none =>
              -- Without a current table nothing is declared yet, so the owner has no place.
              have hnames := names_eq_nil_of_current_eq_none before
                (by rw [← houtline]; exact hcurrent)
              rw [hnames] at hplace
              contradiction

/-! ## The whole document -/

/-- Reading lines from a state without an open statement adds to the fields under each name the
fields of that name's blocks, in order. -/
theorem fields_finish_foldl_step (before lines : List (List Char)) (state : State)
    (hclosed : state.ongoing = none) (houtline : state.outline = (State.run before).outline) :
    (lines.foldl State.step state).finish.map (fun table => (table.name, table.fields)) =
      (declaredNames (before ++ lines)).map fun name =>
        (name, ((blocksAfter before lines).filter (Block.isOf name)).foldl
          (fun fields block => Table.addField block.field fields)
          (fieldsUnder state.tables name)) := by
  induction lines generalizing before state with
  | nil =>
      have hnames : state.tables.map Table.name = declaredNames before := by
        rw [← names_outline_run, ← houtline]
        rfl
      have hdistinct : (state.tables.map fun table => lowerName table.name).Nodup := by
        have hlower := nodup_lowerName_declaredNames before
        rwa [← hnames, List.map_map] at hlower
      rw [List.foldl_nil, List.append_nil, State.finish, State.close_eq_self hclosed,
        map_name_fields_eq state.tables hdistinct, hnames]
      rfl
  | cons line lines ih =>
      obtain ⟨settled, hsettled⟩ := exists_settles before line lines hclosed houtline
      have hnext : settled.outline = (State.run (before ++ [line])).outline := by
        rw [hsettled.outline, State.run_append_singleton, State.outline_step, State.outline_step,
          houtline]
      rw [List.foldl_cons, hsettled.finish, ih (before ++ [line]) _ hsettled.closed hnext,
        List.append_assoc, List.singleton_append]
      apply List.map_congr_left
      intro name _
      rw [blocksAfter, List.filter_append, List.foldl_append, hsettled.fields]

/-- Fields as entries under their own names. -/
def keyed (fields : List Field) : Entries Field :=
  fields.map fun field => (field.name, field)

/-- Declaring a field writes it under its name. -/
theorem keyed_addField (field : Field) (fields : List Field) :
    keyed (Table.addField field fields) = Entries.put field.name field (keyed fields) := by
  induction fields with
  | nil => rfl
  | cons first fields ih =>
      by_cases h : first.name = field.name
      · simp [keyed, Table.addField, Entries.put, h]
      · simpa [keyed, Table.addField, Entries.put, h] using ih

/-- Declaring fields one after the other writes them one after the other. -/
theorem keyed_foldl_addField (added fields : List Field) :
    keyed (added.foldl (fun fields field => Table.addField field fields) fields) =
      Entries.putAll (keyed fields) (keyed added) := by
  induction added generalizing fields with
  | nil => rfl
  | cons field added ih =>
      rw [List.foldl_cons, ih, keyed_addField]
      rfl

/-- Fields declared one after the other are the values of ordered entries. -/
theorem foldl_addField_eq_values (added : List Field) :
    added.foldl (fun fields field => Table.addField field fields) [] =
      Entries.values (Entries.ofList (keyed added)) := by
  have hkeyed := congrArg Entries.values (keyed_foldl_addField added [])
  have hvalues : ∀ fields : List Field, Entries.values (keyed fields) = fields := by
    intro fields
    rw [Entries.values, keyed, List.map_map]
    exact List.map_id fields
  rw [hvalues] at hkeyed
  exact hkeyed

/-- **The step-by-step reading is the reading by blocks.**  Whatever lines are read, every table
ends up with the fields of its blocks as ordered entries. -/
theorem fields_finish_run_eq_blockReading (lines : List (List Char)) :
    (State.run lines).finish.map (fun table => (table.name, table.fields)) =
      blockReading Block.field lines := by
  have hfields := fields_finish_foldl_step [] lines State.initial rfl rfl
  rw [List.nil_append] at hfields
  refine hfields.trans ?_
  unfold blockReading fieldsOfBlocks
  apply List.map_congr_left
  intro name _
  have hempty : fieldsUnder State.initial.tables name = [] := rfl
  rw [hempty, ← List.foldl_map (f := Block.field)
    (g := fun fields field => Table.addField field fields), foldl_addField_eq_values, keyed,
    List.map_map]
  rfl

/-- A block's field with the whole first line taken for its clauses. -/
def Block.wholeLineField (block : Block) : Field :=
  block.fieldFrom (block.first :: block.further)

/-- The comment and the default must not be looked for in the whole first line: the name of a field
may be the keyword of a clause. -/
theorem not_fields_eq_wholeLineReading :
    ¬ ∀ lines : List (List Char),
      (State.run lines).finish.map (fun table => (table.name, table.fields)) =
        blockReading Block.wholeLineField lines := by
  intro h
  have hlines := h ["DEFINE TABLE t;".toList, "DEFINE FIELD DEFAULT ON t TYPE string;".toList]
  revert hlines
  decide +kernel

end Ddl
end SurrealSchema
