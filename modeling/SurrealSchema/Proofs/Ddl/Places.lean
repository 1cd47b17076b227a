import SurrealSchema.Proofs.Ddl.Growth
import SurrealSchema.Proofs.Ddl.Invariant
import SurrealSchema.Proofs.Ddl.Items

namespace SurrealSchema
namespace Ddl

/-!
# The place of a heading

A comment line waits as the heading of a state until a statement takes it as its fallback, and it
becomes a description when that statement ends without one of its own.  `Place` is where its text
stands, and every line moves it.  As nothing else depends on the text, reading with the text in its
place is reading without it and putting it there afterwards.
-/

/-! ## Places -/

/-- Something that has a description: a table by its place, or the field of a name in it. -/
structure Spot where
  index : Nat
  field : Option String
  deriving DecidableEq, Repr

/-- Where the text of a comment line stands. -/
inductive Place where
  /-- Nowhere. -/
  | lost
  /-- It waits for the next statement. -/
  | heading
  /-- It waits for the end of the open statement. -/
  | fallback
  /-- It is a description. -/
  | description (spot : Spot)
  deriving DecidableEq, Repr

/-- Some fields with the first one of a name described by a text. -/
def describeNamed (text name : String) : List Field → List Field
  | [] => []
  | field :: fields =>
    if field.name = name then { field with description := some text } :: fields
    else field :: describeNamed text name fields

namespace Spot

/-- A table with the text as its description or as that of one of its fields. -/
def change (spot : Spot) (text : String) (table : Table) : Table :=
  match spot.field with
  | none => { table with description := some text }
  | some name => { table with fields := describeNamed text name table.fields }

/-- Some tables with a text in a spot. -/
def put (spot : Spot) (text : String) (tables : List Table) : List Table :=
  tables.modify spot.index (spot.change text)

/-- Whether a spot is there. -/
def Known (spot : Spot) (tables : List Table) : Prop :=
  ∃ table, tables[spot.index]? = some table ∧ ∀ name ∈ spot.field, name ∈ table.fieldNames

/-- The text in a spot. -/
def text? (spot : Spot) (tables : List Table) : Option String :=
  (tables[spot.index]?).bind fun table =>
    match spot.field with
    | none => table.description
    | some name => (table.field? name).bind Field.description

end Spot

namespace Place

/-- The spot that the text describes. -/
def spot? : Place → Option Spot
  | description spot => some spot
  | _ => none

/-- Some tables with the text in its place. -/
def inTables (text : String) : Place → List Table → List Table
  | description spot, tables => spot.put text tables
  | _, tables => tables

/-- The heading with the text in its place. -/
def inHeading (text : String) : Place → Option String → Option String
  | heading, _ => some text
  | _, other => other

/-- The open statement with the text in its place. -/
def inStatement (text : String) : Place → Ongoing → Ongoing
  | fallback, statement => { statement with fallback := some text }
  | _, statement => statement

/-- A state with the text in its place. -/
def put (place : Place) (text : String) (state : State) : State :=
  ⟨place.inTables text state.tables, state.current, place.inHeading text state.heading,
    state.ongoing.map (place.inStatement text)⟩

/-- Whether a place is there. -/
def Known (place : Place) (tables : List Table) : Prop :=
  ∀ spot, place = description spot → spot.Known tables

end Place

/-! ## Texts in spots -/

/-- A field that is declared again loses its description. -/
theorem addField_describeNamed_self (text : String) (added : Field) (fields : List Field) :
    Table.addField added (describeNamed text added.name fields) = Table.addField added fields := by
  induction fields with
  | nil => rfl
  | cons field fields ih =>
      unfold describeNamed
      split
      · next hname => simp [Table.addField, hname]
      · next hname => simp [Table.addField, hname, ih]

/-- A field that is declared leaves the descriptions of the others alone. -/
theorem addField_describeNamed (text : String) {name : String} {added : Field}
    (hne : added.name ≠ name) (fields : List Field) :
    Table.addField added (describeNamed text name fields) =
      describeNamed text name (Table.addField added fields) := by
  induction fields with
  | nil => simp [describeNamed, Table.addField, hne]
  | cons field fields ih =>
      by_cases hname : field.name = name
      · simp [describeNamed, Table.addField, hname, Ne.symm hne]
      · by_cases hadded : field.name = added.name
        · simp [describeNamed, Table.addField, hadded, hne]
        · simp [describeNamed, Table.addField, hname, hadded, ih]

/-- Declaring a field with a description is declaring it with any other one and describing it. -/
theorem addField_described (text : String) (added : Field) (fields : List Field) :
    Table.addField { added with description := some text } fields =
      describeNamed text added.name (Table.addField added fields) := by
  induction fields with
  | nil => simp [describeNamed, Table.addField]
  | cons field fields ih =>
      by_cases hname : field.name = added.name
      · simp [describeNamed, Table.addField, hname]
      · simp [describeNamed, Table.addField, hname, ih]

theorem field_describeNamed (text name : String) {fields : List Field}
    (hmem : name ∈ fields.map Field.name) :
    ((describeNamed text name fields).find? fun field => field.name = name).bind
      Field.description = some text := by
  induction fields with
  | nil => exact absurd hmem List.not_mem_nil
  | cons field fields ih =>
      by_cases hname : field.name = name
      · simp [describeNamed, hname]
      · have hrest : name ∈ fields.map Field.name :=
          (List.mem_cons.mp hmem).resolve_left (Ne.symm hname)
        simpa [describeNamed, hname] using ih hrest

namespace Spot

variable (spot : Spot) (text : String)

@[simp] theorem change_name (table : Table) : (spot.change text table).name = table.name := by
  unfold change
  split <;> rfl

theorem map_name_put (tables : List Table) :
    (spot.put text tables).map Table.name = tables.map Table.name :=
  map_name_modify _ _ _ (spot.change_name text)

theorem indexOf_put (tables : List Table) (name : String) :
    Table.indexOf? (spot.put text tables) name = Table.indexOf? tables name := by
  rw [indexOf_eq_placeOf, indexOf_eq_placeOf, map_name_put]

/-- A text in a spot may be put there before or after a change of a table that it survives. -/
theorem put_modify {tables : List Table} {index : Nat} {change : Table → Table}
    (hchange : index = spot.index →
      ∀ table, change (spot.change text table) = spot.change text (change table)) :
    (spot.put text tables).modify index change = spot.put text (tables.modify index change) := by
  unfold put
  by_cases hindex : index = spot.index
  · rw [hindex, List.modify_modify_eq, List.modify_modify_eq]
    exact congrArg (tables.modify spot.index) (funext (hchange hindex))
  · exact List.modify_modify_ne _ _ _ (Ne.symm hindex)

/-- A change of a table may overwrite the text. -/
theorem put_modify_self {tables : List Table} {change : Table → Table}
    (hchange : ∀ table, change (spot.change text table) = change table) :
    (spot.put text tables).modify spot.index change = tables.modify spot.index change := by
  unfold put
  rw [List.modify_modify_eq]
  exact congrArg (tables.modify spot.index) (funext hchange)

variable {spot}

/-- A spot that is there holds the text that is put into it. -/
theorem Known.text_put {tables : List Table} (h : spot.Known tables) :
    spot.text? (spot.put text tables) = some text := by
  obtain ⟨table, htable, hfield⟩ := h
  unfold text? put
  rw [List.getElem?_modify, htable, Option.map_eq_map, Option.map_some, if_pos rfl,
    Option.bind_some]
  unfold change
  cases hspot : spot.field with
  | none => rfl
  | some name => exact field_describeNamed text name (hfield name hspot)

theorem Known.lt {tables : List Table} (h : spot.Known tables) : spot.index < tables.length := by
  obtain ⟨table, htable, -⟩ := h
  exact (List.getElem?_eq_some_iff.mp htable).1

theorem Known.of_extends {before after : List Table} (h : spot.Known before)
    (hextends : Extends before after) : spot.Known after := by
  obtain ⟨table, htable, hfield⟩ := h
  obtain ⟨grown, hgrown, hprefix⟩ := hextends.fieldNames spot.index table htable
  exact ⟨grown, hgrown, fun name hname => hprefix.subset (hfield name hname)⟩

/-- Declaring a table replaces the text if it describes that table and there is a new
description. -/
theorem Known.declareTable_put {tables : List Table} (h : spot.Known tables) (name : String)
    (comment : Option String) :
    declareTable (spot.put text tables) name comment =
      (if Table.indexOf? tables name = some spot.index ∧ spot.field = none ∧ comment.isSome then
        (declareTable tables name comment).1
      else spot.put text (declareTable tables name comment).1,
        (declareTable tables name comment).2) := by
  have hindex := spot.indexOf_put text tables name
  have hlength : (spot.put text tables).length = tables.length := List.length_modify _ _ _
  unfold declareTable
  rw [hindex, hlength]
  cases hfound : Table.indexOf? tables name with
  | none =>
      have hbehind := modify_append_of_lt h.lt (spot.change text) [⟨name, comment, []⟩]
      rw [if_neg (by simp)]
      exact congrArg (·, tables.length) hbehind.symm
  | some index =>
      dsimp only
      split
      · next hself =>
          obtain ⟨hspot, hfield, hsome⟩ := hself
          obtain ⟨own, rfl⟩ := Option.isSome_iff_exists.mp hsome
          obtain rfl := Option.some.inj hspot
          refine congrArg (·, spot.index) (spot.put_modify_self text fun table => ?_)
          simp [change, hfield]
      · next hother =>
          refine congrArg (·, index) (spot.put_modify text fun hspot table => ?_)
          unfold change
          cases hfield : spot.field with
          | some name => rfl
          | none =>
              have hnone : comment = none := by
                rw [← Option.not_isSome_iff_eq_none]
                exact fun hsome => hother ⟨by rw [hspot], hfield, hsome⟩
              rw [hnone]
              rfl

end Spot

theorem Place.indexOf_inTables (text : String) (place : Place) (tables : List Table)
    (name : String) :
    Table.indexOf? (place.inTables text tables) name = Table.indexOf? tables name := by
  cases place with
  | lost => rfl
  | heading => rfl
  | fallback => rfl
  | description spot => exact spot.indexOf_put text tables name

/-! ## The end of a statement -/

/-- The description that a statement gives or finds. -/
def Ongoing.description? (statement : Ongoing) (tables : List Table) : Option String :=
  match statement.field with
  | none => descriptionAt tables statement.table
  | some field => field.description

/-- What a statement describes. -/
def Ongoing.spot (statement : Ongoing) : Spot :=
  ⟨statement.table, statement.field.map Field.name⟩

namespace Place

/-- The place once the open statement has ended: a fallback is used or not, and a field that is
declared again loses its description. -/
def closed (place : Place) (state : State) : Place :=
  match state.ongoing, place with
  | some statement, fallback =>
    if (statement.description? state.tables).isNone then description statement.spot else lost
  | some statement, description spot =>
    if statement.field.isSome ∧ spot = statement.spot then lost else description spot
  | _, _ => place

end Place

namespace Ongoing

variable {statement : Ongoing} (text : String)

/-- The end of a statement leaves a text alone in every other spot than the field that it
declares. -/
theorem settle_change {spot : Spot}
    (hspot : ¬ (statement.field.isSome ∧ spot.field = statement.field.map Field.name))
    (table : Table) :
    statement.settle (spot.change text table) = spot.change text (statement.settle table) := by
  unfold settle Spot.change
  cases hfield : statement.field with
  | none => cases spot.field <;> rfl
  | some field =>
      cases hname : spot.field with
      | none => rfl
      | some name =>
          have hne : field.name ≠ name := by
            rintro rfl
            rw [hfield, hname] at hspot
            exact hspot ⟨rfl, rfl⟩
          dsimp only [Table.withField]
          have hadded : (describeField statement.fallback field).name ≠ name := hne
          rw [addField_describeNamed text hadded]

/-- The field that a statement declares loses the text. -/
theorem settle_change_self (hfield : statement.field.isSome) (table : Table) :
    statement.settle (statement.spot.change text table) = statement.settle table := by
  obtain ⟨field, hfield⟩ := Option.isSome_iff_exists.mp hfield
  unfold settle Spot.change spot
  rw [hfield]
  show (Table.withField _ _) = _
  unfold Table.withField
  dsimp only [Option.map_some]
  have hname : field.name = (describeField statement.fallback field).name := rfl
  rw [hname, addField_describeNamed_self]

/-- **A statement that ends without a description of its own takes its fallback as one.** -/
theorem modify_settle_fallback (statement : Ongoing) (text : String) (tables : List Table) :
    tables.modify statement.table { statement with fallback := some text }.settle =
      if (statement.description? tables).isNone then
        statement.spot.put text (tables.modify statement.table statement.settle)
      else tables.modify statement.table statement.settle := by
  have hput : statement.spot.put text (tables.modify statement.table statement.settle) =
      tables.modify statement.table (statement.spot.change text ∘ statement.settle) :=
    List.modify_modify_eq _ _ _ _
  rw [hput]
  obtain ⟨index, _ | field, fallback⟩ := statement
  · -- A table that has no description yet takes the fallback.
    show tables.modify index (describeTable (some text)) =
      if (descriptionAt tables index).isNone then
        tables.modify index (Spot.change ⟨index, none⟩ text ∘ describeTable fallback)
      else tables.modify index (describeTable fallback)
    split
    · next hnone =>
        refine modify_congr fun table htable => ?_
        have hdescription : table.description = none := by simpa [descriptionAt, htable] using hnone
        simp [describeTable, Spot.change, hdescription]
    · next hsome =>
        refine modify_congr fun table htable => ?_
        have hdescription : table.description ≠ none := by simpa [descriptionAt, htable] using hsome
        obtain ⟨own, hown⟩ := Option.ne_none_iff_exists'.mp hdescription
        simp [describeTable, hown]
  · show tables.modify index (Table.withField · (describeField (some text) field)) =
      if field.description.isNone then
        tables.modify index (Spot.change ⟨index, some field.name⟩ text ∘
          (Table.withField · (describeField fallback field)))
      else tables.modify index (Table.withField · (describeField fallback field))
    split
    · next hnone =>
        refine modify_congr fun table _ => ?_
        have hdescription : field.description = none := by simpa using hnone
        have hfields := addField_described text (describeField fallback field) table.fields
        simpa [Spot.change, Table.withField, describeField, hdescription] using hfields
    · next hsome =>
        refine modify_congr fun table _ => ?_
        have hdescription : field.description ≠ none := by simpa using hsome
        obtain ⟨own, hown⟩ := Option.ne_none_iff_exists'.mp hdescription
        simp [describeField, hown]

end Ongoing

namespace Place

variable {place : Place} (text : String)

/-- **Ending the open statement** with the text in its place. -/
theorem close_put (place : Place) (state : State) :
    (place.put text state).close = (place.closed state).put text state.close := by
  obtain ⟨tables, current, heading, _ | statement⟩ := state
  · cases place <;> rfl
  · have hclose : ∀ other : Ongoing, (State.mk tables current heading (some other)).close =
        ⟨tables.modify other.table other.settle, current, heading, none⟩ := fun _ => rfl
    cases place with
    | lost => rfl
    | heading => rfl
    | fallback =>
        have hsettle := statement.modify_settle_fallback text tables
        show (State.mk tables current heading
          (some { statement with fallback := some text })).close = _
        rw [hclose, hsettle, hclose]
        unfold closed
        dsimp only
        split <;> rfl
    | description spot =>
        show (State.mk (spot.put text tables) current heading (some statement)).close = _
        unfold closed
        rw [hclose]
        dsimp only
        split
        · next hself =>
            obtain ⟨hfield, rfl⟩ := hself
            have hput : (statement.spot.put text tables).modify statement.table statement.settle =
                tables.modify statement.table statement.settle :=
              statement.spot.put_modify_self text (statement.settle_change_self text hfield)
            exact congrArg (State.mk · current heading none) hput
        · next hother =>
            have hput : (spot.put text tables).modify statement.table statement.settle =
                spot.put text (tables.modify statement.table statement.settle) := by
              refine spot.put_modify text fun hindex => statement.settle_change text ?_
              rintro ⟨hfield, hname⟩
              exact hother ⟨hfield, by rw [Ongoing.spot, hindex, ← hname]⟩
            exact congrArg (State.mk · current heading none) hput

/-- The place behind a line that may end the open statement. -/
def closedIf (place : Place) (terminated : Bool) (state : State) : Place :=
  if terminated then place.closed state else place

theorem closeIf_put (place : Place) (terminated : Bool) (state : State) :
    (if terminated then (place.put text state).close else place.put text state) =
      (place.closedIf terminated state).put text (if terminated then state.close else state) := by
  unfold closedIf
  split
  · exact close_put text place state
  · rfl

theorem Known.of_extends {before after : List Table} (h : place.Known before)
    (hextends : Extends before after) : place.Known after :=
  fun spot hspot => (h spot hspot).of_extends hextends

theorem known_heading (tables : List Table) : heading.Known tables :=
  fun _ hspot => nomatch hspot

/-- A text that gets to no other spot is where it was. -/
theorem Known.of_imp {tables : List Table} (h : place.Known tables) {next : Place}
    (hnext : ∀ spot, next = description spot → place = description spot) : next.Known tables :=
  fun spot hspot => h spot (hnext spot hspot)

/-- What an open statement describes is there once it has ended. -/
theorem known_spot {state : State} (hstate : state.InRange) {statement : Ongoing}
    (hopen : state.ongoing = some statement) : statement.spot.Known state.close.tables := by
  have hlt := hstate statement hopen
  rw [State.close_tables hopen]
  refine ⟨statement.settle (state.tables[statement.table]), ?_, ?_⟩
  · show (state.tables.modify statement.table statement.settle)[statement.table]? = _
    rw [List.getElem?_modify, List.getElem?_eq_getElem hlt]
    simp
  · intro name hname
    obtain ⟨field, hfield, rfl⟩ := Option.map_eq_some_iff.mp hname
    unfold Ongoing.settle
    rw [hfield]
    show field.name ∈ (Table.addField _ _).map Field.name
    rw [Table.map_name_addField]
    split
    · assumption
    · exact List.mem_append_right _ List.mem_cons_self

theorem Known.closed {state : State} (h : place.Known state.tables) (hstate : state.InRange) :
    (place.closed state).Known state.close.tables := by
  have hkept : place.Known state.close.tables := h.of_extends state.extends_close
  unfold Place.closed
  cases hopen : state.ongoing with
  | none => exact hkept
  | some statement =>
      cases place with
      | lost => exact hkept
      | heading => exact hkept
      | fallback =>
          dsimp only
          split
          · intro spot hspot
            rw [← description.inj hspot]
            exact known_spot hstate hopen
          · exact fun spot hspot => nomatch hspot
      | description spot =>
          dsimp only
          split
          · exact fun spot hspot => nomatch hspot
          · exact hkept

theorem Known.closedIf {state : State} (h : place.Known state.tables) (hstate : state.InRange)
    (terminated : Bool) : (place.closedIf terminated state).Known
      (if terminated then state.close else state).tables := by
  unfold Place.closedIf
  split
  · exact h.closed hstate
  · exact h

/-! ## Lines -/

/-- A line of the open statement that does not end it leaves the text in its place. -/
theorem extend_put (place : Place) (state : State) (statement : Ongoing) (line : List Char) :
    (place.put text state).extend (place.inStatement text statement) line =
      place.put text (state.extend statement line) := by
  obtain ⟨index, _ | field, fallback⟩ := statement
  · cases place with
    | lost => rfl
    | heading => rfl
    | fallback => rfl
    | description spot =>
        have hput : (spot.put text state.tables).modify index
              (describeTable ((comment? line).map String.ofList)) =
            spot.put text
              (state.tables.modify index (describeTable ((comment? line).map String.ofList))) := by
          refine spot.put_modify text fun _ table => ?_
          unfold Spot.change describeTable
          cases spot.field <;> rfl
        exact congrArg (State.mk · _ _ _) hput
  · cases place <;> rfl

/-- The place once a new heading, a blank line or a dropped field has done away with the heading. -/
def passed : Place → Place
  | heading => lost
  | place => place

/-- The place once a statement has taken the heading. -/
def taken : Place → Place
  | heading => fallback
  | fallback => lost
  | place => place

/-- The place once a line has declared a table, whose description it may replace. -/
def declared (place : Place) (state : State) (name : String) (line : List Char) : Place :=
  match place with
  | description spot =>
    if Table.indexOf? state.tables name = some spot.index ∧ spot.field = none ∧
      (comment? line).isSome then lost else place
  | _ => place.taken

/-- The place after a line that defines a table. -/
def defineTable (place : Place) (state : State) (name : String) (line : List Char) : Place :=
  (place.declared state name line).closedIf (isTerminated line) (state.declared name line)

/-- The place after a line that defines a field. -/
def defineField (place : Place) (state : State) (owner : String) (field : Field)
    (line : List Char) : Place :=
  match Table.indexOf? state.tables owner with
  | none => place.passed
  | some index => place.taken.closedIf (isTerminated line) (state.opened index field)

/-- The place after a line that does not continue a statement. -/
def enter (place : Place) (state : State) (kind : Line) (line : List Char) : Place :=
  match kind with
  | .blank => place.passed
  | .comment text => if text.any (· != '-') then place.passed else place
  | .table name => place.defineTable state name line
  | .field definition =>
    if state.current.isNone then place
    else
      match definition with
      | none => place.passed
      | some (owner, field) => place.defineField state owner field line
  | .definition => place
  | .other => place

/-- The place after a line. -/
def step (place : Place) (state : State) (line : List Char) : Place :=
  let text := Text.trim line
  if continues text then
    match state.ongoing with
    | none => place
    | some statement => place.closedIf (isTerminated text) (state.extend statement text)
  else (place.closed state).enter state.close (Line.ofTrimmed text) text

/-- The place after some lines. -/
def after (place : Place) (state : State) : List (List Char) → Place
  | [] => place
  | line :: lines => (place.step state line).after (state.step line) lines

/-- The place at the end of a document. -/
def atEnd (place : Place) (state : State) (lines : List (List Char)) : Place :=
  (place.after state lines).closed (lines.foldl State.step state)

theorem declared_put {state : State} (h : place.Known state.tables) (name : String)
    (line : List Char) :
    (place.put text state).declared name line =
      (place.declared state name line).put text (state.declared name line) := by
  cases place with
  | lost => rfl
  | heading => rfl
  | fallback => rfl
  | description spot =>
      have hdeclare := (h spot rfl).declareTable_put text name ((comment? line).map String.ofList)
      rw [Option.isSome_map] at hdeclare
      have hdeclared : ∀ other : State, other.declared name line =
          let declaration := declareTable other.tables name ((comment? line).map String.ofList)
          ⟨declaration.1, some declaration.2, none,
            some ⟨declaration.2, none, other.heading⟩⟩ := fun _ => rfl
      have htables : ((description spot).put text state).tables = spot.put text state.tables := rfl
      rw [hdeclared, hdeclared, htables, hdeclare]
      unfold declared
      dsimp only
      split <;> rfl

/-- A line that defines a table with the text in its place. -/
theorem defineTable_put {state : State} (h : place.Known state.tables) (name : String)
    (line : List Char) :
    (place.put text state).defineTable name line =
      (place.defineTable state name line).put text (state.defineTable name line) := by
  have hdeclared := declared_put text h name line
  show (if isTerminated line then ((place.put text state).declared name line).close
    else (place.put text state).declared name line) = _
  rw [hdeclared]
  exact closeIf_put text _ _ _

theorem opened_put (place : Place) (state : State) (index : Nat) (field : Field) :
    (place.put text state).opened index field =
      place.taken.put text (state.opened index field) := by
  cases place <;> rfl

theorem passed_put (place : Place) (state : State) (heading : Option String) :
    ({ place.put text state with heading := heading } : State) =
      place.passed.put text { state with heading := heading } := by
  cases place <;> rfl

/-- A line that defines a field with the text in its place. -/
theorem defineField_put (place : Place) (state : State) (owner : String) (field : Field)
    (line : List Char) :
    (place.put text state).defineField owner field line =
      (place.defineField state owner field line).put text (state.defineField owner field line) := by
  have hput : Table.indexOf? (place.put text state).tables owner =
      Table.indexOf? state.tables owner := indexOf_inTables text place state.tables owner
  unfold defineField
  cases hindex : Table.indexOf? state.tables owner with
  | none =>
      rw [hindex] at hput
      rw [State.defineField_of_indexOf_eq_none hput, State.defineField_of_indexOf_eq_none hindex]
      exact passed_put text place state none
  | some index =>
      rw [hindex] at hput
      rw [State.defineField_of_indexOf_eq_some hput, State.defineField_of_indexOf_eq_some hindex]
      show (if isTerminated line then ((place.put text state).opened index field).close
        else (place.put text state).opened index field) = _
      rw [opened_put]
      exact closeIf_put text _ _ _

/-- **A line that does not continue a statement** with the text in its place. -/
theorem enter_put {state : State} (h : place.Known state.tables) (kind : Line)
    (line : List Char) :
    (place.put text state).enter kind line =
      (place.enter state kind line).put text (state.enter kind line) := by
  cases kind with
  | blank => exact passed_put text place state none
  | comment heading =>
      unfold State.enter enter
      dsimp only
      split
      · exact passed_put text place state _
      · rfl
  | table name => exact defineTable_put text h name line
  | field definition =>
      have hcurrent : (place.put text state).current = state.current := rfl
      unfold State.enter enter
      dsimp only
      rw [hcurrent]
      split
      · rfl
      · obtain _ | ⟨owner, field⟩ := definition
        · exact passed_put text place state none
        · exact defineField_put text place state owner field line
  | definition => rfl
  | other => rfl

section Known

variable {state : State} (h : place.Known state.tables)
include h

theorem Known.passed : place.passed.Known state.tables :=
  h.of_imp fun spot hspot => by cases place <;> first | exact hspot | contradiction

theorem Known.taken : place.taken.Known state.tables :=
  h.of_imp fun spot hspot => by cases place <;> first | exact hspot | contradiction

theorem Known.defineTable (name : String) (line : List Char) :
    (place.defineTable state name line).Known (state.defineTable name line).tables := by
  have hdeclared : (place.declared state name line).Known (state.declared name line).tables := by
    refine (h.of_extends (state.extends_declared name line)).of_imp fun spot hspot => ?_
    cases place with
    | lost => contradiction
    | heading => contradiction
    | fallback => contradiction
    | description other =>
        unfold Place.declared at hspot
        dsimp only at hspot
        split at hspot
        · contradiction
        · exact hspot
  refine hdeclared.closedIf ?_ (isTerminated line)
  intro statement hopen
  rw [← Option.some.inj hopen]
  exact declareTable_snd_lt _ _ _

theorem Known.defineField (owner : String) (field : Field) (line : List Char) :
    (place.defineField state owner field line).Known
      (state.defineField owner field line).tables := by
  unfold Place.defineField
  cases hindex : Table.indexOf? state.tables owner with
  | none =>
      rw [State.defineField_of_indexOf_eq_none hindex]
      exact h.passed
  | some index =>
      have hopened : place.taken.Known (state.opened index field).tables := h.taken
      rw [State.defineField_of_indexOf_eq_some hindex]
      refine hopened.closedIf ?_ (isTerminated line)
      intro statement hopen
      rw [← Option.some.inj hopen]
      exact indexOf?_lt_length hindex

theorem Known.enter (kind : Line) (line : List Char) :
    (place.enter state kind line).Known (state.enter kind line).tables := by
  cases kind with
  | blank => exact h.passed
  | comment heading =>
      unfold Place.enter State.enter
      dsimp only
      split
      · exact h.passed
      · exact h
  | table name => exact h.defineTable name line
  | field definition =>
      unfold Place.enter State.enter
      dsimp only
      split
      · exact h
      · obtain _ | ⟨owner, field⟩ := definition
        · exact h.passed
        · exact h.defineField owner field line
  | definition => exact h
  | other => exact h

end Known

/-- **A step with the text in its place.** -/
theorem step_put {state : State} (h : place.Known state.tables) (hstate : state.InRange)
    (line : List Char) :
    (place.put text state).step line = (place.step state line).put text (state.step line) := by
  unfold step
  dsimp only
  cases hcontinues : continues (Text.trim line) with
  | false =>
      rw [State.step_of_not_continues _ hcontinues, State.step_of_not_continues _ hcontinues,
        close_put, enter_put text (h.closed hstate), if_neg Bool.false_ne_true]
  | true =>
      cases hopen : state.ongoing with
      | none =>
          have hput : (place.put text state).ongoing = none := by rw [put, hopen, Option.map_none]
          rw [State.step_of_closed_of_continues hput hcontinues,
            State.step_of_closed_of_continues hopen hcontinues]
          rfl
      | some statement =>
          have hput : (place.put text state).ongoing = some (place.inStatement text statement) := by
            rw [put, hopen, Option.map_some]
          rw [State.step_of_continues hput hcontinues, State.step_of_continues hopen hcontinues,
            State.continueWith_eq, State.continueWith_eq, extend_put]
          exact closeIf_put text _ _ _

theorem Known.step {state : State} (h : place.Known state.tables) (hstate : state.WellFormed)
    (line : List Char) : (place.step state line).Known (state.step line).tables := by
  unfold Place.step
  dsimp only
  cases hcontinues : continues (Text.trim line) with
  | false =>
      rw [State.step_of_not_continues _ hcontinues, if_neg Bool.false_ne_true]
      exact (h.closed hstate.inRange).enter _ _
  | true =>
      cases hopen : state.ongoing with
      | none =>
          rw [State.step_of_closed_of_continues hopen hcontinues]
          exact h
      | some statement =>
          rw [State.step_of_continues hopen hcontinues, State.continueWith_eq]
          have hextends := state.extends_extend statement (Text.trim line)
          refine (h.of_extends hextends).closedIf ?_ _
          intro extended hextended
          rw [State.ongoing_extend hopen] at hextended
          rw [← Option.some.inj hextended]
          have hlength := hextends.names.length_le
          rw [List.length_map, List.length_map] at hlength
          exact (hstate.inRange statement hopen).trans_le hlength

/-! ## Readings -/

/-- **Some lines with the text in its place.** -/
theorem foldl_step_put {state : State} (h : place.Known state.tables) (hstate : state.WellFormed)
    (lines : List (List Char)) :
    lines.foldl State.step (place.put text state) =
        (place.after state lines).put text (lines.foldl State.step state) ∧
      (place.after state lines).Known (lines.foldl State.step state).tables ∧
      (lines.foldl State.step state).WellFormed := by
  induction lines generalizing place state with
  | nil => exact ⟨rfl, h, hstate⟩
  | cons line lines ih =>
      rw [List.foldl_cons, List.foldl_cons, step_put text h hstate.inRange]
      exact ih (h.step hstate line) (hstate.step line)

/-- **Reading with the text is reading without it and putting it there afterwards**, where it has
got to, which is there. -/
theorem finish_foldl_step_put {state : State} (h : place.Known state.tables)
    (hstate : state.WellFormed) (lines : List (List Char)) :
    (lines.foldl State.step (place.put text state)).finish =
        (place.atEnd state lines).inTables text (lines.foldl State.step state).finish ∧
      (place.atEnd state lines).Known (lines.foldl State.step state).finish := by
  obtain ⟨hfold, hknown, hend⟩ := foldl_step_put text h hstate lines
  refine ⟨?_, hknown.closed hend.inRange⟩
  rw [hfold]
  exact congrArg State.tables (close_put text _ _)

end Place
end Ddl
end SurrealSchema
