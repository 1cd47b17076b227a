import SurrealSchema.Proofs.Ddl.Statements
import SurrealSchema.Proofs.Ddl.Steps

namespace SurrealSchema
namespace Ddl

/-!
# Reading joined items

A document that is joined from items is read item by item.  Between two items no statement is open:
`Rests` says so and names the tables read so far.  `Quiet` items define nothing and leave the tables
alone; an item that is one definition adds a table, or a field to the last table.
-/

namespace State

/-- The state after some items. -/
def read (state : State) (items : List (List Char)) : State :=
  (items.flatMap itemStatements).foldl step state

@[simp] theorem read_nil (state : State) : state.read [] = state := rfl

theorem read_append (state : State) (items more : List (List Char)) :
    state.read (items ++ more) = (state.read items).read more := by
  simp only [read, List.flatMap_append, List.foldl_append]

theorem read_cons (state : State) (item : List Char) (items : List (List Char)) :
    state.read (item :: items) = ((itemStatements item).foldl step state).read items := by
  simp only [read, List.flatMap_cons, List.foldl_append]

theorem read_singleton (state : State) (item : List Char) :
    state.read [item] = (itemStatements item).foldl step state := by
  rw [read_cons, read_nil]

end State

/-! ## Documents -/

/-- A blank line at the end of a document changes no table. -/
theorem State.finish_step_nil (state : State) : (state.step []).finish = state.finish := by
  have hstep : state.step [] = { state.close with heading := none } :=
    step_of_not_continues state (by decide)
  have hclosed : (state.step []).ongoing = none := by
    rw [hstep]
    exact close_ongoing state
  unfold finish
  rw [close_eq_self hclosed, hstep]

/-- **A document of joined items is read item by item.** -/
theorem parse_intercalate {items : List (List Char)}
    (hends : ∀ item ∈ items, Text.EndsInLine item) :
    parse (String.ofList (['\n'].intercalate items)) = (State.initial.read items).finish := by
  have hstatements : items.flatMap itemStatements =
      (items.flatMap Text.itemLines).flatMap statements := by
    unfold itemStatements
    rw [List.flatMap_assoc]
  unfold parse logicalLines State.read
  rw [String.toList_ofList, hstatements]
  rcases Text.lines_intercalate hends with hlines | hlines
  · rw [hlines]
  · have hnil : statements [] = [[]] := rfl
    rw [hlines, List.flatMap_append, List.flatMap_singleton, hnil, List.foldl_append,
      List.foldl_cons, List.foldl_nil, State.finish_step_nil]

/-! ## Items that define nothing -/

/-- Whether no statement of an item defines a table or a field. -/
def Quiet (item : List Char) : Prop :=
  ∀ statement ∈ itemStatements item,
    definedTable? statement = none ∧ definedField? statement = none

instance (item : List Char) : Decidable (Quiet item) :=
  inferInstanceAs (Decidable (∀ statement ∈ itemStatements item,
    definedTable? statement = none ∧ definedField? statement = none))

/-- A comment on a line of its own is quiet. -/
theorem quiet_of_comment {item : List Char} (hunbroken : Text.Unbroken item)
    (htrimmed : Text.Trimmed item) (hcomment : startsComment item = true) : Quiet item := by
  have hdefine : startsWith "DEFINE" item ≠ true := by
    intro hstarts
    rw [(not_comment_of_startsWith_define hstarts).2] at hcomment
    contradiction
  intro statement hmem
  rw [itemStatements_of_comment hunbroken (by rw [hcomment, Bool.or_true]) htrimmed,
    List.mem_singleton] at hmem
  rw [hmem]
  constructor
  · rw [Option.eq_none_iff_forall_ne_some]
    intro name hname
    exact hdefine (startsWith_define_of_definedTable hname)
  · have hparts : fieldParts? item = none := by
      rw [Option.eq_none_iff_forall_ne_some]
      intro parts hparts
      obtain ⟨rest, hrest, -⟩ := Option.bind_eq_some_iff.mp hparts
      rw [Text.trim_eq_self htrimmed] at hrest
      exact hdefine (startsWith_define_of_afterDefine hrest)
    unfold definedField?
    rw [hparts]

/-- No statement is open, the tables are the given ones, and one of them is current if there are
any. -/
structure Rests (state : State) (tables : List Table) : Prop where
  closed : state.ongoing = none
  known : state.tables = tables
  current : tables ≠ [] → state.current ≠ none

theorem rests_initial : Rests State.initial [] where
  closed := rfl
  known := rfl
  current := fun hne => absurd rfl hne

/-- A statement that defines nothing leaves the tables alone. -/
theorem Rests.step_quiet {state : State} {tables : List Table} (h : Rests state tables)
    {statement : List Char} (htrim : Text.trim statement = statement)
    (htable : definedTable? statement = none) (hfield : definedField? statement = none) :
    Rests (state.step statement) tables := by
  rw [← htrim] at htable hfield
  obtain ⟨heading, hsame⟩ := State.step_eq_reheaded h.closed htable hfield
  rw [hsame]
  exact ⟨h.closed, h.known, h.current⟩

/-- **Quiet items leave the tables alone.** -/
theorem Rests.read_quiet {state : State} {tables : List Table} (h : Rests state tables)
    {items : List (List Char)} (hitems : ∀ item ∈ items, Quiet item) :
    Rests (state.read items) tables := by
  have hall : ∀ statement ∈ items.flatMap itemStatements, Text.trim statement = statement ∧
      definedTable? statement = none ∧ definedField? statement = none := by
    intro statement hmem
    obtain ⟨item, hitem, hmem⟩ := List.mem_flatMap.mp hmem
    exact ⟨trim_of_mem_itemStatements hmem, hitems item hitem statement hmem⟩
  unfold State.read
  generalize items.flatMap itemStatements = statements at hall ⊢
  induction statements generalizing state with
  | nil => exact h
  | cons statement statements ih =>
      obtain ⟨htrim, htable, hfield⟩ := hall statement List.mem_cons_self
      exact ih (h.step_quiet htrim htable hfield) fun other hmem =>
        hall other (List.mem_cons_of_mem _ hmem)

/-- A blank item clears the heading. -/
theorem Rests.read_blank {state : State} {tables : List Table} (h : Rests state tables) :
    Rests (state.read [[]]) tables ∧ (state.read [[]]).heading = none := by
  have hstep : state.read [[]] = state.step [] := rfl
  rw [hstep, State.step_of_closed h.closed]
  exact ⟨⟨h.closed, h.known, h.current⟩, rfl⟩

/-! ## Definitions -/

/-- What makes a definition one statement with a semicolon at its end. -/
structure IsOneStatement (text : List Char) : Prop where
  confined : Confined text
  trimmed : Text.Trimmed text
  define : ∃ rest, text = 'D' :: rest

theorem IsOneStatement.itemStatements {text : List Char} (h : IsOneStatement text) :
    itemStatements (terminated text) = [text ++ [';']] := by
  obtain ⟨rest, rfl⟩ := h.define
  refine itemStatements_terminated h.confined (List.cons_ne_nil _ _) h.trimmed ?_
  rw [List.cons_append]
  rfl

theorem IsOneStatement.trimmed_append {text : List Char} (h : IsOneStatement text) :
    Text.Trimmed (text ++ [';']) := by
  have hmem : text ++ [';'] ∈ Ddl.itemStatements (terminated text) := by
    rw [h.itemStatements]
    exact List.mem_cons_self
  rw [← trim_of_mem_itemStatements hmem]
  exact Text.trimmed_trim _

/-- A place among tables with others in front of them is changed behind the others. -/
theorem modify_behind (front tables : List Table) (index : Nat) (change : Table → Table) :
    (front ++ tables).modify (front.length + index) change =
      front ++ tables.modify index change := by
  induction front with
  | nil => simp
  | cons table front ih => simpa [Nat.succ_add] using ih

/-- Changing the last table leaves the others alone. -/
theorem modify_length (tables : List Table) (table : Table) (change : Table → Table) :
    (tables ++ [table]).modify tables.length change = tables ++ [change table] :=
  modify_behind tables [table] 0 change

/-- Only the table at the place is changed. -/
theorem modify_congr {tables : List Table} {index : Nat} {change other : Table → Table}
    (h : ∀ table, tables[index]? = some table → change table = other table) :
    tables.modify index change = tables.modify index other := by
  refine List.ext_getElem? fun place => ?_
  rw [List.getElem?_modify, List.getElem?_modify]
  cases htable : tables[place]? with
  | none => rfl
  | some table =>
      by_cases hindex : index = place
      · subst hindex
        simp [h table htable]
      · simp [hindex]

/-- Two changes of a table in place agree exactly where they agree on that table. -/
theorem modify_eq_modify_iff {tables : List Table} {index : Nat} {table : Table}
    (htable : tables[index]? = some table) (change other : Table → Table) :
    tables.modify index change = tables.modify index other ↔ change table = other table := by
  constructor
  · intro heq
    have hplace := congrArg (·[index]?) heq
    simpa [List.getElem?_modify, htable] using hplace
  · intro heq
    refine modify_congr fun found hfound => ?_
    rw [htable] at hfound
    rw [← Option.some.inj hfound, heq]

/-- A table that is there is changed alike when others are behind it. -/
theorem modify_append_of_lt {tables : List Table} {index : Nat} (hlt : index < tables.length)
    (change : Table → Table) (more : List Table) :
    (tables ++ more).modify index change = tables.modify index change ++ more := by
  induction tables generalizing index with
  | nil => exact absurd hlt (Nat.not_lt_zero _)
  | cons table tables ih =>
      cases index with
      | zero => simp
      | succ index => simpa using ih (Nat.lt_of_succ_lt_succ hlt)

/-- **The definition of a new table adds the table**, with its comment and no fields. -/
theorem Rests.read_table {state : State} {tables : List Table} (h : Rests state tables)
    (hheading : state.heading = none) {text : List Char} (htext : IsOneStatement text)
    {name : String} (hname : definedTable? (text ++ [';']) = some name)
    (hnew : Table.indexOf? tables name = none) :
    Rests (state.read [terminated text])
        (tables ++ [⟨name, (comment? (text ++ [';'])).map String.ofList, []⟩]) ∧
      (state.read [terminated text]).heading = none := by
  have hkind : Line.ofTrimmed (text ++ [';']) = .table name :=
    (Line.ofTrimmed_eq_table_iff _ name).mpr hname
  have hdeclare : ∀ description, declareTable state.tables name description =
      (tables ++ [⟨name, description, []⟩], tables.length) := by
    intro description
    unfold declareTable
    rw [h.known, hnew]
  have hstep : state.read [terminated text] =
      State.close ⟨tables ++ [⟨name, (comment? (text ++ [';'])).map String.ofList, []⟩],
        some tables.length, none, some ⟨tables.length, none, none⟩⟩ := by
    rw [State.read_singleton, htext.itemStatements, List.foldl_cons, List.foldl_nil,
      State.step_of_closed h.closed, Text.trim_eq_self htext.trimmed_append, hkind]
    show state.defineTable name (text ++ [';']) = _
    rw [State.defineTable_eq, hdeclare, hheading]
    dsimp only
    rw [if_pos (isTerminated_append text)]
  rw [hstep]
  refine ⟨⟨State.close_ongoing _, ?_, fun _ => ?_⟩, State.close_heading _⟩
  · -- The fallback of the statement is the heading, and there is none.
    unfold State.close Ongoing.apply
    dsimp only
    rw [modify_length]
    unfold describeTable
    simp only [Option.or_none]
  · rw [State.close_current]
    exact Option.some_ne_none _

/-- **The definition of a field adds the field to its table**, if it is a line that ends its
statement. -/
theorem Rests.read_field_line {state : State} {tables : List Table} (h : Rests state tables)
    (hheading : state.heading = none) {item line : List Char} (hitem : itemStatements item = [line])
    (htrimmed : Text.Trimmed line) (hends : isTerminated line = true) {owner : String}
    {field : Field} (hfield : definedField? line = some (owner, field)) {index : Nat}
    (hplace : Table.indexOf? tables owner = some index) :
    Rests (state.read [item]) (tables.modify index (·.withField field)) ∧
      (state.read [item]).heading = none := by
  have hkind : Line.ofTrimmed line = .field (some (owner, field)) :=
    (Line.ofTrimmed_eq_field_iff htrimmed _).mpr hfield
  have hne : tables ≠ [] := by
    rintro rfl
    contradiction
  obtain ⟨current, hcurrent⟩ := Option.ne_none_iff_exists'.mp (h.current hne)
  have hindex : Table.indexOf? state.tables owner = some index := by
    rw [h.known]
    exact hplace
  have hstep : state.read [item] =
      State.close ⟨tables, state.current, none, some ⟨index, some field, none⟩⟩ := by
    rw [State.read_singleton, hitem, List.foldl_cons, List.foldl_nil,
      State.step_of_closed h.closed, Text.trim_eq_self htrimmed, hkind,
      State.enter_field_of_current hcurrent, State.defineField_of_indexOf_eq_some hindex,
      if_pos hends, h.known, hheading]
  rw [hstep]
  refine ⟨⟨State.close_ongoing _, ?_, fun _ => ?_⟩, ?_⟩
  · unfold State.close Ongoing.apply describeField
    simp only [Option.or_none]
  · rw [State.close_current, hcurrent]
    exact Option.some_ne_none _
  · rw [State.close_heading]

theorem Rests.read_field_at {state : State} {tables : List Table} (h : Rests state tables)
    (hheading : state.heading = none) {text : List Char} (htext : IsOneStatement text)
    {owner : String} {field : Field}
    (hfield : definedField? (text ++ [';']) = some (owner, field)) {index : Nat}
    (hplace : Table.indexOf? tables owner = some index) :
    Rests (state.read [terminated text]) (tables.modify index (·.withField field)) ∧
      (state.read [terminated text]).heading = none :=
  h.read_field_line hheading htext.itemStatements htext.trimmed_append (isTerminated_append text)
    hfield hplace

/-- The definition of a field of the last table adds the field to it. -/
theorem Rests.read_field {state : State} {tables : List Table} {table : Table}
    (h : Rests state (tables ++ [table])) (hheading : state.heading = none) {text : List Char}
    (htext : IsOneStatement text) {field : Field}
    (hfield : definedField? (text ++ [';']) = some (table.name, field))
    (hplace : Table.indexOf? (tables ++ [table]) table.name = some tables.length) :
    Rests (state.read [terminated text]) (tables ++ [table.withField field]) ∧
      (state.read [terminated text]).heading = none := by
  have hread := h.read_field_at hheading htext hfield hplace
  rwa [modify_length] at hread

/-- The definition of a field of an unknown table leaves the tables alone. -/
theorem Rests.read_field_unknown {state : State} {tables : List Table} (h : Rests state tables)
    (hne : tables ≠ []) {text : List Char} (htext : IsOneStatement text) {owner : String}
    {field : Field} (hfield : definedField? (text ++ [';']) = some (owner, field))
    (hunknown : Table.indexOf? tables owner = none) :
    Rests (state.read [terminated text]) tables := by
  have hkind : Line.ofTrimmed (text ++ [';']) = .field (some (owner, field)) :=
    (Line.ofTrimmed_eq_field_iff htext.trimmed_append _).mpr hfield
  obtain ⟨current, hcurrent⟩ := Option.ne_none_iff_exists'.mp (h.current hne)
  have hindex : Table.indexOf? state.tables owner = none := by
    rw [h.known]
    exact hunknown
  have hstep : state.read [terminated text] = { state with heading := none } := by
    rw [State.read_singleton, htext.itemStatements, List.foldl_cons, List.foldl_nil,
      State.step_of_closed h.closed, Text.trim_eq_self htext.trimmed_append, hkind,
      State.enter_field_of_current hcurrent, State.defineField_of_indexOf_eq_none hindex]
  rw [hstep]
  exact ⟨h.closed, h.known, h.current⟩

/-- The definition of a part of a field leaves the tables alone and brings no heading. -/
theorem Rests.read_part {state : State} {tables : List Table} (h : Rests state tables)
    (hheading : state.heading = none) {text : List Char} (htext : IsOneStatement text)
    (htable : definedTable? (text ++ [';']) = none)
    (hfield : definedField? (text ++ [';']) = none) :
    Rests (state.read [terminated text]) tables ∧
      (state.read [terminated text]).heading = none := by
  have htrim := Text.trim_eq_self htext.trimmed_append
  have hstep : state.read [terminated text] = state.step (text ++ [';']) := by
    rw [State.read_singleton, htext.itemStatements, List.foldl_cons, List.foldl_nil]
  rw [hstep]
  refine ⟨h.step_quiet htrim htable hfield, ?_⟩
  rw [State.step_of_closed h.closed, htrim]
  cases hkind : Line.ofTrimmed (text ++ [';']) with
  | blank => rfl
  | comment heading =>
      obtain ⟨rest, rfl⟩ := htext.define
      rw [List.cons_append, Line.ofTrimmed_of_not_comment (List.cons_ne_nil _ _) rfl] at hkind
      split at hkind
      · contradiction
      · split at hkind
        · contradiction
        · split at hkind <;> contradiction
  | table name =>
      rw [Line.ofTrimmed_eq_table_iff, htable] at hkind
      contradiction
  | field definition =>
      cases definition with
      | some definition =>
          rw [Line.ofTrimmed_eq_field_iff htext.trimmed_append, hfield] at hkind
          contradiction
      | none =>
          unfold State.enter
          dsimp only
          split
          · exact hheading
          · rfl
  | definition => exact hheading
  | other => exact hheading

end Ddl
end SurrealSchema
