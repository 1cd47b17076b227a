import SurrealSchema.Proofs.Ddl.Blocks
import SurrealSchema.Proofs.Ddl.Items

namespace SurrealSchema
namespace Ddl

/-!
# Documents one behind the other

Two documents with an empty line between them define the tables of the first and, behind these, the
tables of the second, provided that the second names none of the first one's tables and opens with
a table of its own.

The second document is read from a state that is full of the first one's tables.  `State.behind`
puts tables in front of a state and moves the places that the state remembers.  A step on a line
that names none of these tables commutes with it, and so does a whole reading.  What the first
document leaves behind besides its tables does no harm: the empty line ends an open statement and
drops the heading, and the current table is replaced before anything looks at it.
-/

/-! ## Tables in front of others -/

/-- A name that is in front of no table is looked up behind the front. -/
theorem indexOf_behind {front : List Table} {name : String}
    (h : Table.indexOf? front name = none) (tables : List Table) :
    Table.indexOf? (front ++ tables) name =
      (Table.indexOf? tables name).map (front.length + ·) := by
  unfold Table.indexOf? at h ⊢
  rw [List.findIdx?_append, h, Option.none_or]
  congr 1
  funext index
  exact Nat.add_comm index front.length

theorem indexOf_eq_none_iff (tables : List Table) (name : String) :
    Table.indexOf? tables name = none ↔
      ∀ table ∈ tables, lowerName table.name ≠ lowerName name := by
  simp [Table.indexOf?, List.findIdx?_eq_none_iff, Table.isNamed]

/-- Declaring a table that is not in front leaves the front alone. -/
theorem declareTable_behind {front : List Table} {name : String}
    (h : Table.indexOf? front name = none) (tables : List Table) (description : Option String) :
    declareTable (front ++ tables) name description =
      (front ++ (declareTable tables name description).1,
        front.length + (declareTable tables name description).2) := by
  unfold declareTable
  rw [indexOf_behind h]
  cases Table.indexOf? tables name with
  | none => simp
  | some index => simp [modify_behind]

/-! ## Steps behind other tables -/

/-- A statement whose table has others in front of it. -/
def Ongoing.behind (front : List Table) (statement : Ongoing) : Ongoing :=
  { statement with table := front.length + statement.table }

/-- A state with some tables in front of its own. -/
def State.behind (front : List Table) (state : State) : State where
  tables := front ++ state.tables
  current := state.current.map (front.length + ·)
  heading := state.heading
  ongoing := state.ongoing.map (Ongoing.behind front)

/-- Whether a line without blanks around it names none of some tables. -/
structure Avoids (front : List Table) (text : List Char) : Prop where
  table : ∀ name, definedTable? text = some name → Table.indexOf? front name = none
  field : ∀ owner field, definedField? text = some (owner, field) →
    Table.indexOf? front owner = none

namespace State

variable (front : List Table) (state : State)

theorem close_behind : (state.behind front).close = state.close.behind front := by
  rcases state with ⟨tables, current, heading, ongoing⟩
  cases ongoing with
  | none => rfl
  | some statement =>
      simp only [close, behind, Option.map_some, Ongoing.apply, Ongoing.behind, modify_behind]
      rfl

theorem closeIf_behind (terminated : Bool) :
    (if terminated then (state.behind front).close else state.behind front) =
      (if terminated then state.close else state).behind front := by
  cases terminated with
  | true => exact close_behind front state
  | false => rfl

theorem finish_behind : (state.behind front).finish = front ++ state.finish := by
  unfold finish
  rw [close_behind]
  rfl

/-- A line that continues a statement touches the table of that statement only. -/
theorem continueWith_behind (statement : Ongoing) (line : List Char) :
    (state.behind front).continueWith (statement.behind front) line =
      (state.continueWith statement line).behind front := by
  rcases statement with ⟨index, field, fallback⟩
  cases field with
  | none =>
      -- The comment of the line goes to the table, which has its place behind the front.
      have hextended : ({ state.behind front with
          tables := (state.behind front).tables.modify (front.length + index)
            (describeTable ((comment? line).map String.ofList)) } : State) =
          State.behind front { state with
            tables := state.tables.modify index
              (describeTable ((comment? line).map String.ofList)) } := by
        simp only [behind, modify_behind]
      simp only [continueWith, Ongoing.behind]
      rw [hextended, closeIf_behind]
  | some field =>
      -- The field waits in the statement, so no table is touched yet.
      exact closeIf_behind front
        { state with ongoing := some ⟨index, some (continueField line field), fallback⟩ }
        (isTerminated line)

theorem defineTable_behind {front : List Table} {name : String}
    (h : Table.indexOf? front name = none) (line : List Char) :
    (state.behind front).defineTable name line = (state.defineTable name line).behind front := by
  have hdeclare : declareTable (state.behind front).tables name
      ((comment? line).map String.ofList) = _ := declareTable_behind h state.tables _
  rw [defineTable_eq, defineTable_eq, hdeclare]
  generalize declareTable state.tables name ((comment? line).map String.ofList) = declared
  exact closeIf_behind front
    ⟨declared.1, some declared.2, none, some ⟨declared.2, none, state.heading⟩⟩ (isTerminated line)

theorem defineField_behind {front : List Table} {owner : String}
    (h : Table.indexOf? front owner = none) (field : Field) (line : List Char) :
    (state.behind front).defineField owner field line =
      (state.defineField owner field line).behind front := by
  have hplace : Table.indexOf? (state.behind front).tables owner =
      (Table.indexOf? state.tables owner).map (front.length + ·) :=
    indexOf_behind h state.tables
  cases hindex : Table.indexOf? state.tables owner with
  | none =>
      rw [hindex] at hplace
      rw [defineField_of_indexOf_eq_none hindex, defineField_of_indexOf_eq_none hplace]
      rfl
  | some index =>
      rw [hindex] at hplace
      rw [defineField_of_indexOf_eq_some hindex, defineField_of_indexOf_eq_some hplace]
      exact closeIf_behind front
        ⟨state.tables, state.current, none, some ⟨index, some field, state.heading⟩⟩
        (isTerminated line)

/-- A line that names none of the tables in front is taken behind them as without them. -/
theorem enter_behind {front : List Table} {text : List Char} (havoids : Avoids front text)
    (htrimmed : Text.Trimmed text) (line : List Char) :
    (state.behind front).enter (Line.ofTrimmed text) line =
      (state.enter (Line.ofTrimmed text) line).behind front := by
  cases hkind : Line.ofTrimmed text with
  | blank => rfl
  | comment heading =>
      unfold enter
      dsimp only
      split <;> rfl
  | table name =>
      have hname := (Line.ofTrimmed_eq_table_iff text name).mp hkind
      exact defineTable_behind state (havoids.table name hname) line
  | field definition =>
      cases hcurrent : state.current with
      | none =>
          -- Before the first table of its own the document drops fields, and so it does here.
          simp [enter, behind, hcurrent]
      | some current =>
          cases definition with
          | none => simp [enter, behind, hcurrent]
          | some definition =>
              obtain ⟨owner, field⟩ := definition
              have hfield := (Line.ofTrimmed_eq_field_iff htrimmed _).mp hkind
              have hbehind : (state.behind front).current = some (front.length + current) := by
                simp [behind, hcurrent]
              rw [enter_field_of_current hcurrent, enter_field_of_current hbehind]
              exact defineField_behind state (havoids.field owner field hfield) field line
  | definition => rfl
  | other => rfl

/-- **A step does the same behind other tables** when its line names none of them. -/
theorem step_behind {front : List Table} {line : List Char}
    (havoids : Avoids front (Text.trim line)) :
    (state.behind front).step line = (state.step line).behind front := by
  cases hcontinues : continues (Text.trim line) with
  | false =>
      rw [step_of_not_continues _ hcontinues, step_of_not_continues _ hcontinues, close_behind,
        enter_behind _ havoids (Text.trimmed_trim line)]
  | true =>
      cases hopen : state.ongoing with
      | none =>
          have hbehind : (state.behind front).ongoing = none := by simp [behind, hopen]
          rw [step_of_closed_of_continues hopen hcontinues,
            step_of_closed_of_continues hbehind hcontinues]
      | some statement =>
          have hbehind : (state.behind front).ongoing = some (statement.behind front) := by
            simp [behind, hopen]
          rw [step_of_continues hopen hcontinues, step_of_continues hbehind hcontinues,
            continueWith_behind]

/-- A reading does the same behind other tables when none of its lines names one of them. -/
theorem foldl_step_behind {front : List Table} {lines : List (List Char)}
    (havoids : ∀ line ∈ lines, Avoids front (Text.trim line)) :
    lines.foldl step (state.behind front) = (lines.foldl step state).behind front := by
  induction lines generalizing state with
  | nil => rfl
  | cons line lines ih =>
      rw [List.foldl_cons, List.foldl_cons, step_behind state (havoids line List.mem_cons_self)]
      exact ih _ fun other hmem => havoids other (List.mem_cons_of_mem _ hmem)

end State

/-! ## Where a document opens -/

/-- Whether a logical line is part of a statement: it is neither blank nor a comment. -/
def isStatement (line : List Char) : Bool :=
  !line.isEmpty && !startsComment line

/-- A logical line that is not part of a statement is blank or a comment. -/
theorem ofTrimmed_of_not_statement {line : List Char} (h : isStatement line = false) :
    Line.ofTrimmed line = .blank ∨ ∃ text, Line.ofTrimmed line = .comment text := by
  match line with
  | [] => exact Or.inl rfl
  | c :: rest =>
      have hcomment : startsComment (c :: rest) = true := by simpa [isStatement] using h
      rw [startsComment.eq_def] at hcomment
      split at hcomment
      · next heq =>
          rw [heq]
          exact Or.inr ⟨_, rfl⟩
      · contradiction

/-- A table is defined without looking at the current one, so a document that opens with a table
may be read with any. -/
theorem finish_foldl_of_opening {lines : List (List Char)}
    (htrim : ∀ line ∈ lines, Text.trim line = line)
    (hopening : ∀ line ∈ lines.find? isStatement, (definedTable? line).isSome = true)
    (tables : List Table) (current other : Option Nat) (heading : Option String) :
    (lines.foldl State.step ⟨tables, current, heading, none⟩).finish =
      (lines.foldl State.step ⟨tables, other, heading, none⟩).finish := by
  induction lines generalizing heading with
  | nil => rfl
  | cons line lines ih =>
      rw [List.foldl_cons, List.foldl_cons, State.step_of_closed rfl, State.step_of_closed rfl,
        htrim line List.mem_cons_self]
      cases hstatement : isStatement line with
      | true =>
          have hfirst := hopening line (by simp [hstatement])
          obtain ⟨name, hname⟩ := Option.isSome_iff_exists.mp hfirst
          rw [(Line.ofTrimmed_eq_table_iff line name).mpr hname]
          rfl
      | false =>
          have hrest := ih (fun line hmem => htrim line (List.mem_cons_of_mem _ hmem))
            (fun line hfind => hopening line (by simpa [hstatement] using hfind))
          -- A blank line and a comment change the heading only.
          rcases ofTrimmed_of_not_statement hstatement with hkind | ⟨text, hkind⟩
          · rw [hkind]
            exact hrest none
          · rw [hkind]
            unfold State.enter
            dsimp only
            split
            · exact hrest (some (String.ofList text))
            · exact hrest heading

/-- Empty lines end the open statement and drop the heading. -/
theorem foldl_step_replicate_nil (state : State) (count : Nat) :
    (List.replicate (count + 1) []).foldl State.step state =
      ⟨state.finish, state.current, none, none⟩ := by
  have hstep : ∀ state : State, state.step [] = ⟨state.finish, state.current, none, none⟩ := by
    intro state
    rw [← State.close_current, ← State.close_ongoing state]
    exact State.step_of_not_continues state (by decide)
  induction count generalizing state with
  | zero => exact hstep state
  | succ count ih =>
      rw [List.replicate_succ, List.foldl_cons, ih, hstep]
      rfl

/-! ## Documents -/

theorem trim_of_mem_logicalLines {document : String} {line : List Char}
    (h : line ∈ logicalLines document) : Text.trim line = line := by
  obtain ⟨physical, -, hmem⟩ := List.mem_flatMap.mp h
  exact trim_of_mem_statements hmem

/-- The logical lines of two documents with an empty line between them. -/
theorem logicalLines_append (first second : String) :
    ∃ count, logicalLines (first ++ "\n\n" ++ second) =
      logicalLines first ++ List.replicate (count + 1) [] ++ logicalLines second := by
  obtain ⟨count, hlines⟩ := Text.lines_append_newlines first.toList second.toList
  refine ⟨count, ?_⟩
  have htext : (first ++ "\n\n" ++ second).toList =
      first.toList ++ '\n' :: '\n' :: second.toList := by
    simp [String.toList_append]
  have hempty : (List.replicate (count + 1) []).flatMap statements =
      List.replicate (count + 1) [] := by
    have hone : statements [] = [[]] := rfl
    simp [List.flatMap_replicate, hone]
  unfold logicalLines
  rw [htext, hlines, List.flatMap_append, List.flatMap_append, hempty]

/-- A name that is added is there afterwards, perhaps in another spelling. -/
theorem exists_mem_addName (names : List String) (name : String) :
    ∃ known ∈ addName names name, lowerName known = lowerName name := by
  unfold addName
  split
  · next hknown => simpa using hknown
  · exact ⟨name, by simp, rfl⟩

/-- Every name that some lines declare is among the declared names, perhaps in another spelling. -/
theorem exists_mem_declaredNames {lines : List (List Char)} {line : List Char} {name : String}
    (hmem : line ∈ lines) (hname : definedTable? (Text.trim line) = some name) :
    ∃ known ∈ declaredNames lines, lowerName known = lowerName name := by
  induction lines using List.reverseRecOn with
  | nil => contradiction
  | append_singleton lines last ih =>
      rw [declaredNames_append_singleton]
      rcases List.mem_append.mp hmem with hearlier | hlast
      · -- No later line takes a name away again.
        obtain ⟨known, hknown, hlower⟩ := ih hearlier
        refine ⟨known, ?_, hlower⟩
        cases definedTable? (Text.trim last) with
        | none => exact hknown
        | some other =>
            unfold addName
            dsimp only
            split
            · exact hknown
            · exact List.mem_append_left _ hknown
      · rw [← List.mem_singleton.mp hlast, hname]
        exact exists_mem_addName _ name

/-- The name of every table that a line of a document declares is that of one of its tables, case
ignored. -/
theorem exists_mem_parse_of_definedTable {document : String} {line : List Char} {name : String}
    (hmem : line ∈ logicalLines document) (hname : definedTable? line = some name) :
    ∃ table ∈ parse document, lowerName table.name = lowerName name := by
  have hnames : (parse document).map Table.name = declaredNames (logicalLines document) := by
    rw [← names_outline_run, ← State.outline_close]
    rfl
  obtain ⟨known, hknown, hlower⟩ := exists_mem_declaredNames hmem
    (by rw [trim_of_mem_logicalLines hmem]; exact hname)
  rw [← hnames] at hknown
  obtain ⟨table, htable, rfl⟩ := List.mem_map.mp hknown
  exact ⟨table, htable, hlower⟩

/-- **Documents compose.**  If the second of two documents declares none of the tables of the first,
defines no field of one of them, and opens with a table of its own, then the tables of the two with
an empty line between them are those of the first followed by those of the second. -/
theorem parse_append (first second : String)
    (hdistinct : ∀ table ∈ parse first, ∀ other ∈ parse second,
      lowerName table.name ≠ lowerName other.name)
    (hforeign : ∀ line ∈ logicalLines second, ∀ definition ∈ definedField? line,
      ∀ table ∈ parse first, lowerName table.name ≠ lowerName definition.1)
    (hopening : ∀ line ∈ (logicalLines second).find? isStatement,
      (definedTable? line).isSome = true) :
    parse (first ++ "\n\n" ++ second) = parse first ++ parse second := by
  have htrim : ∀ line ∈ logicalLines second, Text.trim line = line :=
    fun _ => trim_of_mem_logicalLines
  have havoids : ∀ line ∈ logicalLines second, Avoids (parse first) (Text.trim line) := by
    intro line hmem
    rw [htrim line hmem]
    constructor
    · intro name hname
      rw [indexOf_eq_none_iff]
      intro table htable
      obtain ⟨other, hother, hlower⟩ := exists_mem_parse_of_definedTable hmem hname
      rw [← hlower]
      exact hdistinct table htable other hother
    · intro owner field hfield
      rw [indexOf_eq_none_iff]
      exact hforeign line hmem (owner, field) hfield
  obtain ⟨count, hlines⟩ := logicalLines_append first second
  -- The empty lines close the first document; its current table is not looked at any more.
  calc
    parse (first ++ "\n\n" ++ second)
      = ((logicalLines second).foldl State.step
          ⟨parse first, (State.run (logicalLines first)).current, none, none⟩).finish := by
        unfold parse
        rw [hlines, List.foldl_append, List.foldl_append, foldl_step_replicate_nil]
        rfl
    _ = ((logicalLines second).foldl State.step
          (State.initial.behind (parse first))).finish := by
        rw [finish_foldl_of_opening htrim hopening _ _ none]
        simp [State.behind, State.initial]
    _ = parse first ++ parse second := by
        rw [State.foldl_step_behind _ havoids, State.finish_behind]
        rfl

/-- The first document leaves a statement open and a comment pending. -/
theorem parse_append_shop :
    parse ("DEFINE TABLE item;\nDEFINE FIELD price ON item\n  TYPE int\n-- pending" ++ "\n\n" ++
        "-- Orders\nDEFINE TABLE order;\nDEFINE FIELD of ON Order TYPE record<item>;") =
      parse "DEFINE TABLE item;\nDEFINE FIELD price ON item\n  TYPE int\n-- pending" ++
        parse "-- Orders\nDEFINE TABLE order;\nDEFINE FIELD of ON Order TYPE record<item>;" :=
  parse_append _ _ (by decide +kernel) (by decide +kernel) (by decide +kernel)

end Ddl
end SurrealSchema
