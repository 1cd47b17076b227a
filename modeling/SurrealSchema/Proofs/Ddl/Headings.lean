import SurrealSchema.Proofs.Ddl.Places
import SurrealSchema.Proofs.Ddl.TableLayouts

namespace SurrealSchema
namespace Ddl

/-!
# Comments above other definitions

A definition of something else than a table or a field is passed without a look at the heading.  So
the comment above it is not used up by it, and whether the tables depend on that comment is decided
by where it gets to from there.  A blank line or another comment before the next table or field does
away with it.
-/

/-! ## Lines that define something else -/

/-- A line with a comment. -/
def commentLine (text : List Char) : List Char :=
  '-' :: '-' :: ' ' :: text

/-- Whether a line starts like the definition of something else than a table or a field. -/
structure DefinesOther (line : List Char) : Prop where
  define : startsWith "DEFINE" (Text.trim line) = true
  notTable : definedTable? (Text.trim line) = none
  notField : startsField (Text.trim line) = false

instance (line : List Char) : Decidable (DefinesOther line) :=
  decidable_of_iff (startsWith "DEFINE" (Text.trim line) = true ∧
      definedTable? (Text.trim line) = none ∧ startsField (Text.trim line) = false)
    ⟨fun h => ⟨h.1, h.2.1, h.2.2⟩, fun h => ⟨h.define, h.notTable, h.notField⟩⟩

theorem DefinesOther.kind {line : List Char} (h : DefinesOther line) :
    Line.ofTrimmed (Text.trim line) = .definition := by
  obtain ⟨hne, hcomment⟩ := not_comment_of_startsWith_define h.define
  rw [Line.ofTrimmed_of_not_comment hne hcomment, h.notTable]
  dsimp only
  rw [h.notField, h.define]
  rfl

/-- The kind of a line with a comment is told by its text. -/
theorem kind_commentLine (text : List Char) :
    Line.ofTrimmed (Text.trim (commentLine text)) = .comment (Text.trim text) := by
  have htrimmed : Text.Trimmed ['-', '-'] := by
    refine ⟨fun c hc => ?_, fun c hc => ?_⟩ <;> rw [← Option.some.inj hc] <;> decide
  have htrim : Text.trim (commentLine text) = '-' :: '-' :: Text.trimEnd (' ' :: text) :=
    trim_append htrimmed (List.cons_ne_nil _ _) (' ' :: text)
  rw [htrim]
  exact congrArg Line.comment (Text.trim_trimEnd (' ' :: text))

namespace State

theorem step_definesOther {state : State} (hclosed : state.ongoing = none) {line : List Char}
    (h : DefinesOther line) : state.step line = state := by
  rw [step_of_closed hclosed, h.kind]
  rfl

/-- A comment line is the heading of what follows, unless it is made of dashes. -/
theorem step_commentLine {state : State} (hclosed : state.ongoing = none) (text : List Char) :
    state.step (commentLine text) =
      if (Text.trim text).any (· != '-') then
        Place.heading.put (String.ofList (Text.trim text)) state
      else state := by
  rw [step_of_closed hclosed, kind_commentLine]
  unfold enter
  dsimp only
  split
  · unfold Place.put
    rw [hclosed]
    rfl
  · rfl

theorem ongoing_enter {state : State} (hclosed : state.ongoing = none) (kind : Line)
    {line : List Char} (h : isTerminated line = true) : (state.enter kind line).ongoing = none := by
  cases kind with
  | blank => exact hclosed
  | comment text =>
      unfold enter
      dsimp only
      split <;> exact hclosed
  | table name =>
      rw [enter, defineTable_eq]
      dsimp only
      rw [if_pos h]
      exact close_ongoing _
  | field definition =>
      cases hcurrent : state.current with
      | none => simp [enter, hcurrent, hclosed]
      | some current =>
          obtain _ | ⟨owner, field⟩ := definition
          · simp [enter, hcurrent, hclosed]
          · rw [enter_field_of_current hcurrent]
            cases hindex : Table.indexOf? state.tables owner with
            | none =>
                rw [defineField_of_indexOf_eq_none hindex]
                exact hclosed
            | some index =>
                rw [defineField_of_indexOf_eq_some hindex, if_pos h]
                exact close_ongoing _
  | definition => exact hclosed
  | other => exact hclosed

/-- No statement is open behind a blank line and behind a line that ends its statement. -/
theorem ongoing_step_eq_none {state : State} {line : List Char}
    (h : Text.trim line = [] ∨ isTerminated (Text.trim line) = true) :
    (state.step line).ongoing = none := by
  rcases h with hblank | hterminated
  · rw [step_of_not_continues state (by rw [hblank]; rfl), hblank]
    exact close_ongoing state
  · cases hcontinues : continues (Text.trim line) with
    | false =>
        rw [step_of_not_continues state hcontinues]
        exact ongoing_enter (close_ongoing state) _ hterminated
    | true =>
        cases hopen : state.ongoing with
        | none =>
            rw [step_of_closed_of_continues hopen hcontinues]
            exact hopen
        | some statement =>
            rw [step_of_continues hopen hcontinues, continueWith_eq, if_pos hterminated]
            exact close_ongoing _

/-- No statement is open at the start of a document and behind such a line. -/
theorem ongoing_run_eq_none {lines : List (List Char)}
    (h : ∀ last ∈ lines.getLast?,
      Text.trim last = [] ∨ isTerminated (Text.trim last) = true) : (run lines).ongoing = none := by
  rcases List.eq_nil_or_concat lines with rfl | ⟨front, last, rfl⟩
  · rfl
  · rw [List.concat_eq_append] at h ⊢
    rw [run_append_singleton]
    exact ongoing_step_eq_none (h last List.getLast?_concat)

/-- A definition of something else is passed over. -/
theorem run_definesOther {before after : List (List Char)} {definition : List Char}
    (hclosed : (run before).ongoing = none) (hdefinition : DefinesOther definition) :
    run (before ++ definition :: after) = after.foldl step (run before) := by
  unfold run
  rw [List.foldl_append, List.foldl_cons]
  exact congrArg (after.foldl step) (step_definesOther hclosed hdefinition)

/-- **What a comment above a definition of something else does to a document**: its text is the
description of what it gets to, if it gets anywhere, and nothing else depends on it. -/
theorem finish_run_commented {before after : List (List Char)} {definition : List Char}
    (hclosed : (run before).ongoing = none) (hdefinition : DefinesOther definition)
    (text : List Char) :
    (run (before ++ commentLine text :: definition :: after)).finish =
      if (Text.trim text).any (· != '-') then
        (Place.heading.atEnd (run before) after).inTables (String.ofList (Text.trim text))
          (run (before ++ definition :: after)).finish
      else (run (before ++ definition :: after)).finish := by
  have hwith : run (before ++ commentLine text :: definition :: after) =
      after.foldl step (((run before).step (commentLine text)).step definition) := by
    unfold run
    rw [List.foldl_append, List.foldl_cons, List.foldl_cons]
  rw [run_definesOther hclosed hdefinition, hwith, step_commentLine hclosed]
  split
  · have hput : ∀ heading, (Place.heading.put heading (run before)).ongoing = none := by
      intro heading
      rw [Place.put, hclosed, Option.map_none]
    rw [step_definesOther (hput _) hdefinition]
    exact (Place.finish_foldl_step_put _ (Place.known_heading _) (wellFormed_run before) after).1
  · rw [step_definesOther hclosed hdefinition]

end State

/-! ## Comments that get nowhere -/

/-- Whether a line does away with the comment above it: a blank line or another comment. -/
def Separates (line : List Char) : Prop :=
  Text.trim line = [] ∨
    ∃ text, line = commentLine text ∧ (Text.trim text).any (· != '-') = true

namespace Place

/-- A text that is nowhere stays there. -/
theorem step_lost (state : State) (line : List Char) : lost.step state line = lost := by
  have hclosed : ∀ state, lost.closed state = lost := by
    intro state
    unfold closed
    cases state.ongoing <;> rfl
  have hclosedIf : ∀ terminated state, lost.closedIf terminated state = lost := by
    intro terminated state
    unfold closedIf
    rw [hclosed, ite_self]
  have henter : ∀ state kind line, lost.enter state kind line = lost := by
    intro state kind line
    unfold enter
    cases kind with
    | blank => rfl
    | comment text => exact ite_self _
    | table name => exact hclosedIf _ _
    | field definition =>
        dsimp only
        split
        · rfl
        · obtain _ | ⟨owner, field⟩ := definition
          · rfl
          · show lost.defineField _ _ _ _ = lost
            unfold defineField
            split
            · rfl
            · exact hclosedIf _ _
    | definition => rfl
    | other => rfl
  unfold step
  dsimp only
  split
  · split
    · rfl
    · exact hclosedIf _ _
  · rw [hclosed, henter]

theorem atEnd_lost (state : State) (lines : List (List Char)) :
    (lost.atEnd state lines).spot? = none := by
  induction lines generalizing state with
  | nil =>
      show (lost.closed state).spot? = none
      unfold closed
      cases state.ongoing <;> rfl
  | cons line lines ih =>
      show ((lost.step state line).atEnd (state.step line) lines).spot? = none
      rw [step_lost]
      exact ih _

section Closed

variable {state : State} (hclosed : state.ongoing = none)
include hclosed

/-- Where no statement is open a heading is moved by the kind of the line. -/
theorem step_heading (line : List Char) :
    heading.step state line =
      heading.enter state (Line.ofTrimmed (Text.trim line)) (Text.trim line) := by
  have hplace : heading.closed state = heading := by
    unfold closed
    rw [hclosed]
  unfold step
  dsimp only
  split
  · next hcontinues =>
      rw [hclosed, (Line.ofTrimmed_eq_other_iff _).mpr hcontinues]
      rfl
  · rw [hplace, State.close_eq_self hclosed]

theorem step_heading_of_separates {line : List Char} (h : Separates line) :
    heading.step state line = lost := by
  rw [step_heading hclosed]
  obtain hblank | ⟨text, rfl, hsome⟩ := h
  · rw [hblank]
    rfl
  · rw [kind_commentLine]
    exact if_pos hsome

/-- **A comment is lost at the next blank line or comment**, unless a table or a field is defined
before. -/
theorem atEnd_heading_of_separates {passed : List (List Char)}
    (hpassed : ∀ line ∈ passed, DefinesOther line ∨ continues (Text.trim line) = true)
    {line : List Char} (hline : Separates line) (rest : List (List Char)) :
    (heading.atEnd state (passed ++ line :: rest)).spot? = none := by
  induction passed with
  | nil =>
      show ((heading.step state line).atEnd (state.step line) rest).spot? = none
      rw [step_heading_of_separates hclosed hline]
      exact atEnd_lost _ rest
  | cons first passed ih =>
      obtain ⟨hfirst, hothers⟩ := List.forall_mem_cons.mp hpassed
      have hstep : state.step first = state ∧ heading.step state first = heading := by
        rw [step_heading hclosed]
        rcases hfirst with hother | hcontinues
        · exact ⟨State.step_definesOther hclosed hother, by rw [hother.kind]; rfl⟩
        · exact ⟨State.step_of_closed_of_continues hclosed hcontinues,
            by rw [(Line.ofTrimmed_eq_other_iff _).mpr hcontinues]; rfl⟩
      show ((heading.step state first).atEnd (state.step first)
        (passed ++ line :: rest)).spot? = none
      rw [hstep.1, hstep.2]
      exact ih hothers

end Closed

theorem inTables_of_spot_eq_none {place : Place} (h : place.spot? = none) (text : String)
    (tables : List Table) : place.inTables text tables = tables := by
  cases place with
  | lost => rfl
  | heading => rfl
  | fallback => rfl
  | description spot => contradiction

end Place

/-- **A comment above a definition of something else changes nothing where a blank line or another
comment follows** before the next table or field. -/
theorem State.finish_run_commented_of_separates {before passed rest : List (List Char)}
    {definition line : List Char} (hclosed : (run before).ongoing = none)
    (hdefinition : DefinesOther definition)
    (hpassed : ∀ line ∈ passed, DefinesOther line ∨ continues (Text.trim line) = true)
    (hline : Separates line) (text : List Char) :
    (run (before ++ commentLine text :: definition :: (passed ++ line :: rest))).finish =
      (run (before ++ definition :: (passed ++ line :: rest))).finish := by
  rw [finish_run_commented hclosed hdefinition,
    Place.inTables_of_spot_eq_none (Place.atEnd_heading_of_separates hclosed hpassed hline rest),
    ite_self]

/-! ## Comments that change nothing -/

/-- The tables are the same with every text of a comment in a place only if the place describes
nothing. -/
theorem Place.Known.inTables_eq_iff {place : Place} {tables : List Table}
    (h : place.Known tables) :
    (∀ text : List Char, (if (Text.trim text).any (· != '-') then
        place.inTables (String.ofList (Text.trim text)) tables else tables) = tables) ↔
      place.spot? = none := by
  cases hplace : place.spot? with
  | none => simp [Place.inTables_of_spot_eq_none hplace]
  | some spot =>
      obtain rfl : place = .description spot := by
        cases place with
        | description other => rw [Option.some.inj hplace]
        | lost => contradiction
        | heading => contradiction
        | fallback => contradiction
      refine iff_of_false (fun hall => ?_) (fun hnone => nomatch hnone)
      -- Two comments cannot both be the text that is in the spot without them.
      have htext : ∀ text, (Text.trim text).any (· != '-') = true →
          spot.text? tables = some (String.ofList (Text.trim text)) := by
        intro text hsome
        have hread := (h spot rfl).text_put (String.ofList (Text.trim text))
        have hput := hall text
        rw [if_pos hsome] at hput
        have hsame : spot.put (String.ofList (Text.trim text)) tables = tables := hput
        rwa [hsame] at hread
      have hx := htext ['x'] (by decide)
      rw [htext ['y'] (by decide)] at hx
      exact absurd hx (by decide)

/-- **When the tables do not depend on a comment above a definition of something else.**  The
definition stands behind a blank line or a line that ends its statement, and nothing else than the
place in which the text ends decides whether every comment above it leaves the tables alone. -/
theorem commented_definition_iff {document : String} {before after : List (List Char)}
    {definition : List Char} (hlines : logicalLines document = before ++ definition :: after)
    (hbefore : ∀ previous ∈ before.getLast?,
      Text.trim previous = [] ∨ isTerminated previous = true)
    (hdefinition : DefinesOther definition) :
    (∀ text, (State.run (before ++ commentLine text :: definition :: after)).finish =
        parse document) ↔
      (Place.heading.atEnd (State.run before) after).spot? = none := by
  have hclosed : (State.run before).ongoing = none := by
    refine State.ongoing_run_eq_none fun previous hprevious => ?_
    have hmem : previous ∈ logicalLines document := by
      rw [hlines]
      exact List.mem_append_left _ (List.mem_of_getLast? hprevious)
    obtain ⟨line, -, hstatement⟩ := List.mem_flatMap.mp hmem
    rw [trim_of_mem_statements hstatement]
    have hended := hbefore previous hprevious
    rwa [trim_of_mem_statements hstatement] at hended
  have hparse : parse document = (State.run (before ++ definition :: after)).finish := by
    rw [← hlines]
    rfl
  have hknown := (Place.finish_foldl_step_put "" (Place.known_heading _)
    (State.wellFormed_run before) after).2
  rw [← State.run_definesOther hclosed hdefinition] at hknown
  rw [hparse]
  simp only [State.finish_run_commented hclosed hdefinition]
  exact hknown.inTables_eq_iff

/-- A blank line behind the definition of an index keeps every comment above it off the field. -/
theorem commented_definition_iff_index :
    let document := "DEFINE TABLE user;\nDEFINE INDEX by_name ON user FIELDS name;\n\n" ++
      "DEFINE FIELD name ON user TYPE string;"
    let before := ["DEFINE TABLE user;".toList]
    let definition := "DEFINE INDEX by_name ON user FIELDS name;".toList
    let after := [[], "DEFINE FIELD name ON user TYPE string;".toList]
    (logicalLines document = before ++ definition :: after ∧
      (∀ previous ∈ before.getLast?,
        Text.trim previous = [] ∨ isTerminated previous = true) ∧ DefinesOther definition) ∧
    ∀ text, (State.run (before ++ commentLine text :: definition :: after)).finish =
      parse document := by
  intro document before definition after
  have hlines : logicalLines document = before ++ definition :: after := by decide +kernel
  have hbefore : ∀ previous ∈ before.getLast?,
      Text.trim previous = [] ∨ isTerminated previous = true := by
    intro previous hprevious
    rw [← Option.some.inj hprevious]
    decide +kernel
  have hdefinition : DefinesOther definition := by decide +kernel
  have hlost : (Place.heading.atEnd (State.run before) after).spot? = none := by decide +kernel
  exact ⟨⟨hlines, hbefore, hdefinition⟩,
    (commented_definition_iff hlines hbefore hdefinition).mpr hlost⟩

/-- Without the blank line a comment above the index describes the field. -/
theorem comment_above_index_describes_field :
    let document := "DEFINE TABLE user;\n\nDEFINE INDEX by_name ON user FIELDS name;\n" ++
      "DEFINE FIELD name ON user TYPE string;"
    let commented := "DEFINE TABLE user;\n\n-- speeds up look-ups\n" ++
      "DEFINE INDEX by_name ON user FIELDS name;\nDEFINE FIELD name ON user TYPE string;"
    let before := ["DEFINE TABLE user;".toList, []]
    let definition := "DEFINE INDEX by_name ON user FIELDS name;".toList
    let after := ["DEFINE FIELD name ON user TYPE string;".toList]
    logicalLines document = before ++ definition :: after ∧
      logicalLines commented =
        before ++ commentLine "speeds up look-ups".toList :: definition :: after ∧
      before.getLast? = some [] ∧ DefinesOther definition ∧
      parse commented ≠ parse document := by
  intro document commented before definition after
  have hlines : logicalLines document = before ++ definition :: after := by decide +kernel
  have hcommented : logicalLines commented =
      before ++ commentLine "speeds up look-ups".toList :: definition :: after := by
    decide +kernel
  refine ⟨hlines, hcommented, rfl, by decide +kernel, ?_⟩
  unfold parse
  rw [hlines, hcommented]
  decide +kernel

end Ddl
end SurrealSchema
