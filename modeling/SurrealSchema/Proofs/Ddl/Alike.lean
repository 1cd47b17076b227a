import SurrealSchema.Proofs.Ddl.InlineComments

namespace SurrealSchema
namespace Ddl

/-!
# Texts that read alike

Two texts read alike when every state goes on from both to the same state, with and without a line
feed behind them.  Documents joined from texts that read alike in pairs have the same tables; this
needs nothing of the texts themselves, so they may span lines and end in breaks.

A single statement is read by little of its text: a table by its name and its comment, a field by
what `definedField?` says, each with whether the statement is complete.
-/

namespace State

/-- The state after the lines of a text. -/
def readText (state : State) (text : List Char) : State :=
  ((Text.lines text).flatMap statements).foldl step state

/-- What is read in two parts is read part by part, if its lines are those of the parts. -/
theorem readText_of_lines {text : List Char} {lines more : List (List Char)}
    (h : Text.lines text = lines ++ more) (state : State) :
    state.readText text =
      (more.flatMap statements).foldl step ((lines.flatMap statements).foldl step state) := by
  rw [readText, h, List.flatMap_append, List.foldl_append]

/-- A text behind a line feed is read after what stands before it. -/
theorem readText_newline (state : State) (text more : List Char) :
    state.readText (text ++ '\n' :: more) = (state.readText (text ++ ['\n'])).readText more := by
  have hended : (text ++ ['\n']).getLast?.all Text.isLineBreak = true := by
    rw [List.getLast?_concat]
    rfl
  have hhalf : (text ++ ['\n']).getLast? = some '\r' → more.head? ≠ some '\n' := by
    rw [List.getLast?_concat]
    intro h
    exact absurd (Option.some.inj h) (by decide)
  have hlines : Text.lines (text ++ '\n' :: more) = Text.lines (text ++ ['\n']) ++
      Text.lines more := by
    rw [← Text.lines_append_of_ended hended hhalf, List.append_assoc, List.singleton_append]
  exact readText_of_lines hlines state

end State

/-! ## Documents of joined texts -/

/-- Whether two texts are read alike from every state, be it at the end of a document or in front of
a line feed. -/
def ReadAlike (text other : List Char) : Prop :=
  ∀ (state : State) (rear : List Char), rear = [] ∨ rear = ['\n'] →
    state.readText (text ++ rear) = state.readText (other ++ rear)

theorem ReadAlike.refl (text : List Char) : ReadAlike text text := fun _ _ _ => rfl

theorem ReadAlike.trans {text middle other : List Char} (h : ReadAlike text middle)
    (hother : ReadAlike middle other) : ReadAlike text other :=
  fun state rear hrear => (h state rear hrear).trans (hother state rear hrear)

/-- Texts that read alike in pairs are joined to texts that read alike. -/
theorem readText_intercalate {texts others : List (List Char)}
    (h : List.Forall₂ ReadAlike texts others) (state : State) :
    state.readText (['\n'].intercalate texts) = state.readText (['\n'].intercalate others) := by
  induction h generalizing state with
  | nil => rfl
  | @cons text other texts others hfirst hmore ih =>
      cases hmore with
      | nil =>
          have hlast := hfirst state [] (Or.inl rfl)
          rw [List.append_nil, List.append_nil] at hlast
          rw [List.intercalate_singleton, List.intercalate_singleton, hlast]
      | cons _ _ =>
          rw [List.intercalate_cons_cons, List.intercalate_cons_cons, List.append_assoc,
            List.append_assoc, List.singleton_append, List.singleton_append,
            State.readText_newline, State.readText_newline state other,
            hfirst state _ (Or.inr rfl), ih]

/-- The tables of a document are those that are known after all of its lines. -/
theorem parse_ofList (text : List Char) :
    parse (String.ofList text) = (State.initial.readText text).finish := by
  unfold parse logicalLines State.readText
  rw [String.toList_ofList]

/-- **Documents of joined texts that read alike in pairs define the same tables.** -/
theorem parse_eq_of_readAlike {texts others : List (List Char)}
    (h : List.Forall₂ ReadAlike texts others) :
    parse (String.ofList (['\n'].intercalate texts)) =
      parse (String.ofList (['\n'].intercalate others)) := by
  rw [parse_ofList, parse_ofList, readText_intercalate h]

/-! ## Texts of one statement -/

/-- Whether a text is one line with one complete statement on it. -/
structure IsStatementLine (text : List Char) : Prop where
  unbroken : Text.Unbroken text
  trimmed : Text.Trimmed text
  define : startsWith "DEFINE" text = true
  uncut : Uncut none text

/-- A text of one statement is read in one step, whatever ends its line. -/
theorem IsStatementLine.readText {text : List Char} (h : IsStatementLine text) (state : State)
    {rear : List Char} (hrear : rear = [] ∨ rear = ['\n']) :
    state.readText (text ++ rear) = state.step text := by
  obtain ⟨hne, hcomment⟩ := not_comment_of_startsWith_define h.define
  have hlines : Text.lines (text ++ rear) = [text] := by
    rcases hrear with rfl | rfl
    · rw [List.append_nil, Text.lines_of_unbroken hne h.unbroken]
    · rw [Text.lines_append_newline hne h.unbroken.endsInLine,
        Text.lines_of_unbroken hne h.unbroken]
      rfl
  rw [State.readText, hlines, List.flatMap_singleton,
    statements_of_uncut hne h.trimmed hcomment h.uncut, List.foldl_cons, List.foldl_nil]

theorem IsStatementLine.readAlike {text other : List Char} (h : IsStatementLine text)
    (hother : IsStatementLine other) (hstep : ∀ state : State, state.step text = state.step other) :
    ReadAlike text other := by
  intro state rear hrear
  rw [h.readText state hrear, hother.readText state hrear, hstep]

/-- A statement that starts with `DEFINE` ends the statement before it. -/
theorem State.step_of_define {text : List Char} (h : Text.Trimmed text)
    (hdefine : startsWith "DEFINE" text = true) (state : State) :
    state.step text = state.close.enter (Line.ofTrimmed text) text := by
  have hcontinues : continues text = false := by
    rw [continues, hdefine, Bool.not_true, Bool.and_false]
  have htrim := Text.trim_eq_self h
  rw [step_of_not_continues state (by rw [htrim, hcontinues]), htrim]

/-- A statement that starts with `DEFINE` and defines neither a table nor a field does nothing
else. -/
theorem State.step_eq_close {text : List Char} (h : Text.Trimmed text)
    (hdefine : startsWith "DEFINE" text = true) (htable : definedTable? text = none)
    (hfield : startsField text = false) (state : State) : state.step text = state.close := by
  obtain ⟨hne, hcomment⟩ := not_comment_of_startsWith_define hdefine
  rw [State.step_of_define h hdefine, Line.ofTrimmed_of_not_comment hne hcomment, htable]
  simp only [hfield, hdefine, Bool.false_eq_true, if_false, if_true]
  rfl

/-- A statement that defines a table is read by the name, the comment and its end. -/
theorem State.step_eq_of_table {text other : List Char} (h : Text.Trimmed text)
    (hother : Text.Trimmed other) {name : String} (hname : definedTable? text = some name)
    (hname' : definedTable? other = some name) (hcomment : comment? text = comment? other)
    (hend : isTerminated text = isTerminated other) (state : State) :
    state.step text = state.step other := by
  have hread : ∀ {text : List Char}, Text.Trimmed text → definedTable? text = some name →
      state.step text = state.close.defineTable name text := by
    intro text h hname
    rw [step_of_define h (startsWith_define_of_definedTable hname),
      (Line.ofTrimmed_eq_table_iff text name).mpr hname]
    rfl
  rw [hread h hname, hread hother hname', defineTable_eq, defineTable_eq, hcomment, hend]

/-- The lines that start like the definition of a field are read as such. -/
theorem Line.ofTrimmed_of_afterDefine_field {text rest : List Char}
    (h : afterDefine? "FIELD" text = some rest) :
    Line.ofTrimmed text = .field (definedField? text) := by
  obtain ⟨hne, hcomment⟩ := not_comment_of_startsWith_define (startsWith_define_of_afterDefine h)
  have htable : definedTable? text = none := by
    rw [definedTable?, afterDefine_table_of_field h]
    rfl
  have hfield : startsField text = true := by
    obtain ⟨after, hdefine, hkind⟩ := Option.bind_eq_some_iff.mp h
    rw [startsField, hdefine, Option.map_some, Option.getD_some,
      startsWith_of_keywordThenBlanks hkind]
  rw [Line.ofTrimmed_of_not_comment hne hcomment, htable, hfield]
  rfl

/-- A statement that defines a field is read by the field and its end. -/
theorem State.step_eq_of_field {text other rest rest' : List Char} (h : Text.Trimmed text)
    (hother : Text.Trimmed other) (hread : afterDefine? "FIELD" text = some rest)
    (hread' : afterDefine? "FIELD" other = some rest')
    (hfield : definedField? text = definedField? other)
    (hend : isTerminated text = isTerminated other) (state : State) :
    state.step text = state.step other := by
  rw [step_of_define h (startsWith_define_of_afterDefine hread),
    step_of_define hother (startsWith_define_of_afterDefine hread'),
    Line.ofTrimmed_of_afterDefine_field hread, Line.ofTrimmed_of_afterDefine_field hread', hfield]
  unfold enter
  cases definedField? other with
  | none => rfl
  | some definition =>
      obtain ⟨table, field⟩ := definition
      dsimp only
      unfold defineField
      rw [hend]

end Ddl
end SurrealSchema
