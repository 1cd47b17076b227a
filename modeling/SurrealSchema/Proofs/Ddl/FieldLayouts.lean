import SurrealSchema.Proofs.Ddl.FurtherClauses
import SurrealSchema.Proofs.Ddl.TypedFields

namespace SurrealSchema
namespace Ddl

/-!
# Fields over several lines

The definition of a field may go on over further lines.  Wherever it is broken between two clauses,
it leads to the same state as on one line: a line of clauses adds to the open field what it would
have added on the first line.
-/

/-! ## Lines of pieces -/

/-- Some pieces on one line. -/
def onLine (pieces : List (List Char)) : List Char :=
  [' '].intercalate pieces

/-- Some lines with a semicolon behind the last one. -/
def ended : List (List Char) → List (List Char)
  | [] => []
  | [line] => [line ++ [';']]
  | line :: next :: lines => line :: ended (next :: lines)

theorem onLine_cons (piece : List Char) (pieces : List (List Char)) :
    onLine (piece :: pieces) = piece ++ joined pieces :=
  Text.intercalate_cons [' '] piece pieces

/-- Whether a text does not start with a blank and ends neither with a blank nor a semicolon. -/
structure IsPiece (text : List Char) : Prop where
  starts : Text.Halts Text.isBlank text
  ends : ∃ c, text.getLast? = some c ∧ Text.isBlank c = false ∧ c ≠ ';'

namespace IsPiece

variable {text : List Char} (h : IsPiece text)
include h

theorem ne_nil : text ≠ [] := by
  rintro rfl
  obtain ⟨c, hc, -⟩ := h.ends
  contradiction

theorem trimmed : Text.Trimmed text := by
  obtain ⟨last, hlast, hblank, -⟩ := h.ends
  refine ⟨h.starts, fun c hc => ?_⟩
  rw [hlast] at hc
  rw [← Option.some.inj hc, hblank]

theorem isTerminated_eq_false : isTerminated text = false := by
  obtain ⟨last, hlast, -, hne⟩ := h.ends
  unfold isTerminated Text.trimEnd
  rw [Text.dropTrailing_eq_self h.trimmed.2, hlast]
  simpa using hne

theorem trimmed_append_semicolon : Text.Trimmed (text ++ [';']) := by
  obtain ⟨c, rest, rfl⟩ := List.exists_cons_of_ne_nil h.ne_nil
  exact Ddl.trimmed_append_semicolon (h.starts c rfl) rest

/-- A piece with anything behind it that ends like a piece is a piece. -/
theorem append {more : List Char}
    (hmore : ∃ c, more.getLast? = some c ∧ Text.isBlank c = false ∧ c ≠ ';') :
    IsPiece (text ++ more) where
  starts := by
    obtain ⟨c, rest, rfl⟩ := List.exists_cons_of_ne_nil h.ne_nil
    exact Text.halts_cons (h.starts c rfl) _
  ends := by
    obtain ⟨c, hc, hgood⟩ := hmore
    refine ⟨c, ?_, hgood⟩
    rw [List.getLast?_append, hc]
    rfl

/-- Pieces on one line make a piece. -/
theorem append_joined {pieces : List (List Char)} (hpieces : ∀ piece ∈ pieces, IsPiece piece) :
    IsPiece (text ++ joined pieces) := by
  induction pieces generalizing text with
  | nil =>
      rw [joined, List.flatMap_nil, List.append_nil]
      exact h
  | cons piece pieces ih =>
      obtain ⟨hpiece, hothers⟩ := List.forall_mem_cons.mp hpieces
      rw [joined_cons, ← List.cons_append, ← List.append_assoc]
      refine ih (h.append ?_) hothers
      obtain ⟨c, hc, hgood⟩ := hpiece.ends
      refine ⟨c, ?_, hgood⟩
      rw [← List.singleton_append, List.getLast?_append, hc]
      rfl

end IsPiece

theorem IsPlainText.isPiece {text : List Char} (h : IsPlainText text) : IsPiece text where
  starts := h.trimmed.1
  ends := by
    obtain ⟨c, hc⟩ := Option.isSome_iff_exists.mp (List.getLast?_isSome.mpr h.ne_nil)
    refine ⟨c, hc, h.trimmed.2 c hc, ?_⟩
    rintro rfl
    exact h.clear.not_mem (by decide) (List.mem_of_getLast? hc)

theorem isPiece_of_solid {word : List Char} (h : Text.Solid word)
    (hlast : word.getLast? ≠ some ';') : IsPiece word where
  starts := by
    rw [← List.append_nil word]
    exact h.halts_append []
  ends := by
    obtain ⟨c, hc⟩ := Option.isSome_iff_exists.mp (List.getLast?_isSome.mpr h.1)
    refine ⟨c, hc, h.2 c (List.mem_of_getLast? hc), ?_⟩
    rintro rfl
    exact hlast hc

/-- A keyword with a text behind it is a piece. -/
theorem isPiece_keyword {keyword : String} (hsolid : Text.Solid keyword.toList)
    (hlast : keyword.toList.getLast? ≠ some ';') {body : List Char} (hbody : IsPlainText body) :
    IsPiece (keyword.toList ++ ' ' :: body) := by
  have hjoined := (isPiece_of_solid hsolid hlast).append_joined
    (List.forall_mem_singleton.mpr hbody.isPiece)
  rw [joined_cons, joined, List.flatMap_nil, List.append_nil] at hjoined
  exact hjoined

namespace FurtherClause

theorem Valid.isPiece {clause : FurtherClause} (h : clause.Valid) : IsPiece clause.text := by
  have hkeywords : ∀ keyword ∈ ["DEFAULT", "VALUE"] ++ ["ASSERT", "PERMISSIONS"],
      Text.Solid keyword.toList ∧ keyword.toList.getLast? ≠ some ';' := by decide
  cases clause with
  | comment payload =>
      have hkeyword : IsPiece "COMMENT".toList := isPiece_of_solid (by decide) (by decide)
      refine hkeyword.append ⟨'"', ?_, by decide, by decide⟩
      show (' ' :: '"' :: payload ++ ['"']).getLast? = some '"'
      exact List.getLast?_concat
  | default keyword expression =>
      obtain ⟨hsolid, hlast⟩ := hkeywords keyword (List.mem_append_left _ h.1)
      exact isPiece_keyword hsolid hlast h.2.1
  | readonly =>
      have htext : readonly.text = "READONLY".toList := List.append_nil _
      rw [htext]
      exact isPiece_of_solid (by decide) (by decide)
  | rule keyword body =>
      obtain ⟨hsolid, hlast⟩ := hkeywords keyword (List.mem_append_right _ h.1)
      exact isPiece_keyword hsolid hlast h.2

/-- A line that starts with a clause continues a statement. -/
theorem Valid.continues {clause : FurtherClause} (h : clause.Valid) (rest : List Char) :
    Ddl.continues (clause.text ++ rest) = true := by
  rw [FurtherClause.text, List.append_assoc]
  generalize clause.behind ++ rest = more
  have hkeyword := h.keyword_mem_typeEnds.1
  generalize clause.keyword = keyword at hkeyword
  simp only [typeEnds, List.mem_cons, List.not_mem_nil, or_false] at hkeyword
  rcases hkeyword with rfl | rfl | rfl | rfl | rfl | rfl | rfl | rfl <;> rfl

end FurtherClause

/-! ## Lines of clauses -/

/-- A line of clauses. -/
def clauseLine (clauses : List FurtherClause) : List Char :=
  onLine (clauses.map FurtherClause.text)

theorem search_space (text : List Char) :
    (Text.search defaultClause? none (' ' :: text)).map Prod.snd =
      (Text.search defaultClause? none text).map Prod.snd := by
  have hfirst : defaultClause? none (' ' :: text) = none := rfl
  have hbefore : Text.search defaultClause? (some ' ') text =
      Text.search defaultClause? none text := by
    cases text <;> rfl
  rw [Text.search, hfirst]
  dsimp only
  rw [hbefore, Option.map_map]
  rfl

/-- A space in front of a line does not change its default. -/
theorem default_space (line : List Char) : default? (' ' :: line) = default? line := by
  unfold default?
  rw [withoutComment_space, search_space]

section Rows

variable {row : List FurtherClause} (h : AreFurther row) {mark : List Char}
  (hmark : mark = [] ∨ mark = [';'])

theorem clauseLine_cons (clause : FurtherClause) (clauses : List FurtherClause) :
    clauseLine (clause :: clauses) = clause.text ++ written clauses :=
  onLine_cons clause.text (clauses.map FurtherClause.text)

/-- A line of clauses has no space in front of the first one. -/
theorem written_eq_clauseLine (hne : row ≠ []) : written row = ' ' :: clauseLine row := by
  obtain ⟨clause, clauses, rfl⟩ := List.exists_cons_of_ne_nil hne
  rw [clauseLine_cons, written, List.map_cons, joined_cons]
  rfl

include h

theorem isPiece_clauseLine (hne : row ≠ []) : IsPiece (clauseLine row) := by
  obtain ⟨clause, clauses, rfl⟩ := List.exists_cons_of_ne_nil hne
  obtain ⟨hclause, hclauses⟩ := List.forall_mem_cons.mp h.valid
  rw [clauseLine_cons]
  refine hclause.isPiece.append_joined fun piece hpiece => ?_
  obtain ⟨other, hother, rfl⟩ := List.mem_map.mp hpiece
  exact (hclauses other hother).isPiece

theorem continues_clauseLine (hne : row ≠ []) (rest : List Char) :
    continues (clauseLine row ++ rest) = true := by
  obtain ⟨clause, clauses, rfl⟩ := List.exists_cons_of_ne_nil hne
  rw [clauseLine_cons, List.append_assoc]
  exact (h.valid clause List.mem_cons_self).continues _

include hmark

/-- **A line of clauses adds its comment and its default to a field**, as if they had stood behind
the clauses before. -/
theorem continueField_clauseLine (hne : row ≠ []) (name : String) (type : List Char)
    (isOptional : Bool) (done : List FurtherClause) :
    continueField (clauseLine row ++ mark) (fieldWith name type isOptional done) =
      fieldWith name type isOptional (done ++ row) := by
  have hline : ' ' :: (clauseLine row ++ mark) = [] ++ written row ++ mark := by
    rw [List.nil_append, written_eq_clauseLine hne]
    rfl
  have hcomment : comment? (clauseLine row ++ mark) = row.findSome? FurtherClause.payload? := by
    rw [← comment_space, hline]
    exact comment_written (by decide) hmark h.valid
  have hdefault : default? (clauseLine row ++ mark) = row.findSome? FurtherClause.expression? := by
    rw [← default_space, hline]
    exact h.default_written hmark (by decide) (by decide)
  unfold continueField fieldWith
  dsimp only
  rw [hcomment, hdefault, List.findSome?_append, List.findSome?_append, Option.map_or,
    Option.map_or]

end Rows

/-! ## The head of a field -/

/-- The first piece of a field: its head, its type and the marker. -/
def fieldPiece (field table : String) (type : List Char) (isOptional : Bool) : List Char :=
  definition "FIELD" (onTable field.toList table.toList (writtenType type isOptional))

section Head

variable {field table : String} (hfield : IsPlainName field) (htable : IsPlainName table)
  {type : List Char} (htype : IsPlainText type) (isOptional : Bool)
include hfield htable htype

/-- The pieces that the first one is made of. -/
theorem isPiece_fieldPiece : IsPiece (fieldPiece field table type isOptional) := by
  have hword : ∀ word ∈ ["DEFINE", "FIELD", "ON", "TYPE", "OPTIONAL"],
      Text.Solid word.toList ∧ word.toList.getLast? ≠ some ';' := by decide
  have hpiece : ∀ {word : String}, word ∈ ["DEFINE", "FIELD", "ON", "TYPE", "OPTIONAL"] →
      IsPiece word.toList := fun hmem => isPiece_of_solid (hword _ hmem).1 (hword _ hmem).2
  have hname : ∀ {name : String}, IsPlainName name → IsPiece name.toList := by
    intro name hname
    refine isPiece_of_solid hname.isWordName.solid fun hlast => ?_
    exact hname.clear.not_mem (by decide) (List.mem_of_getLast? hlast)
  have htyped := isPiece_keyword (by decide : Text.Solid "TYPE".toList) (by decide) htype
  have hpieces : ∀ piece ∈ ["FIELD".toList, field.toList, "ON".toList, table.toList,
      "TYPE".toList ++ ' ' :: type] ++ (if isOptional then ["OPTIONAL".toList] else []),
      IsPiece piece := by
    intro piece hmem
    rcases List.mem_append.mp hmem with hmem | hmem
    · simp only [List.mem_cons, List.not_mem_nil, or_false] at hmem
      rcases hmem with rfl | rfl | rfl | rfl | rfl
      · exact hpiece (by decide)
      · exact hname hfield
      · exact hpiece (by decide)
      · exact hname htable
      · exact htyped
    · split at hmem
      · rw [List.mem_singleton.mp hmem]
        exact hpiece (by decide)
      · contradiction
  have hline := (hpiece (by decide : "DEFINE" ∈ _)).append_joined hpieces
  have htext : fieldPiece field table type isOptional = "DEFINE".toList ++
      joined (["FIELD".toList, field.toList, "ON".toList, table.toList,
        "TYPE".toList ++ ' ' :: type] ++ (if isOptional then ["OPTIONAL".toList] else [])) := by
    unfold fieldPiece definition onTable writtenType
    cases isOptional <;> simp only [joined_append, joined_cons, List.append_assoc,
      List.cons_append, if_true, if_false, Bool.false_eq_true] <;> rfl
  rw [htext]
  exact hline

variable {clauses : List FurtherClause} (h : AreFurther clauses) {mark : List Char}
  (hmark : mark = [] ∨ mark = [';'])
include h

/-- The first line of a field with some clauses. -/
theorem isPiece_firstLine :
    IsPiece
      (onLine (fieldPiece field table type isOptional :: clauses.map FurtherClause.text)) := by
  rw [onLine_cons]
  refine (isPiece_fieldPiece hfield htable htype isOptional).append_joined fun piece hpiece => ?_
  obtain ⟨clause, hclause, rfl⟩ := List.mem_map.mp hpiece
  exact (h.valid clause hclause).isPiece

include hmark

theorem trimmed_firstLine :
    Text.Trimmed (onLine (fieldPiece field table type isOptional ::
      clauses.map FurtherClause.text) ++ mark) := by
  have hpiece := isPiece_firstLine hfield htable htype isOptional h
  rcases hmark with rfl | rfl
  · rw [List.append_nil]
    exact hpiece.trimmed
  · exact hpiece.trimmed_append_semicolon

/-- The first line is read as the definition of the field with its clauses. -/
theorem definedField_firstLine :
    definedField? (onLine (fieldPiece field table type isOptional ::
        clauses.map FurtherClause.text) ++ mark) =
      some (table, fieldWith field type isOptional clauses) := by
  have htrimmed := trimmed_firstLine hfield htable htype isOptional h hmark
  have hsplit : onLine (fieldPiece field table type isOptional ::
        clauses.map FurtherClause.text) ++ mark =
      definition "FIELD" (onTable field.toList table.toList
        (writtenType type isOptional ++ written clauses ++ mark)) := by
    rw [onLine_cons, fieldPiece, List.append_assoc, definition_append]
    unfold onTable written
    simp only [List.append_assoc, List.cons_append]
  rw [hsplit] at htrimmed ⊢
  have hends : EndsName (writtenType type isOptional ++ written clauses ++ mark) := by
    cases isOptional <;> exact Text.halts_cons (by decide) _
  rw [definedField_plain hfield htable hends htrimmed, h.fieldOfClauses_eq hmark htype]

/-- It is read as a definition of a field in every state. -/
theorem State.step_firstLine (state : State) :
    state.step (onLine (fieldPiece field table type isOptional ::
        clauses.map FurtherClause.text) ++ mark) =
      state.close.enter (.field (some (table, fieldWith field type isOptional clauses)))
        (onLine (fieldPiece field table type isOptional ::
          clauses.map FurtherClause.text) ++ mark) := by
  have htrimmed := trimmed_firstLine hfield htable htype isOptional h hmark
  have hread := definedField_firstLine hfield htable htype isOptional h hmark
  have hkind := (Line.ofTrimmed_eq_field_iff htrimmed _).mpr hread
  have hcontinues : continues (onLine (fieldPiece field table type isOptional ::
      clauses.map FurtherClause.text) ++ mark) = false := by
    rw [Bool.eq_false_iff]
    intro hcontinues
    rw [(Line.ofTrimmed_eq_other_iff _).mpr hcontinues] at hkind
    contradiction
  rw [step_of_not_continues state (by rw [Text.trim_eq_self htrimmed, hcontinues]),
    Text.trim_eq_self htrimmed, hkind]

end Head

/-! ## Layouts -/

namespace State

/-- Lines that continue a statement do nothing where no statement is open. -/
theorem foldl_step_of_closed {state : State} (hclosed : state.ongoing = none)
    {lines : List (List Char)} (h : ∀ line ∈ lines, continues (Text.trim line) = true) :
    lines.foldl step state = state := by
  induction lines with
  | nil => rfl
  | cons line lines ih =>
      obtain ⟨hline, hlines⟩ := List.forall_mem_cons.mp h
      rw [List.foldl_cons, step_of_closed_of_continues hclosed hline, ih hlines]

/-- The state in which a field is open. -/
def filling (tables : List Table) (current : Option Nat) (index : Nat) (fallback : Option String)
    (field : Field) : State :=
  ⟨tables, current, none, some ⟨index, some field, fallback⟩⟩

section Rows

variable {row : List FurtherClause} (h : AreFurther row) (hne : row ≠ [])
  (tables : List Table) (current : Option Nat) (index : Nat) (fallback : Option String)
  (name : String) (type : List Char) (isOptional : Bool) (done : List FurtherClause)
include h hne

/-- A line of clauses adds them to the open field. -/
theorem step_clauseLine :
    (filling tables current index fallback (fieldWith name type isOptional done)).step
        (clauseLine row) =
      filling tables current index fallback (fieldWith name type isOptional (done ++ row)) := by
  have hpiece := isPiece_clauseLine h hne
  have htrim := Text.trim_eq_self hpiece.trimmed
  have hcontinues := continues_clauseLine h hne []
  have hcontinue := continueField_clauseLine h (Or.inl rfl) hne name type isOptional done
  rw [List.append_nil] at hcontinues hcontinue
  unfold filling
  rw [step_of_continues rfl (by rw [htrim, hcontinues]), htrim, continueWith,
    hpiece.isTerminated_eq_false]
  dsimp only
  rw [hcontinue, if_neg Bool.false_ne_true]

/-- With a semicolon behind it the line closes the field, too. -/
theorem step_clauseLine_ended :
    (filling tables current index fallback (fieldWith name type isOptional done)).step
        (clauseLine row ++ [';']) =
      (filling tables current index fallback
        (fieldWith name type isOptional (done ++ row))).close := by
  have hpiece := isPiece_clauseLine h hne
  have htrim := Text.trim_eq_self hpiece.trimmed_append_semicolon
  have hcontinues := continues_clauseLine h hne [';']
  have hcontinue := continueField_clauseLine h (Or.inr rfl) hne name type isOptional done
  unfold filling
  rw [step_of_continues rfl (by rw [htrim, hcontinues]), htrim, continueWith, isTerminated_append]
  dsimp only
  rw [hcontinue, if_pos rfl]

end Rows

/-- **Rows of clauses add all their clauses to the open field and close it.** -/
theorem foldl_step_rows {rows : List (List FurtherClause)} (hsome : rows ≠ [])
    (h : ∀ row ∈ rows, AreFurther row ∧ row ≠ []) (tables : List Table) (current : Option Nat)
    (index : Nat) (fallback : Option String) (name : String) (type : List Char)
    (isOptional : Bool) (done : List FurtherClause) :
    (ended (rows.map clauseLine)).foldl step
        (filling tables current index fallback (fieldWith name type isOptional done)) =
      (filling tables current index fallback
        (fieldWith name type isOptional (done ++ rows.flatten))).close := by
  induction rows generalizing done with
  | nil => contradiction
  | cons row rows ih =>
      obtain ⟨⟨hrow, hne⟩, hrows⟩ := List.forall_mem_cons.mp h
      cases rows with
      | nil =>
          rw [List.map_singleton, ended, List.foldl_cons, List.foldl_nil,
            step_clauseLine_ended hrow hne, List.flatten_singleton]
      | cons next rows =>
          rw [List.map_cons, List.map_cons, ended, List.foldl_cons, step_clauseLine hrow hne,
            List.flatten_cons, ← List.append_assoc, ← ih (List.cons_ne_nil _ _) hrows,
            List.map_cons]

end State

/-- The lines of rows continue a statement. -/
theorem continues_of_mem_ended {rows : List (List FurtherClause)}
    (h : ∀ row ∈ rows, AreFurther row ∧ row ≠ []) :
    ∀ line ∈ ended (rows.map clauseLine), continues (Text.trim line) = true := by
  induction rows with
  | nil => exact fun _ hmem => absurd hmem List.not_mem_nil
  | cons row rows ih =>
      obtain ⟨⟨hrow, hne⟩, hrows⟩ := List.forall_mem_cons.mp h
      have hpiece := isPiece_clauseLine hrow hne
      cases rows with
      | nil =>
          refine List.forall_mem_singleton.mpr ?_
          rw [Text.trim_eq_self hpiece.trimmed_append_semicolon]
          exact continues_clauseLine hrow hne [';']
      | cons next rows =>
          refine List.forall_mem_cons.mpr ⟨?_, ih hrows⟩
          have hcontinues := continues_clauseLine hrow hne []
          rw [List.append_nil] at hcontinues
          rw [Text.trim_eq_self hpiece.trimmed, hcontinues]

/-- Rows of clauses behind the first line of a field do what its clauses do on the first line,
whether or not the field is taken. -/
theorem State.foldl_step_enter_field {state : State} (hclosed : state.ongoing = none)
    {rows : List (List FurtherClause)} (hsome : rows ≠ [])
    (h : ∀ row ∈ rows, AreFurther row ∧ row ≠ []) (table field : String) (type : List Char)
    (isOptional : Bool) (first : List FurtherClause) {line whole : List Char}
    (hline : isTerminated line = false) (hwhole : isTerminated whole = true) :
    (ended (rows.map clauseLine)).foldl State.step
        (state.enter (.field (some (table, fieldWith field type isOptional first))) line) =
      state.enter
        (.field (some (table, fieldWith field type isOptional (first ++ rows.flatten)))) whole := by
  have hquiet : ∀ {state : State}, state.ongoing = none →
      (ended (rows.map clauseLine)).foldl State.step state = state :=
    fun hclosed => State.foldl_step_of_closed hclosed (continues_of_mem_ended h)
  cases hcurrent : state.current with
  | none =>
      have hskip : ∀ kind line, state.enter (.field kind) line = state := by
        intro kind line
        unfold State.enter
        rw [hcurrent]
        rfl
      rw [hskip, hskip, hquiet hclosed]
  | some current =>
      rw [State.enter_field_of_current hcurrent, State.enter_field_of_current hcurrent]
      cases hindex : Table.indexOf? state.tables table with
      | none =>
          rw [State.defineField_of_indexOf_eq_none hindex,
            State.defineField_of_indexOf_eq_none hindex]
          exact hquiet hclosed
      | some index =>
          rw [State.defineField_of_indexOf_eq_some hindex,
            State.defineField_of_indexOf_eq_some hindex, hline, hwhole,
            if_neg Bool.false_ne_true, if_pos rfl]
          exact State.foldl_step_rows hsome h state.tables state.current index state.heading field
            type isOptional first

/-- **The definition of a field leads to the same state on one line and over several lines**, with
its clauses in any order and broken between any two of them. -/
theorem State.foldl_step_fieldLayout {field table : String} (hfield : IsPlainName field)
    (htable : IsPlainName table) {type : List Char} (htype : IsPlainText type) (isOptional : Bool)
    {first : List FurtherClause} {rows : List (List FurtherClause)}
    (hrows : ∀ row ∈ rows, row ≠ []) (h : AreFurther (first ++ rows.flatten)) (state : State) :
    (ended (onLine (fieldPiece field table type isOptional :: first.map FurtherClause.text) ::
        rows.map clauseLine)).foldl State.step state =
      state.step (onLine (fieldPiece field table type isOptional ::
        (first ++ rows.flatten).map FurtherClause.text) ++ [';']) := by
  have hfirst : AreFurther first := h.of_sublist (List.sublist_append_left _ _)
  have hvalid : ∀ row ∈ rows, AreFurther row ∧ row ≠ [] := fun row hmem =>
    ⟨h.of_sublist ((List.sublist_flatten_of_mem hmem).trans (List.sublist_append_right _ _)),
      hrows row hmem⟩
  cases rows with
  | nil =>
      rw [List.map_nil, ended, List.foldl_cons, List.foldl_nil, List.flatten_nil, List.append_nil]
  | cons row others =>
      have hone := State.step_firstLine hfield htable htype isOptional h (Or.inr rfl) state
      have hopen := State.step_firstLine hfield htable htype isOptional hfirst (Or.inl rfl) state
      rw [List.append_nil] at hopen
      rw [List.map_cons, ended, List.foldl_cons, hone, hopen, ← List.map_cons]
      exact State.foldl_step_enter_field (State.close_ongoing state) (List.cons_ne_nil _ _) hvalid
        table field type isOptional first
        (isPiece_firstLine hfield htable htype isOptional hfirst).isTerminated_eq_false
        (isTerminated_append _)

/-- A field over three lines, behind the definition of its table, and the same field on one line. -/
theorem State.foldl_step_fieldLayout_age :
    let first : List FurtherClause := [.rule "ASSERT" "$value > 0".toList]
    let rows : List (List FurtherClause) :=
      [[.comment "In years; never 'none'".toList], [.default "DEFAULT" "18".toList, .readonly]]
    let state := State.run ["DEFINE TABLE user;".toList]
    (IsPlainName "age" ∧ IsPlainName "user" ∧ IsPlainText "int".toList ∧
      (∀ row ∈ rows, row ≠ []) ∧ AreFurther (first ++ rows.flatten)) ∧
    (ended (onLine (fieldPiece "age" "user" "int".toList true :: first.map FurtherClause.text) ::
        rows.map clauseLine)).foldl State.step state =
      state.step (onLine (fieldPiece "age" "user" "int".toList true ::
        (first ++ rows.flatten).map FurtherClause.text) ++ [';']) := by
  intro first rows state
  have hfield : IsPlainName "age" := by decide
  have htable : IsPlainName "user" := by decide
  have htype : IsPlainText "int".toList := by decide +kernel
  have hrows : ∀ row ∈ rows, row ≠ [] := by
    intro row hmem
    rcases List.mem_pair.mp hmem with rfl | rfl <;> exact List.cons_ne_nil _ _
  have hclauses : AreFurther (first ++ rows.flatten) := by decide +kernel
  exact ⟨⟨hfield, htable, htype, hrows, hclauses⟩,
    State.foldl_step_fieldLayout hfield htable htype true hrows hclauses state⟩

end Ddl
end SurrealSchema
