import SurrealSchema.Ddl.Document
import SurrealSchema.Proofs.Text.KeywordBlanks
import SurrealSchema.Proofs.Text.Trim

namespace SurrealSchema
namespace Ddl

/-!
# Kinds of lines

Each kind of line is told by one test on its text: a table by `definedTable?`, a field by
`definedField?`, and a continuation by not being blank and by starting neither with `DEFINE` nor
with two dashes.  The tests exclude each other, so the order in which `Line.ofTrimmed` makes them
does not matter.
-/

/-! ## Words at the front of a line -/

/-- A keyword with blanks behind it is a word of its own. -/
theorem startsWith_of_keywordThenBlanks {word : String} {text rest : List Char}
    (h : Text.keywordThenBlanks? word text = some rest) : startsWith word text = true := by
  obtain ⟨after, hliteral, hblanks⟩ := Option.bind_eq_some_iff.mp h
  have hboundary := Text.startsWord_of_afterBlanks hblanks
  simp [startsWith, Text.keywordAnyCase?, Text.afterWord, hliteral, hboundary]

/-- What stands behind the two words of a definition has `DEFINE` in front of it. -/
theorem startsWith_define_of_afterDefine {kind : String} {text rest : List Char}
    (h : afterDefine? kind text = some rest) : startsWith "DEFINE" text = true := by
  obtain ⟨after, hdefine, -⟩ := Option.bind_eq_some_iff.mp h
  exact startsWith_of_keywordThenBlanks hdefine

/-- A definition of a field is not a definition of a table. -/
theorem afterDefine_table_of_field {text rest : List Char}
    (h : afterDefine? "FIELD" text = some rest) : afterDefine? "TABLE" text = none := by
  obtain ⟨after, hdefine, hfield⟩ := Option.bind_eq_some_iff.mp h
  obtain ⟨behind, hliteral, -⟩ := Option.bind_eq_some_iff.mp hfield
  have hfirst : Text.afterLiteralAnyCase? "TABLE".toList after = none := by
    cases after with
    | nil => rfl
    | cons c after =>
        have hf : Text.matchesLetter 'F' c = true := by
          by_contra hno
          simp [Text.afterLiteralAnyCase?, hno] at hliteral
        have ht : Text.matchesLetter 'T' c = false := by
          have hc : c = 'F' ∨ c = 'f' := by simpa [Text.matchesLetter] using hf
          rcases hc with rfl | rfl <;> decide
        simp [Text.afterLiteralAnyCase?, ht]
  unfold afterDefine?
  rw [hdefine, Option.bind_some, Text.keywordThenBlanks?, hfirst, Option.bind_none]

/-- A text that starts with `DEFINE` is not empty and is no comment. -/
theorem not_comment_of_startsWith_define {text : List Char}
    (h : startsWith "DEFINE" text = true) : text ≠ [] ∧ startsComment text = false := by
  cases text with
  | nil => exact absurd h (by decide)
  | cons c rest =>
      refine ⟨List.cons_ne_nil _ _, ?_⟩
      cases hdashes : startsComment (c :: rest) with
      | false => rfl
      | true =>
          have hc : c = '-' := by
            cases rest with
            | nil => simp [startsComment] at hdashes
            | cons d rest =>
                by_contra hne
                simp [startsComment, hne] at hdashes
          subst hc
          simp [startsWith, Text.keywordAnyCase?, Text.afterWord, Text.afterLiteralAnyCase?,
            Text.matchesLetter] at h

/-! ## What the kind of a line says -/

/-- Whether a line without blanks around it goes on with the statement before it. -/
def continues (text : List Char) : Bool :=
  !text.isEmpty && !startsComment text && !startsWith "DEFINE" text

/-- A statement that defines a table starts with `DEFINE`. -/
theorem startsWith_define_of_definedTable {text : List Char} {name : String}
    (h : definedTable? text = some name) : startsWith "DEFINE" text = true := by
  obtain ⟨_, hbind, -⟩ := Option.map_eq_some_iff.mp h
  obtain ⟨rest, hdefine, -⟩ := Option.bind_eq_some_iff.mp hbind
  exact startsWith_define_of_afterDefine hdefine

/-- A text that starts like the definition of a field starts with `DEFINE`. -/
theorem startsWith_define_of_startsField {text : List Char}
    (h : startsField text = true) : startsWith "DEFINE" text = true := by
  unfold startsField at h
  cases hdefine : Text.keywordThenBlanks? "DEFINE" text with
  | none => simp [hdefine] at h
  | some rest => exact startsWith_of_keywordThenBlanks hdefine

/-- Behind the first two tests the kind of a line depends on its words only. -/
theorem Line.ofTrimmed_of_not_comment {text : List Char} (hne : text ≠ [])
    (hcomment : startsComment text = false) :
    Line.ofTrimmed text =
      match definedTable? text with
      | some name => .table name
      | none =>
        if startsField text then .field (definedField? text)
        else if startsWith "DEFINE" text then .definition
        else .other := by
  unfold Line.ofTrimmed
  split
  · contradiction
  · simp [startsComment] at hcomment
  · rfl

/-- The lines that define the table of a name. -/
theorem Line.ofTrimmed_eq_table_iff (text : List Char) (name : String) :
    Line.ofTrimmed text = .table name ↔ definedTable? text = some name := by
  constructor
  · intro h
    unfold Line.ofTrimmed at h
    split at h
    · contradiction
    · contradiction
    · split at h
      · next found hfound => rw [hfound, Line.table.inj h]
      · split at h <;> (try split at h) <;> contradiction
  · intro h
    obtain ⟨hne, hcomment⟩ :=
      not_comment_of_startsWith_define (startsWith_define_of_definedTable h)
    rw [Line.ofTrimmed_of_not_comment hne hcomment, h]

/-- The lines that define a field, parts of fields left out. -/
theorem Line.ofTrimmed_eq_field_iff {text : List Char} (htrimmed : Text.Trimmed text)
    (definition : String × Field) :
    Line.ofTrimmed text = .field (some definition) ↔ definedField? text = some definition := by
  constructor
  · intro h
    unfold Line.ofTrimmed at h
    split at h
    · contradiction
    · contradiction
    · split at h
      · contradiction
      · split at h
        · exact Line.field.inj h
        · split at h <;> contradiction
  · intro h
    obtain ⟨rest, hafter⟩ : ∃ rest, afterDefine? "FIELD" text = some rest := by
      cases hparts : fieldParts? text with
      | none => simp [definedField?, hparts] at h
      | some parts =>
          obtain ⟨rest, hrest, -⟩ := Option.bind_eq_some_iff.mp hparts
          rw [Text.trim_eq_self htrimmed] at hrest
          exact ⟨rest, hrest⟩
    obtain ⟨hne, hcomment⟩ :=
      not_comment_of_startsWith_define (startsWith_define_of_afterDefine hafter)
    have htable : definedTable? text = none := by
      simp [definedTable?, afterDefine_table_of_field hafter]
    have hfield : startsField text = true := by
      obtain ⟨after, hdefine, hkind⟩ := Option.bind_eq_some_iff.mp hafter
      simp [startsField, hdefine, startsWith_of_keywordThenBlanks hkind]
    rw [Line.ofTrimmed_of_not_comment hne hcomment, htable]
    simp [hfield, h]

/-- The lines that continue a statement. -/
theorem Line.ofTrimmed_eq_other_iff (text : List Char) :
    Line.ofTrimmed text = .other ↔ continues text = true := by
  cases text with
  | nil => simp [Line.ofTrimmed, continues]
  | cons c rest =>
      cases hcomment : startsComment (c :: rest) with
      | true =>
          obtain ⟨rfl, tail, rfl⟩ : c = '-' ∧ ∃ tail, rest = '-' :: tail := by
            unfold startsComment at hcomment
            split at hcomment
            · next heq => simp only [List.cons.injEq] at heq; exact ⟨heq.1, _, heq.2⟩
            · contradiction
          simp [Line.ofTrimmed, continues, startsComment]
      | false =>
          rw [Line.ofTrimmed_of_not_comment (List.cons_ne_nil _ _) hcomment]
          cases htable : definedTable? (c :: rest) with
          | some name =>
              simp [continues, startsWith_define_of_definedTable htable]
          | none =>
              cases hfield : startsField (c :: rest) with
              | true => simp [continues, startsWith_define_of_startsField hfield]
              | false =>
                  cases hdefine : startsWith "DEFINE" (c :: rest) with
                  | true => simp [continues, hdefine]
                  | false => simp [continues, hdefine, hcomment]

end Ddl
end SurrealSchema
