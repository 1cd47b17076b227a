import SurrealSchema.Proofs.Info.Exportable

namespace SurrealSchema
namespace Info

/-!
# Definitions in responses and in scripts

A definition in a response says the same about its table or its field when it is read straight from
the response and when it is read from a line of a script, where a semicolon stands behind it.
-/

/-! ## Common facts -/

theorem clear_of_isWordName {name : List Char} (h : Ddl.IsWordName name) : Ddl.Clear name :=
  fun c hc => Ddl.isClear_of_isWord (h.2 c hc)

theorem endsName_of_halts {rest : List Char} (h : Text.Halts (fun c => !Text.isBlank c) rest) :
    Ddl.EndsName rest := by
  intro c hc
  have hblank : Text.isBlank c = true := by simpa using h c hc
  have hne : c ≠ '`' := by
    rintro rfl
    exact absurd hblank (by decide)
  simp [Text.isWord_of_isBlank hblank, hne]

/-! ## Tables -/

namespace IsTableText

variable {name text : String} {clauses : List Char}

/-- Only the clauses of a table may end in blanks. -/
theorem trim_eq (h : IsTableText name text clauses) (hname : IsTableName name) :
    Text.trim text.toList = Ddl.definition "TABLE" (name.toList ++ Text.trimEnd clauses) := by
  have hstart : Text.trimStart text.toList = text.toList := by
    rw [h.written]
    rfl
  rcases List.eq_nil_or_concat name.toList with hnil | ⟨front, c, hlast⟩
  · exact absurd hnil hname.isWordName.1
  · rw [List.concat_eq_append] at hlast
    have hc : Text.isBlank c = false := by
      apply Text.isBlank_of_isWord
      apply hname.isWordName.2
      rw [hlast]
      exact List.mem_append_right _ List.mem_cons_self
    have hsplit : ∀ rest, Ddl.definition "TABLE" (name.toList ++ rest) =
        (Ddl.definition "TABLE" [] ++ front) ++ c :: rest := by
      intro rest
      rw [Ddl.definition_eq_append, hlast]
      simp only [List.append_assoc, List.cons_append, List.nil_append]
    unfold Text.trim
    rw [hstart, h.written, hsplit, hsplit]
    exact Text.dropTrailing_append_of_last hc clauses

theorem isOneStatement (h : IsTableText name text clauses) (hname : IsTableName name) :
    Ddl.IsOneStatement (Text.trim text.toList) where
  confined := by
    have hhead : Ddl.Clear (Ddl.definition "TABLE" []) := by decide
    rw [h.trim_eq hname, Ddl.definition_eq_append]
    exact (h.confined.trimEnd.append_left (clear_of_isWordName hname.isWordName)).append_left hhead
  trimmed := Text.trimmed_trim _
  define := by
    rw [h.trim_eq hname]
    exact ⟨_, rfl⟩

/-- The line for a table defines the table. -/
theorem definedTable (h : IsTableText name text clauses) (hname : IsTableName name) :
    Ddl.definedTable? (Text.trim text.toList ++ [';']) = some name := by
  have hends : Ddl.EndsName (Text.trimEnd clauses) := by
    intro c hc
    exact endsName_of_halts h.ends c (Text.head?_dropTrailing hc)
  have hwords : Text.words (Text.trimEnd clauses) = Text.words clauses := by
    obtain ⟨dropped, hsplit, hdropped⟩ := Text.dropTrailing_append Text.isBlank clauses
    calc Text.words (Text.trimEnd clauses)
        = Text.words (Text.trimEnd clauses ++ dropped) :=
          (Text.words_append_blanks hdropped _).symm
      _ = Text.words clauses := congrArg Text.words hsplit.symm
  have hif : Text.Spells "IF".toList name.toList →
      ¬ Ddl.StartsNotExists (Text.trimEnd clauses) := by
    intro hspells hstarts
    unfold Ddl.StartsNotExists at hstarts
    rw [hwords] at hstarts
    exact h.notExists hspells hstarts
  have hread := Ddl.definedTable_definition hname.isWordName hends hname.notOverwrite hif
  rw [h.trim_eq hname, hread, String.ofList_toList]

/-- The line for a table has the comment of the definition. -/
theorem comment_eq (h : IsTableText name text clauses) :
    Ddl.comment? (Text.trim text.toList ++ [';']) = Ddl.comment? text.toList := by
  obtain ⟨dropped, hsplit, hdropped⟩ := Text.dropTrailing_append Text.isBlank text.toList
  have htrim : Text.trim text.toList = Text.dropTrailing Text.isBlank text.toList := by
    have hstart : Text.trimStart text.toList = text.toList := by
      rw [h.written]
      rfl
    unfold Text.trim
    rw [hstart]
    rfl
  rw [Ddl.comment_append Ddl.foreign_semicolon, htrim]
  conv_rhs => rw [hsplit]
  rw [Ddl.comment_append (Ddl.foreign_of_blanks hdropped)]

end IsTableText

/-- The definition of which only the name is known is a definition of the table. -/
theorem isTableText_plainDefinition (name : String) :
    IsTableText name (String.ofList (plainDefinition name))
      " TYPE NORMAL SCHEMAFULL PERMISSIONS NONE".toList where
  written := by
    rw [String.toList_ofList]
    unfold plainDefinition Ddl.definition
    simp only [List.append_assoc]
    rfl
  ends := Text.halts_cons (by decide) _
  confined := .clear (by decide)
  notExists := by
    have hspace : Text.isBlank ' ' = true := by decide
    have hsolid : Text.Solid "TYPE".toList := by decide
    have hsplit : " TYPE NORMAL SCHEMAFULL PERMISSIONS NONE".toList =
        ' ' :: ("TYPE".toList ++ ' ' :: "NORMAL SCHEMAFULL PERMISSIONS NONE".toList) := rfl
    rintro - ⟨first, second, more, hwords, hfirst, -⟩
    rw [hsplit, Text.words_of_blank hspace, Text.words_append_blank hspace,
      Text.words_of_solid hsolid, List.singleton_append] at hwords
    rw [← (List.cons.inj hwords).1] at hfirst
    exact absurd hfirst (by decide)

/-- **The line for a table is a definition of the table with the description it has.** -/
theorem exists_tableText {conventions : Conventions} {responses : Value} {name : String}
    {raw : Value} (h : IsTableEntry conventions responses (name, raw)) :
    ∃ text clauses, IsTableText name text clauses ∧
      writeTable .unchanged name raw = Ddl.terminated text.toList ∧
      description? raw = (Ddl.comment? text.toList).map String.ofList := by
  have hplain : writeTable .unchanged name raw = Ddl.terminated (plainDefinition name) →
      description? raw = none → ∃ text clauses, IsTableText name text clauses ∧
        writeTable .unchanged name raw = Ddl.terminated text.toList ∧
        description? raw = (Ddl.comment? text.toList).map String.ofList := by
    intro hwrite hdescription
    have hclauses : Ddl.Clear " TYPE NORMAL SCHEMAFULL PERMISSIONS NONE".toList := by decide
    have hhead : Ddl.Clear (Ddl.definition "TABLE" []) := by decide
    have hclear : Ddl.Clear (plainDefinition name) := by
      have hwritten := (isTableText_plainDefinition name).written
      rw [String.toList_ofList, Ddl.definition_eq_append] at hwritten
      rw [hwritten]
      exact hhead.append ((clear_of_isWordName h.name.isWordName).append hclauses)
    refine ⟨_, _, isTableText_plainDefinition name, ?_, ?_⟩
    · rw [String.toList_ofList, hwrite]
    · rw [String.toList_ofList, Ddl.comment_of_clear hclear, hdescription]
      rfl
  cases raw with
  | text definition =>
      obtain ⟨clauses, hdefinition⟩ := h.definition definition rfl
      exact ⟨definition, clauses, hdefinition, rfl, rfl⟩
  | _ => exact hplain rfl rfl

/-! ## Fields -/

theorem endsName_text (clauses : Ddl.FieldClauses) : Ddl.EndsName clauses.text := by
  unfold Ddl.FieldClauses.text
  rcases Ddl.joined_eq (clauses.front ++ clauses.comment ++ clauses.rear) with heq | ⟨rest, heq⟩
  · rw [heq]
    exact Text.halts_nil _
  · rw [heq]
    exact Text.halts_cons (by decide) rest

namespace IsFieldText

variable {conventions : Conventions} {table key text : String} {clauses : Ddl.FieldClauses}

/-- The head of a definition of a field: spaced words without quotes. -/
theorem spaced (h : IsFieldText table key text clauses) (htable : IsTableName table)
    (hkey : IsFieldKey conventions table key) : Text.Spaced Text.Solid text.toList := by
  have hhead : Text.Spaced Text.Solid
      (Ddl.definition "FIELD" (Ddl.onTable key.toList table.toList [])) := by
    refine .cons (by decide) (.cons (by decide) (.cons hkey.solid (.cons (by decide) (.word ?_))))
    rw [List.append_nil]
    exact htable.isWordName.solid
  have hsplit : text.toList =
      Ddl.definition "FIELD" (Ddl.onTable key.toList table.toList []) ++ clauses.text := by
    rw [h.written]
    unfold Ddl.definition Ddl.onTable
    simp only [List.append_assoc, List.cons_append, List.append_nil]
  rw [hsplit]
  exact h.valid.spaced_append hhead

theorem isOneStatement (h : IsFieldText table key text clauses) (htable : IsTableName table)
    (hkey : IsFieldKey conventions table key) : Ddl.IsOneStatement text.toList where
  confined := by
    have hhead : Ddl.Clear (Ddl.definition "FIELD" []) := by decide
    have hon : Ddl.Clear (' ' :: ("ON".toList ++ [' '])) := by decide
    have hsplit : text.toList = Ddl.definition "FIELD" [] ++ (key.toList ++
        ((' ' :: ("ON".toList ++ [' '])) ++ (table.toList ++ clauses.text))) := by
      rw [h.written, Ddl.definition_eq_append]
      simp only [Ddl.onTable, List.append_assoc, List.cons_append, List.nil_append]
    have htext := h.valid.confined.append_left (clear_of_isWordName htable.isWordName)
    rw [hsplit]
    exact ((htext.append_left hon).append_left hkey.clear).append_left hhead
  trimmed := (h.spaced htable hkey).trimmed
  define := by
    rw [h.written]
    exact ⟨_, rfl⟩

/-- **Read straight from a response a field has the clauses of its definition.** -/
theorem fieldOfStatement_eq (h : IsFieldText table key text clauses) (htable : IsTableName table)
    (hkey : IsFieldKey conventions table key) :
    FieldInfo.fieldOfStatement key text = Ddl.fieldOfClauses key clauses.text := by
  have htrimmed := (h.isOneStatement htable hkey).trimmed
  rw [h.written] at htrimmed
  have hparts :=
    Ddl.fieldParts_definition hkey.solid htable.isWordName (endsName_text clauses) htrimmed
    htable.notTable hkey.notOverwrite
  unfold FieldInfo.fieldOfStatement
  dsimp only
  rw [Text.collapseBlanks_of_spaced (h.spaced htable hkey), h.written, hparts]

/-- **Read from a line of a script it has them, too**, unless it is a part of another field. -/
theorem definedField_eq (h : IsFieldText table key text clauses) (htable : IsTableName table)
    (hkey : IsFieldKey conventions table key) :
    Ddl.definedField? (text.toList ++ [';']) =
      if Ddl.isPartName key then none else some (table, Ddl.fieldOfClauses key clauses.text) := by
  have htrimmed := (h.isOneStatement htable hkey).trimmed_append
  have hsplit : text.toList ++ [';'] =
      Ddl.definition "FIELD" (Ddl.onTable key.toList table.toList (clauses.text ++ [';'])) := by
    rw [h.written, Ddl.definition_append]
    simp only [Ddl.onTable, List.append_assoc, List.cons_append]
  rw [hsplit] at htrimmed ⊢
  have hparts := Ddl.fieldParts_definition hkey.solid htable.isWordName
    (endsName_text clauses).append_semicolon htrimmed htable.notTable hkey.notOverwrite
  unfold Ddl.definedField?
  rw [hparts]
  dsimp only
  rw [String.ofList_toList, String.ofList_toList, h.valid.fieldOfClauses_append]

/-- The line for a field defines no table. -/
theorem definedTable_eq_none (h : IsFieldText table key text clauses)
    (hkey : IsFieldKey conventions table key) :
    Ddl.definedTable? (text.toList ++ [';']) = none := by
  have hafter : Ddl.afterDefine? "FIELD" (text.toList ++ [';']) =
      some (Ddl.onTable key.toList table.toList clauses.text ++ [';']) := by
    have hstart : Text.Halts Text.isBlank
        (Ddl.onTable key.toList table.toList clauses.text ++ [';']) := by
      unfold Ddl.onTable
      rw [List.append_assoc]
      exact hkey.solid.halts_append _
    rw [h.written, Ddl.definition_append]
    exact Ddl.afterDefine_definition (by decide) (by decide) hstart
  unfold Ddl.definedTable?
  rw [Ddl.afterDefine_table_of_field hafter]
  rfl

end IsFieldText

end Info
end SurrealSchema
