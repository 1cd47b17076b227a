import SurrealSchema.Proofs.Ddl.QuotedNames

namespace SurrealSchema
namespace Ddl

/-!
# Keys of fields

In the definition of a field everything up to the next blank is its name, so backticks stay a part
of it.  The words behind the name may be taken for others: a table named `TABLE` for the word that
may stand in front of a table, and a field named `OVERWRITE` for a modifier, if its table is named
`ON`.  Then the word of the type clause is taken for the table, and the field is left out.

Main statement: `parse_fieldDocument`.
-/

/-- The document of a table and of a field of it; the key is the name of the field as it is
written. -/
def fieldDocument (key table type : String) : String :=
  "DEFINE TABLE " ++ table ++ ";\nDEFINE FIELD " ++ key ++ " ON " ++ table ++ " TYPE " ++ type ++
    ";"

/-- A name between backticks. -/
def quotedName (name : String) : String :=
  "`" ++ name ++ "`"

/-- Whether a text names a whole field in a definition. -/
structure IsKey (key : String) : Prop where
  solid : Text.Solid key.toList
  clear : Clear key.toList
  whole : isPartName key = false

/-- Whether a text may be the type at the end of a definition: it has no blanks around it and
neither quotes nor semicolons nor line breaks. -/
structure EndsDefinition (type : List Char) : Prop where
  ne_nil : type ≠ []
  trimmed : Text.Trimmed type
  clear : Clear type

/-- Whether a word of a definition is taken for another one. -/
def Misread (key table : String) : Prop :=
  Text.Spells "TABLE".toList table.toList ∨
    Text.Spells "OVERWRITE".toList key.toList ∧ Text.Spells "ON".toList table.toList

instance (key table : String) : Decidable (Misread key table) :=
  inferInstanceAs (Decidable (_ ∨ _ ∧ _))

/-! ## Words as keys -/

theorem toList_quotedName (name : String) :
    (quotedName name).toList = Token.backticked name.toList := by
  have hmark : "`".toList = ['`'] := rfl
  unfold quotedName Token.backticked
  rw [String.toList_append, String.toList_append, hmark]
  rfl

theorem quotedName_ne (name : String) : quotedName name ≠ name := by
  intro heq
  have hlength := congrArg (fun text => text.toList.length) heq
  simp only [toList_quotedName, Token.backticked, List.length_cons, List.length_append] at hlength
  omega

section Words

variable {name : String} (hname : IsWordName name.toList)
include hname

/-- A word is a key. -/
theorem isKey_of_isWordName : IsKey name where
  solid := hname.solid
  clear := fun c hc => isClear_of_isWord (hname.2 c hc)
  whole := hname.isPartName

/-- So is a word between backticks. -/
theorem isKey_quotedName : IsKey (quotedName name) where
  solid := toList_quotedName name ▸ Token.solid_backticked hname.solid.2
  clear := toList_quotedName name ▸ clear_backticked hname
  whole := by
    have hbracket : '[' ∉ name.toList := hname.not_mem (by decide)
    have hdot : '.' ∉ name.toList := hname.not_mem (by decide)
    simp [isPartName, toList_quotedName, Token.backticked, hbracket, hdot]

end Words

/-- A name between backticks is taken for no modifier. -/
theorem misread_quotedName_iff (name table : String) :
    Misread (quotedName name) table ↔ Text.Spells "TABLE".toList table.toList := by
  have hmodifier : ¬ Text.Spells "OVERWRITE".toList (quotedName name).toList := by
    intro hspells
    have hword := Text.isWord_of_spells (by decide) hspells
    rw [toList_quotedName] at hword
    exact absurd (hword '`' List.mem_cons_self) (by decide)
  exact or_iff_left fun hboth => hmodifier hboth.1

/-! ## The field -/

theorem typeClause_eq (type : List Char) :
    typeClause type = ' ' :: ("TYPE".toList ++ ' ' :: (type ++ [';'])) := by
  simp [typeClause]

theorem typedField_typeClause (field table : String) (type : List Char) :
    typedField field table type ++ [';'] =
      definition "FIELD" (onTable field.toList table.toList (typeClause type)) :=
  typedField_append field table type

theorem halts_type (rest : List Char) : Text.Halts Text.isBlank ("TYPE".toList ++ rest) :=
  Text.halts_cons (by decide) _

theorem tableName_type (rest : List Char) :
    tableName? ("TYPE".toList ++ ' ' :: rest) = some ("TYPE".toList, ' ' :: rest) :=
  tableName_append ⟨by decide, List.all_eq_true.mp (by decide)⟩ (Text.halts_cons (by decide) _)

section Misread

variable {key table type : List Char} (hkey : Text.Solid key) (htable : IsWordName table)
  (htrimmed : Text.Trimmed (definition "FIELD" (onTable key table (typeClause type))))
include hkey htrimmed

include htable in
/-- A table may be taken for the word in front of one. -/
theorem fieldParts_of_spells_table (hword : Text.Spells "TABLE".toList table) :
    fieldParts? (definition "FIELD" (onTable key table (typeClause type))) =
      some ⟨String.ofList key, "TYPE", ' ' :: (type ++ [';'])⟩ := by
  have hother : ¬ Text.Spells "ON".toList table := by
    intro hspells
    exact absurd (Text.eq_of_spells (by decide) (by decide) hword hspells) (by decide)
  have hmodifier : (afterModifier? (onTable key table (typeClause type))).bind fieldAndTable? =
      none :=
    bind_afterModifier_onTable (htable.solid.halts_append _) hkey fun _ =>
      Text.keywordThenBlanks_eq_none (by decide) Text.delimits_isWord htable.2
        (Text.halts_cons (by decide) _) hother
  have hread : behindOptional (Text.keywordThenBlanks? "TABLE") tableName?
      (table ++ typeClause type) = some ("TYPE".toList, ' ' :: (type ++ [';'])) := by
    unfold behindOptional
    rw [typeClause_eq, Text.keywordThenBlanks_of_spells hword (halts_type _), Option.bind_some,
      tableName_type, Option.some_or]
  rw [fieldParts_eq_behindOptional hkey htrimmed, behindOptional, hmodifier, Option.none_or, onTable,
    fieldAndTable_spelled hkey (Text.spells_self (by decide)) (htable.solid.halts_append _), hread]
  rfl

/-- A field may be taken for a modifier, and then the keyword behind it for the field. -/
theorem fieldParts_of_spells_overwrite (hmodifier : Text.Spells "OVERWRITE".toList key)
    (hword : Text.Spells "ON".toList table) :
    fieldParts? (definition "FIELD" (onTable key table (typeClause type))) =
      some ⟨"ON", "TYPE", ' ' :: (type ++ [';'])⟩ := by
  have hon : Text.Solid "ON".toList := by decide
  have hafter : afterModifier? (onTable key table (typeClause type)) =
      some ("ON".toList ++ ' ' :: (table ++ typeClause type)) := by
    unfold afterModifier? onTable
    rw [Text.keywordThenBlanks_of_spells hmodifier (hon.halts_append _), Option.some_or]
  have hnone : Text.keywordThenBlanks? "TABLE" ("TYPE".toList ++ ' ' :: (type ++ [';'])) = none :=
    Text.keywordThenBlanks_eq_none (by decide) Text.delimits_isWord
      (List.all_eq_true.mp (by decide)) (Text.halts_cons (by decide) _) (by decide)
  have hread : behindOptional (Text.keywordThenBlanks? "TABLE") tableName?
      ("TYPE".toList ++ ' ' :: (type ++ [';'])) = some ("TYPE".toList, ' ' :: (type ++ [';'])) := by
    unfold behindOptional
    rw [hnone, tableName_type]
    rfl
  rw [fieldParts_eq_behindOptional hkey htrimmed, behindOptional, hafter, Option.bind_some,
    typeClause_eq, fieldAndTable_spelled hon hword (halts_type _), hread]
  rfl

end Misread

/-! ## The document -/

section Reads

variable {key table : String} {type : List Char} (hkey : IsKey key)
  (htable : IsWordName table.toList) (htype : EndsDefinition type)
include hkey htable htype

/-- The definition of a field is one statement, whatever its words are taken for. -/
theorem isOneStatement_key : IsOneStatement (typedField key table type) :=
  isOneStatement_onTable hkey.clear (fun c hc => isClear_of_isWord (htable.2 c hc)) htype.clear
    htype.ne_nil htype.trimmed.2

theorem trimmed_key :
    Text.Trimmed (definition "FIELD" (onTable key.toList table.toList (typeClause type))) := by
  rw [← typedField_typeClause]
  exact (isOneStatement_key hkey htable htype).trimmed_append

/-- It defines the field of the key. -/
theorem definedField_key (hread : ¬ Misread key table) :
    definedField? (typedField key table type ++ [';']) =
      some (table, fieldOfClauses key (typeClause type)) := by
  obtain ⟨htableWord, hkeyWord⟩ := not_or.mp hread
  have hends : EndsName (typeClause type) := Text.halts_cons (by decide) _
  have hparts := fieldParts_definition hkey.solid htable hends (trimmed_key hkey htable htype)
    htableWord fun hspells hon => hkeyWord ⟨hspells, hon⟩
  rw [typedField_typeClause, definedField?, hparts, String.ofList_toList, String.ofList_toList]
  dsimp only
  rw [hkey.whole, if_neg Bool.false_ne_true]

/-- Where a word is taken for another one, it defines a field of a table of another name. -/
theorem exists_definedField_of_misread (hread : Misread key table) :
    ∃ field, definedField? (typedField key table type ++ [';']) = some ("TYPE", field) := by
  have htrimmed := trimmed_key hkey htable htype
  have hparts : ∃ parts, fieldParts? (typedField key table type ++ [';']) = some parts ∧
      parts.table = "TYPE" ∧ isPartName parts.name = false := by
    rw [typedField_typeClause]
    rcases hread with hword | ⟨hmodifier, hword⟩
    · refine ⟨_, fieldParts_of_spells_table hkey.solid htable htrimmed hword, rfl, ?_⟩
      rw [String.ofList_toList]
      exact hkey.whole
    · have hwhole : isPartName "ON" = false := by decide
      exact ⟨_, fieldParts_of_spells_overwrite hkey.solid htrimmed hmodifier hword, rfl, hwhole⟩
  obtain ⟨parts, hparts, howner, hwhole⟩ := hparts
  refine ⟨fieldOfClauses parts.name parts.clauses, ?_⟩
  rw [definedField?, hparts]
  dsimp only
  rw [hwhole, if_neg Bool.false_ne_true, howner]

end Reads

/-- A name that is taken for another word is not that of the type clause. -/
theorem lowerName_ne_of_misread {key table : String} (h : Misread key table) :
    lowerName table ≠ lowerName "TYPE" := by
  have hlower : ∀ {word : String}, Text.Capitals word.toList →
      'I' ∉ word.toList ∧ 'S' ∉ word.toList ∧ 'K' ∉ word.toList →
        Text.Spells word.toList table.toList → lowerName table = lowerName word := by
    intro word hcapitals hother hspells
    have hascii := Text.ascii_of_spells hcapitals hother hspells
    unfold lowerName
    rw [Text.lower_eq_of_spells hcapitals hascii hspells]
  rcases h with htable | ⟨-, hon⟩
  · rw [hlower (by decide) (by decide) htable]
    decide +kernel
  · rw [hlower (by decide) (by decide) hon]
    decide +kernel

/-- **A field is found under its key as it is written**, unless a word of its definition is taken
for another one. -/
theorem parse_fieldDocument {key table type : String} (hkey : IsKey key)
    (htable : IsWordName table.toList) (htype : EndsDefinition type.toList) :
    parse (fieldDocument key table type) =
      [⟨table, none,
        if Misread key table then [] else [fieldOfClauses key (typeClause type.toList)]⟩] := by
  obtain ⟨-, honeTable⟩ := isOneStatement_table htable
  obtain ⟨hname, hcomment⟩ := definedTable_of_name htable
  have honeField := isOneStatement_key hkey htable htype
  have hends : ∀ item ∈ [terminated (definition "TABLE" table.toList),
      terminated (typedField key table type.toList)], Text.EndsInLine item := by
    intro item hmem
    simp only [List.mem_cons, List.not_mem_nil, or_false] at hmem
    rcases hmem with rfl | rfl <;> exact endsInLine_terminated _
  have htext := typedField_text honeTable honeField
  rw [String.ofList_toList] at htext
  obtain ⟨hdeclared, hheading⟩ := rests_initial.read_table rfl honeTable hname rfl
  rw [hcomment] at hdeclared
  have hread : Rests (State.initial.read [terminated (definition "TABLE" table.toList),
      terminated (typedField key table type.toList)]) [⟨table, none,
        if Misread key table then [] else [fieldOfClauses key (typeClause type.toList)]⟩] := by
    rw [← List.singleton_append, State.read_append]
    split
    · next hmisread =>
        obtain ⟨field, hfield⟩ := exists_definedField_of_misread hkey htable htype hmisread
        refine hdeclared.read_field_unknown (List.cons_ne_nil _ _) honeField hfield ?_
        rw [List.nil_append, indexOf_cons, if_neg (lowerName_ne_of_misread hmisread)]
        rfl
    · next hmisread =>
        have hfield := definedField_key hkey htable htype hmisread
        have hplace : Table.indexOf? ([] ++ [⟨table, none, []⟩]) table = some 0 := by
          simp [Table.indexOf?, Table.isNamed]
        exact (hdeclared.read_field hheading honeField hfield hplace).1
  unfold fieldDocument
  rw [htext, parse_intercalate hends, State.finish, State.close_eq_self hread.closed, hread.known]

end Ddl
end SurrealSchema
