import SurrealSchema.Proofs.Ddl.Heads
import SurrealSchema.Proofs.Ddl.Items
import SurrealSchema.Proofs.Ddl.TypedClauses
import SurrealSchema.Proofs.TypeExpr.Layout
import SurrealSchema.Proofs.TypeExpr.TypeText

namespace SurrealSchema
namespace Ddl

open TypeExpr (TokenKind IsSpelling)

/-!
# The type of a field

A field that is defined with a type has the kind, the pointer and the optionality of the type
expression, however deep the expression is and however it is spaced.  On its way to the parser the
text of the type passes the cutting into statements, the searches for clauses and the search for a
reference clause; none of them stops in it, because no word of a plain type is a keyword.

Main statement: `parse_typedField`.
-/

/-! ## Texts that no search stops in -/

/-- Whether a text has neither the clauses of a field in it nor a reference clause. -/
structure IsBare (text : List Char) : Prop where
  free : FreeOfClauses text
  reference : Text.Lacks (Text.keywordAnyCase? "REFERENCE") text

namespace IsBare

variable {text rest : List Char}

theorem nil : IsBare [] :=
  ⟨.nil, Descriptor.readsWord_reference.lacks_nil⟩

theorem cons {b : Char} (hb : Text.isWord b = false) (hsemicolon : b ≠ ';') (h : IsBare text) :
    IsBare (b :: text) :=
  ⟨.cons hb hsemicolon h.free, Descriptor.readsWord_reference.lacks_cons hb h.reference⟩

theorem append (h : IsBare text) (hhalts : Text.Halts Text.isWord rest) (hrest : IsBare rest) :
    IsBare (text ++ rest) :=
  ⟨h.free.append hhalts hrest.free,
    Descriptor.readsWord_reference.lacks_append h.reference hhalts hrest.reference⟩

/-- Blanks in front of a text add no words. -/
theorem blanks {gap : List Char} (hgap : ∀ c ∈ gap, Text.isBlank c = true) (h : IsBare text) :
    IsBare (gap ++ text) := by
  induction gap with
  | nil => exact h
  | cons c gap ih =>
      have hc := hgap c List.mem_cons_self
      have hsemicolon : c ≠ ';' := by
        rintro rfl
        exact absurd hc (by decide)
      exact .cons (Text.isWord_of_isBlank hc) hsemicolon
        (ih fun d hd => hgap d (List.mem_cons_of_mem _ hd))

/-- A run of word characters is bare if it is no keyword and no comment starts in it. -/
theorem of_run (hrun : ∀ c ∈ text, Text.isWord c = true)
    (hkeyword : ∀ word ∈ typeEnds, text ≠ word.toList) (hcomment : ¬ "COMMENT".toList <:+: text)
    (hreference : ¬ Text.Spells "REFERENCE".toList text) : IsBare text where
  free := .of_run hrun hkeyword hcomment
  reference := Text.lacks_keywordAnyCase_of_run (by decide) (by decide) hrun hreference

end IsBare

/-! ## Plain types -/

/-- Whether a name in a type is an identifier that is not taken for a clause. -/
structure IsTypeName (name : String) : Prop where
  identifier : Token.isIdentifier name.toList = true
  noKeyword : name ∉ typeEnds
  noComment : ¬ "COMMENT".toList <:+: name.toList
  noReference : ¬ Text.Spells "REFERENCE".toList name.toList

instance (name : String) : Decidable (IsTypeName name) :=
  decidable_of_iff (Token.isIdentifier name.toList = true ∧ name ∉ typeEnds ∧
      ¬ "COMMENT".toList <:+: name.toList ∧ ¬ Text.Spells "REFERENCE".toList name.toList)
    ⟨fun h => ⟨h.1, h.2.1, h.2.2.1, h.2.2.2⟩,
      fun h => ⟨h.identifier, h.noKeyword, h.noComment, h.noReference⟩⟩

/-- Whether a token of a type is a name of the plain sort, an integer or a punctuation mark. -/
def IsPlain : TokenKind → Prop
  | .name name => IsTypeName name
  | .number (.integer _) => True
  | .opening | .closing | .bar | .comma => True
  | .text _ | .number _ => False

instance : DecidablePred IsPlain
  | .name name => inferInstanceAs (Decidable (IsTypeName name))
  | .number (.integer _) | .opening | .closing | .bar | .comma => .isTrue trivial
  | .text _ | .number (.text _) | .number (.decimal _) => .isFalse id

/-- A plain token is written as its value. -/
def IsWritten (kind : TokenKind) (spelling : List Char) : Prop :=
  spelling = kind.display.toList

theorem isSpelling_of_isPlain {kind : TokenKind} (h : IsPlain kind) {spelling : List Char}
    (hwritten : IsWritten kind spelling) : IsSpelling kind spelling := by
  rw [hwritten]
  cases kind with
  | name name => exact TypeExpr.isSpelling_name h.identifier
  | number value =>
      cases value with
      | integer value => exact TypeExpr.isSpelling_integer value
      | text _ | decimal _ => exact h.elim
  | text _ => exact h.elim
  | opening | closing | bar | comma => exact TypeExpr.isSpelling_mark rfl

/-- The digits of a number are bare. -/
theorem isBare_toString (count : Nat) : IsBare (toString count).toList := by
  rw [Text.toList_toString]
  have hdigits : ∀ c ∈ Nat.toDigits 10 count, c.isDigit = true :=
    fun c hc => Text.isDigit_of_mem_toDigits hc
  refine .of_run (fun c hc => Text.isWord_of_isDigit (hdigits c hc)) ?_ ?_ ?_
  · have hletters : (typeEnds.all fun word => !word.toList.all Char.isDigit) = true := by decide
    intro word hmem heq
    have hletter := List.all_eq_true.mp hletters word hmem
    rw [← heq, List.all_eq_true.mpr hdigits] at hletter
    contradiction
  · intro hstands
    exact absurd (hdigits 'C' (hstands.subset List.mem_cons_self)) (by decide)
  · exact Text.not_spells_toDigits (by decide) (by decide) (List.append_nil _).symm

theorem isBare_of_isPlain {kind : TokenKind} (h : IsPlain kind) : IsBare kind.display.toList := by
  cases kind with
  | name name =>
      refine .of_run (Token.isWord_of_isIdentifier h.identifier) ?_ h.noComment h.noReference
      intro word hmem heq
      have hname : name = word := String.toList_inj.mp heq
      exact h.noKeyword (hname ▸ hmem)
  | number value =>
      cases value with
      | integer value =>
          cases value with
          | ofNat count => exact isBare_toString count
          | negSucc count =>
              show IsBare (toString (Int.negSucc count)).toList
              rw [Text.toList_toString_negSucc]
              exact .cons (by decide) (by decide) (isBare_toString (count + 1))
      | text _ | decimal _ => exact h.elim
  | text _ => exact h.elim
  | opening | closing | bar | comma => exact .cons (by decide) (by decide) .nil

/-- Characters of plain tokens are neither quotes nor semicolons nor blanks. -/
theorem isClear_of_isPlain {kind : TokenKind} (h : IsPlain kind) :
    ∀ c ∈ kind.display.toList, isClear c = true ∧ Text.isBlank c = false := by
  have hword : ∀ {text : List Char}, (∀ c ∈ text, Text.isWord c = true) →
      ∀ c ∈ text, isClear c = true ∧ Text.isBlank c = false :=
    fun htext c hc => ⟨isClear_of_isWord (htext c hc), Text.isBlank_of_isWord (htext c hc)⟩
  have hdigits : ∀ count : Nat, ∀ c ∈ (toString count).toList, Text.isWord c = true := by
    intro count c hc
    rw [Text.toList_toString] at hc
    exact Text.isWord_of_isDigit (Text.isDigit_of_mem_toDigits hc)
  cases kind with
  | name name => exact hword (Token.isWord_of_isIdentifier h.identifier)
  | number value =>
      cases value with
      | integer value =>
          cases value with
          | ofNat count => exact hword (hdigits count)
          | negSucc count =>
              show ∀ c ∈ (toString (Int.negSucc count)).toList, _
              rw [Text.toList_toString_negSucc, List.forall_mem_cons]
              exact ⟨by decide, hword (hdigits (count + 1))⟩
      | text _ | decimal _ => exact h.elim
  | text _ => exact h.elim
  | opening | closing | bar | comma => exact List.forall_mem_singleton.mpr (by decide)

theorem solid_of_isPlain {kind : TokenKind} (h : IsPlain kind) {spelling : List Char}
    (hwritten : IsWritten kind spelling) : Text.Solid spelling := by
  obtain ⟨c, more, heq, -⟩ := (isSpelling_of_isPlain h hwritten).first
  refine ⟨heq ▸ List.cons_ne_nil c more, ?_⟩
  rw [hwritten]
  exact fun c hc => (isClear_of_isPlain h c hc).2

section Layout

variable {kinds : List TokenKind} {text : List Char}

/-- **The text of a plain type is bare.** -/
theorem isBare_of_layout (h : TypeExpr.Layout IsWritten kinds text)
    (hplain : ∀ kind ∈ kinds, IsPlain kind)
    (hchain : kinds.IsChain fun kind next => kind.isMark = true ∨ next.isMark = true) :
    IsBare text := by
  induction h with
  | @last kind spelling hwritten =>
      rw [hwritten]
      exact isBare_of_isPlain (hplain kind List.mem_cons_self)
  | @cons kind kinds spelling gap text hwritten hgap hrest ih =>
      have hkind := hplain kind List.mem_cons_self
      have hothers : ∀ other ∈ kinds, IsPlain other :=
        fun other hmem => hplain other (List.mem_cons_of_mem _ hmem)
      have hbehind : IsBare (gap ++ text) :=
        (ih hothers hchain.tail).blanks fun c hc => Tokens.isBlank_of_isGap (hgap c hc)
      have hboundary := hrest.boundary hgap
        (fun other hmem spelling hspelling => isSpelling_of_isPlain (hothers other hmem) hspelling)
        hchain
      rw [hwritten]
      -- A mark is part of no word; behind any other token its word ends.
      rcases hboundary with hmark | hends
      · cases kind with
        | opening | closing | bar | comma => exact .cons (by decide) (by decide) hbehind
        | name _ | text _ | number _ => contradiction
      · have hhalts := TypeExpr.halts_of_endsTerm
          (fun c hc => (TypeExpr.not_endsTerm hc).2.1) hends
        exact (isBare_of_isPlain hkind).append hhalts hbehind

/-- The text of a plain type has no blanks around it. -/
theorem trimmed_of_layout (h : TypeExpr.Layout IsWritten kinds text)
    (hplain : ∀ kind ∈ kinds, IsPlain kind) : Text.Trimmed text ∧ text ≠ [] := by
  induction h with
  | last hwritten =>
      have hspelling := solid_of_isPlain (hplain _ List.mem_cons_self) hwritten
      exact ⟨(Text.Spaced.word hspelling).trimmed, hspelling.1⟩
  | @cons kind kinds spelling gap text hwritten hgap hrest ih =>
      have hspelling := solid_of_isPlain (hplain kind List.mem_cons_self) hwritten
      obtain ⟨hbehind, hne⟩ := ih fun other hmem => hplain other (List.mem_cons_of_mem _ hmem)
      refine ⟨⟨?_, ?_⟩, List.append_ne_nil_of_left_ne_nil hspelling.1 _⟩
      · intro c hc
        rw [List.head?_append_of_ne_nil _ hspelling.1] at hc
        exact hspelling.2 c (List.mem_of_mem_head? hc)
      · intro c hc
        rw [List.getLast?_append_of_ne_nil _ (List.append_ne_nil_of_right_ne_nil _ hne),
          List.getLast?_append_of_ne_nil _ hne] at hc
        exact hbehind.2 c hc

/-- The text of a plain type on one line is clear. -/
theorem clear_of_layout (h : TypeExpr.Layout IsWritten kinds text)
    (hplain : ∀ kind ∈ kinds, IsPlain kind) (hunbroken : Text.Unbroken text) : Clear text := by
  -- Between tokens there may be line breaks, which are no clear characters.
  have hspace : ∀ c, Tokens.isGap c = true → Text.isLineBreak c = false → isClear c = true := by
    intro c hgap hbreak
    rcases (Tokens.isGap_iff c).mp hgap with rfl | rfl | rfl | rfl
    · rfl
    · rfl
    · contradiction
    · contradiction
  induction h with
  | @last kind spelling hwritten =>
      intro c hc
      rw [hwritten] at hc
      exact (isClear_of_isPlain (hplain kind List.mem_cons_self) c hc).1
  | @cons kind kinds spelling gap text hwritten hgap hrest ih =>
      have hbehind := ih (fun other hmem => hplain other (List.mem_cons_of_mem _ hmem))
        fun c hc => hunbroken c (by simp [hc])
      intro c hc
      rcases List.mem_append.mp hc with hfirst | hmore
      · rw [hwritten] at hfirst
        exact (isClear_of_isPlain (hplain kind List.mem_cons_self) c hfirst).1
      · rcases List.mem_append.mp hmore with hmid | hlast
        · exact hspace c (hgap c hmid) (hunbroken c hc)
        · exact hbehind c hlast

end Layout

/-- The text of a plain type expression describes what the expression does. -/
theorem ofTypeText_of_layout {type : TypeExpr} (hsentence : type.isSentence = true)
    (hplain : ∀ kind ∈ type.kinds, IsPlain kind) {text : List Char}
    (hlayout : TypeExpr.Layout IsWritten type.kinds text) :
    IsClauseText text ∧ Descriptor.ofTypeText text = type.describe := by
  obtain ⟨final, hsteps, -⟩ := TypeExpr.foldlM_kinds hsentence
  have hbare := isBare_of_layout hlayout hplain (TypeExpr.isChain_of_foldlM hsteps)
  obtain ⟨htrimmed, hne⟩ := trimmed_of_layout hlayout hplain
  have hparse := TypeExpr.parse_of_layout hsentence hlayout
    fun kind hmem spelling hwritten => isSpelling_of_isPlain (hplain kind hmem) hwritten
  have htext := Descriptor.typeText_eq_self htrimmed hbare.free.semicolon
    (Descriptor.passes_atReferenceClause hbare.reference)
  exact ⟨⟨htrimmed, hne, hbare.free⟩, Descriptor.ofTypeText_of_parse htext hne hparse⟩

/-! ## A table with one field -/

/-- Whether the name of a table or a field is an identifier and no word that may stand in its
place. -/
structure IsPlainName (name : String) : Prop where
  identifier : Token.isIdentifier name.toList = true
  noModifier : ∀ word ∈ ["OVERWRITE", "TABLE", "ON"], ¬ Text.Spells word.toList name.toList

instance (name : String) : Decidable (IsPlainName name) :=
  decidable_of_iff (Token.isIdentifier name.toList = true ∧
      ∀ word ∈ ["OVERWRITE", "TABLE", "ON"], ¬ Text.Spells word.toList name.toList)
    ⟨fun h => ⟨h.1, h.2⟩, fun h => ⟨h.identifier, h.noModifier⟩⟩

namespace IsPlainName

variable {name : String}

theorem isWordName (h : IsPlainName name) : IsWordName name.toList :=
  isWordName_of_isIdentifier h.identifier

theorem clear (h : IsPlainName name) : Clear name.toList :=
  fun c hc => isClear_of_isWord (h.isWordName.2 c hc)

theorem isPartName (h : IsPlainName name) : isPartName name = false :=
  h.isWordName.isPartName

end IsPlainName

section PlainNames

variable {field table : String} (hfield : IsPlainName field) (htable : IsPlainName table)
  {clauses : List Char} (hclauses : EndsName clauses)
  (htrimmed : Text.Trimmed (definition "FIELD" (onTable field.toList table.toList clauses)))
include hfield htable hclauses htrimmed

/-- A definition between plain names falls into them and the clauses. -/
theorem fieldParts_plain :
    fieldParts? (definition "FIELD" (onTable field.toList table.toList clauses)) =
      some ⟨field, table, clauses⟩ := by
  have hnever : Text.Spells "OVERWRITE".toList field.toList →
      ¬ Text.Spells "ON".toList table.toList :=
    fun hspells => absurd hspells (hfield.noModifier "OVERWRITE" (by decide))
  have hparts := fieldParts_definition hfield.isWordName.solid htable.isWordName hclauses htrimmed
    (htable.noModifier "TABLE" (by decide)) hnever
  rw [String.ofList_toList, String.ofList_toList] at hparts
  exact hparts

/-- A definition between plain names defines the field that its clauses describe. -/
theorem definedField_plain :
    definedField? (definition "FIELD" (onTable field.toList table.toList clauses)) =
      some (table, fieldOfClauses field clauses) := by
  unfold definedField?
  rw [fieldParts_plain hfield htable hclauses htrimmed]
  dsimp only
  rw [hfield.isPartName, if_neg Bool.false_ne_true]

end PlainNames

/-- The definition of a table by its name alone is one statement. -/
theorem isOneStatement_table {table : String} (h : IsWordName table.toList) :
    Clear (definition "TABLE" table.toList) ∧ IsOneStatement (definition "TABLE" table.toList) := by
  have hhead : Clear (definition "TABLE" []) := by decide
  have hspaced : Text.Spaced Text.Solid (definition "TABLE" table.toList) :=
    .cons (by decide) (.cons (by decide) (.word h.solid))
  have hclear : Clear (definition "TABLE" table.toList) := by
    rw [definition_eq_append]
    exact hhead.append fun c hc => isClear_of_isWord (h.2 c hc)
  exact ⟨hclear, .clear hclear, hspaced.trimmed, _, rfl⟩

/-- The definition of a field by its type alone. -/
def typedField (field table : String) (type : List Char) : List Char :=
  definition "FIELD" (onTable field.toList table.toList (' ' :: ("TYPE".toList ++ ' ' :: type)))

/-- A definition of a field that ends with its type is one statement, however the table is
written. -/
theorem isOneStatement_onTable {key table type : List Char} (hkey : Clear key)
    (htable : Clear table) (htype : Clear type) (hne : type ≠ [])
    (hlast : ∀ c, type.getLast? = some c → Text.isBlank c = false) :
    IsOneStatement
      (definition "FIELD" (onTable key table (' ' :: ("TYPE".toList ++ ' ' :: type)))) where
  confined := by
    have hhead : Clear (definition "FIELD" []) := by decide
    have hon : Clear (' ' :: ("ON".toList ++ [' '])) := by decide
    have hkeyword : Clear (' ' :: ("TYPE".toList ++ [' '])) := by decide
    have hsplit : definition "FIELD" (onTable key table (' ' :: ("TYPE".toList ++ ' ' :: type))) =
        definition "FIELD" [] ++ (key ++ ((' ' :: ("ON".toList ++ [' '])) ++ (table ++
          ((' ' :: ("TYPE".toList ++ [' '])) ++ type)))) := by
      rw [definition_eq_append]
      simp only [onTable, List.append_assoc, List.cons_append, List.nil_append]
    rw [hsplit]
    exact .clear (hhead.append (hkey.append (hon.append (htable.append (hkeyword.append htype)))))
  trimmed := by
    constructor
    · intro c hc
      rw [← Option.some.inj hc]
      decide
    · have hsplit : definition "FIELD" (onTable key table (' ' :: ("TYPE".toList ++ ' ' :: type))) =
          definition "FIELD" (onTable key table (' ' :: ("TYPE".toList ++ [' ']))) ++ type := by
        rw [definition_append]
        simp only [onTable, List.append_assoc, List.cons_append, List.nil_append]
      intro c hc
      rw [hsplit, List.getLast?_append_of_ne_nil _ hne] at hc
      exact hlast c hc
  define := ⟨_, rfl⟩

/-- The definition of a field by its type alone is one statement. -/
theorem isOneStatement_typedField {field table : String} (hfield : IsPlainName field)
    (htable : IsPlainName table) {type : List Char} (htype : IsClauseText type)
    (hclear : Clear type) : IsOneStatement (typedField field table type) :=
  isOneStatement_onTable hfield.clear htable.clear hclear htype.ne_nil htype.trimmed.2

/-- The clauses of a field with nothing but a type. -/
theorem fieldOfClauses_type (name : String) {type : List Char} (htype : IsClauseText type) :
    fieldOfClauses name (' ' :: ("TYPE".toList ++ ' ' :: type) ++ [';']) =
      { name
        kind := (Descriptor.ofTypeText type).kind
        isOptional := (Descriptor.ofTypeText type).isOptional
        description := none
        defaultValue := none
        reference := (Descriptor.ofTypeText type).reference } := by
  -- A type by itself is a row of clauses without a marker, a default and a comment.
  let clauses : TypedClauses := ⟨type, false, none, none⟩
  have hvalid : clauses.Valid := ⟨htype, by simp [clauses], by simp [clauses]⟩
  have htext : clauses.text = ' ' :: ("TYPE".toList ++ ' ' :: type) := by
    simp [clauses, TypedClauses.text, TypedClauses.front, TypedClauses.typeText,
      TypedClauses.markerText, TypedClauses.defaultText, TypedClauses.commentText]
  have hread := hvalid.fieldOfClauses_eq (Or.inr rfl) name
  rw [htext] at hread
  rw [hread]
  simp [clauses]

theorem typedField_append (field table : String) (type : List Char) :
    typedField field table type ++ [';'] =
      definition "FIELD" (onTable field.toList table.toList
        (' ' :: ("TYPE".toList ++ ' ' :: type) ++ [';'])) := by
  unfold typedField
  rw [definition_append]
  simp only [onTable, List.append_assoc, List.cons_append]

/-- The definition of a field by its type alone is read as such. -/
theorem definedField_typedField {field table : String} (hfield : IsPlainName field)
    (htable : IsPlainName table) {type : List Char} (htype : IsClauseText type)
    (hclear : Clear type) :
    definedField? (typedField field table type ++ [';']) = some (table,
      { name := field
        kind := (Descriptor.ofTypeText type).kind
        isOptional := (Descriptor.ofTypeText type).isOptional
        description := none
        defaultValue := none
        reference := (Descriptor.ofTypeText type).reference }) := by
  have hends : EndsName (' ' :: ("TYPE".toList ++ ' ' :: type) ++ [';']) :=
    Text.halts_cons (by decide) _
  have htrimmed := (isOneStatement_typedField hfield htable htype hclear).trimmed_append
  rw [typedField_append] at htrimmed ⊢
  rw [definedField_plain hfield htable hends htrimmed, fieldOfClauses_type field htype]

/-- The definition of a table by its name alone is read as such, even if the name is a modifier. -/
theorem definedTable_of_name {table : String} (h : IsWordName table.toList) :
    definedTable? (definition "TABLE" table.toList ++ [';']) = some table ∧
      comment? (definition "TABLE" table.toList ++ [';']) = none := by
  -- A modifier would have blanks behind it, and here the statement ends.
  have hword : ∀ {word : String}, Text.Capitals word.toList →
      Text.keywordThenBlanks? word (table.toList ++ [';']) = none := by
    intro word hcapitals
    rw [Option.eq_none_iff_forall_ne_some]
    intro after hafter
    obtain ⟨-, hblanks⟩ := Text.spells_of_keywordThenBlanks hcapitals Text.delimits_isWord h.2
      (Text.halts_cons (by decide) []) hafter
    contradiction
  have hmodifier : afterModifier? (table.toList ++ [';']) = none := by
    unfold afterModifier?
    rw [hword (by decide), hword (by decide)]
    rfl
  constructor
  · unfold definedTable? behindOptional
    rw [definition_append, afterDefine_definition (by decide) (by decide) (h.solid.halts_append _),
      Option.bind_some, hmodifier, tableName_append h (Text.halts_cons (by decide) [])]
    simp
  · rw [comment_append foreign_semicolon, comment_of_clear (isOneStatement_table h).1]

/-- The text of both definitions, one on a line. -/
theorem typedField_text {table field : String} {text : List Char}
    (htable : IsOneStatement (definition "TABLE" table.toList))
    (hfield : IsOneStatement (typedField field table text)) :
    "DEFINE TABLE " ++ table ++ ";\nDEFINE FIELD " ++ field ++ " ON " ++ table ++ " TYPE " ++
        String.ofList text ++ ";" =
      String.ofList (['\n'].intercalate [terminated (definition "TABLE" table.toList),
        terminated (typedField field table text)]) := by
  have hfirst : "DEFINE TABLE ".toList = "DEFINE".toList ++ ' ' :: ("TABLE".toList ++ [' ']) := rfl
  have hsecond : ";\nDEFINE FIELD ".toList =
      ';' :: '\n' :: ("DEFINE".toList ++ ' ' :: ("FIELD".toList ++ [' '])) := rfl
  have hon : " ON ".toList = ' ' :: ("ON".toList ++ [' ']) := rfl
  have hkeyword : " TYPE ".toList = ' ' :: ("TYPE".toList ++ [' ']) := rfl
  have hend : ";".toList = [';'] := rfl
  rw [htable.confined.terminated htable.trimmed, hfield.confined.terminated hfield.trimmed]
  apply String.toList_inj.mp
  simp only [String.toList_append, String.toList_ofList]
  rw [hfirst, hsecond, hon, hkeyword, hend]
  unfold typedField definition onTable
  simp only [List.intercalate_cons_cons, List.intercalate_singleton, List.append_assoc,
    List.cons_append, List.nil_append]

end Ddl
end SurrealSchema
