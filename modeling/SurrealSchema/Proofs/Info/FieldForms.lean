import SurrealSchema.Info.Field
import SurrealSchema.Proofs.Ddl.TypedFields

namespace SurrealSchema
namespace Info

open Ddl (TypedClauses)

/-!
# The two forms of a field

A field is described by a definition statement or by a map of properties.  Both forms of the same
particulars give the same field, with one exception: the marker of an optional field makes the
value optional in either form, but only among properties it makes the pointer optional, too.

Main statements: `Particulars.Valid.toField_statement` and `Particulars.Valid.toField_properties`.
-/

/-- What a description of a field says about it in either form. -/
structure Particulars where
  table : String
  type : String
  isOptional : Bool
  default? : Option String
  comment? : Option String

namespace Particulars

/-- The form of a definition statement. -/
def statement (particulars : Particulars) (name : String) : FieldInfo :=
  .statement ("DEFINE FIELD " ++ name ++ " ON " ++ particulars.table ++ " TYPE " ++
    particulars.type ++ (if particulars.isOptional then " OPTIONAL" else "") ++
    particulars.default?.elim "" (fun value => " DEFAULT " ++ value) ++
    particulars.comment?.elim "" (fun comment => " COMMENT \"" ++ comment ++ "\""))

/-- The form of a map of properties. -/
def properties (particulars : Particulars) : FieldInfo :=
  .properties
    { type := particulars.type
      kind := .null
      isOptional := particulars.isOptional
      value := particulars.default?.elim .null .text
      comment := particulars.comment? }

/-- Whether the type is a plain type expression, and the default and the comment are single-spaced
texts that hide no clause and no end of the quotes. -/
structure Valid (particulars : Particulars) (type : TypeExpr) : Prop where
  table : Ddl.IsPlainName particulars.table
  sentence : type.isSentence = true
  plain : ∀ kind ∈ type.kinds, Ddl.IsPlain kind
  layout : TypeExpr.Layout Ddl.IsWritten type.kinds particulars.type.toList
  default : ∀ value ∈ particulars.default?, Text.Spaced Text.Solid value.toList ∧
    Ddl.FreeOfClauses value.toList ∧ ¬ "ALWAYS".toList <+: value.toList
  comment : ∀ comment ∈ particulars.comment?, comment ≠ "" ∧ '"' ∉ comment.toList ∧
    '\\' ∉ comment.toList ∧ Text.Spaced Text.Solid ('"' :: (comment.toList ++ ['"']))

/-- The clauses of the statement, with the type written in a given way. -/
def clauses (particulars : Particulars) (type : List Char) : TypedClauses :=
  ⟨type, particulars.isOptional, particulars.default?.map String.toList,
    particulars.comment?.map String.toList⟩

/-- The clauses behind the type. -/
def rear (particulars : Particulars) : List Char :=
  (particulars.clauses []).markerText ++ (particulars.clauses []).defaultText ++
    (particulars.clauses []).commentText

variable {particulars : Particulars} {type : TypeExpr} {name : String}

/-- The words of the statement up to the type. -/
def head (particulars : Particulars) (name : String) : List Char :=
  Ddl.definition "FIELD" (Ddl.onTable name.toList particulars.table.toList (' ' :: "TYPE".toList))

theorem definition_clauses (text : List Char) :
    Ddl.definition "FIELD" (Ddl.onTable name.toList particulars.table.toList
        (particulars.clauses text).text) =
      particulars.head name ++ ' ' :: (text ++ particulars.rear) := by
  unfold head rear TypedClauses.text TypedClauses.front TypedClauses.typeText
    TypedClauses.markerText TypedClauses.defaultText TypedClauses.commentText clauses
  unfold Ddl.definition Ddl.onTable
  simp only [List.append_assoc, List.cons_append]

theorem statement_eq :
    particulars.statement name = .statement (String.ofList (particulars.head name ++ ' ' ::
      (particulars.type.toList ++ particulars.rear))) := by
  have hdefine : "DEFINE FIELD ".toList =
      "DEFINE".toList ++ ' ' :: ("FIELD".toList ++ [' ']) := rfl
  have hon : " ON ".toList = ' ' :: ("ON".toList ++ [' ']) := rfl
  have htype : " TYPE ".toList = ' ' :: ("TYPE".toList ++ [' ']) := rfl
  have hmarker : (if particulars.isOptional then " OPTIONAL" else "").toList =
      (particulars.clauses []).markerText := by
    unfold TypedClauses.markerText clauses
    cases particulars.isOptional <;> rfl
  have hdefault : (particulars.default?.elim "" fun value => " DEFAULT " ++ value).toList =
      (particulars.clauses []).defaultText := by
    unfold TypedClauses.defaultText clauses
    cases particulars.default? with
    | none => rfl
    | some value => exact String.toList_append
  have hcomment : (particulars.comment?.elim "" fun comment =>
      " COMMENT \"" ++ comment ++ "\"").toList = (particulars.clauses []).commentText := by
    unfold TypedClauses.commentText clauses
    cases particulars.comment? with
    | none => rfl
    | some comment =>
        show (" COMMENT \"" ++ comment ++ "\"").toList = _
        rw [String.toList_append, String.toList_append]
        rfl
  unfold statement
  congr 1
  apply String.toList_inj.mp
  simp only [String.toList_append, String.toList_ofList]
  rw [hdefine, hon, htype, hmarker, hdefault, hcomment]
  unfold head rear Ddl.definition Ddl.onTable
  simp only [List.append_assoc, List.cons_append, List.nil_append]

/-- What follows the type is nothing or starts with a space. -/
theorem rear_eq (particulars : Particulars) :
    particulars.rear = [] ∨ ∃ more, particulars.rear = ' ' :: more := by
  unfold rear TypedClauses.markerText TypedClauses.defaultText TypedClauses.commentText clauses
  cases particulars.isOptional with
  | true => exact Or.inr ⟨_, rfl⟩
  | false =>
      cases particulars.default? with
      | some value => exact Or.inr ⟨_, rfl⟩
      | none =>
          cases particulars.comment? with
          | some comment => exact Or.inr ⟨_, rfl⟩
          | none => exact Or.inl rfl

/-- The clauses behind the type are spaced. -/
theorem Valid.spaced_append_rear (h : particulars.Valid type) {front : List Char}
    (hfront : Text.Spaced Text.Solid front) :
    Text.Spaced Text.Solid (front ++ particulars.rear) := by
  -- Each of the clauses is either missing or goes on behind a space.
  have hmarker : Text.Spaced Text.Solid (front ++ (particulars.clauses []).markerText) := by
    unfold TypedClauses.markerText
    split
    · exact hfront.append (.word (by decide))
    · simpa using hfront
  have hdefault : Text.Spaced Text.Solid (front ++ (particulars.clauses []).markerText ++
      (particulars.clauses []).defaultText) := by
    unfold TypedClauses.defaultText clauses
    cases hvalue : particulars.default? with
    | none => simpa [clauses, hvalue] using hmarker
    | some value => exact hmarker.append (.cons (by decide) (h.default value hvalue).1)
  have hcomment : Text.Spaced Text.Solid (front ++ (particulars.clauses []).markerText ++
      (particulars.clauses []).defaultText ++ (particulars.clauses []).commentText) := by
    unfold TypedClauses.commentText
    cases hcomment : (particulars.clauses []).comment? with
    | none => simpa using hdefault
    | some comment =>
        obtain ⟨text, htext, rfl⟩ := Option.map_eq_some_iff.mp hcomment
        exact hdefault.append (.cons (by decide) (h.comment text htext).2.2.2)
  unfold rear
  simpa using hcomment

/-- The clauses of the statement can be told apart when its blanks are collapsed. -/
theorem Valid.clauses (h : particulars.Valid type) :
    (particulars.clauses (Text.collapseBlanks particulars.type.toList)).Valid ∧
      Descriptor.ofTypeText (Text.collapseBlanks particulars.type.toList) = type.describe := by
  have hlayout := h.layout.collapseBlanks fun kind hmem spelling hwritten =>
    Ddl.solid_of_isPlain (h.plain kind hmem) hwritten
  obtain ⟨htype, hdescribe⟩ := Ddl.ofTypeText_of_layout h.sentence h.plain hlayout
  refine ⟨⟨htype, ?_, ?_⟩, hdescribe⟩
  · intro value hvalue
    obtain ⟨text, htext, rfl⟩ := Option.map_eq_some_iff.mp hvalue
    obtain ⟨hspaced, hfree, halways⟩ := h.default text htext
    exact ⟨⟨hspaced.trimmed, hspaced.ne_nil fun _ hword => hword.1, hfree⟩, halways⟩
  · intro comment hcomment
    obtain ⟨text, htext, rfl⟩ := Option.map_eq_some_iff.mp hcomment
    obtain ⟨hne, hquote, hbackslash, -⟩ := h.comment text htext
    exact ⟨fun hnil => hne (String.toList_eq_nil_iff.mp hnil), hquote, hbackslash⟩

/-- Collapsing the blanks of the statement collapses those of the type and no others. -/
theorem Valid.collapseBlanks_statement (h : particulars.Valid type) (hname : Ddl.IsPlainName name) :
    Text.Spaced Text.Solid (particulars.head name ++ ' ' ::
        (Text.collapseBlanks particulars.type.toList ++ particulars.rear)) ∧
      Text.collapseBlanks (particulars.head name ++ ' ' ::
          (particulars.type.toList ++ particulars.rear)) =
        particulars.head name ++ ' ' ::
          (Text.collapseBlanks particulars.type.toList ++ particulars.rear) := by
  have hspace : Text.isBlank ' ' = true := by decide
  obtain ⟨htrimmed, hne⟩ := Ddl.trimmed_of_layout h.layout h.plain
  have hwords : Text.words particulars.type.toList ≠ [] := by
    obtain ⟨c, more, htext⟩ := List.exists_cons_of_ne_nil hne
    rw [htext]
    exact Text.words_ne_nil (htrimmed.1 c (by rw [htext]; rfl)) more
  have hhead : Text.Spaced Text.Solid (particulars.head name) :=
    .cons (by decide) (.cons (by decide) (.cons hname.isWordName.solid (.cons (by decide)
      (.cons h.table.isWordName.solid (.word (by decide))))))
  have hspaced : Text.Spaced Text.Solid (particulars.head name ++ ' ' ::
      (Text.collapseBlanks particulars.type.toList ++ particulars.rear)) := by
    have hrear := h.spaced_append_rear (hhead.append (Text.spaced_collapseBlanks hwords))
    rw [List.append_assoc, List.cons_append] at hrear
    exact hrear
  -- A spaced text is what any text of the same words collapses to.
  refine ⟨hspaced, Text.collapseBlanks_eq hspaced ?_⟩
  rw [Text.words_append_blank hspace, Text.words_append_blank hspace]
  rcases particulars.rear_eq with hrear | ⟨more, hrear⟩
  · rw [hrear, List.append_nil, List.append_nil, Text.words_collapseBlanks]
  · rw [hrear, Text.words_append_blank hspace, Text.words_append_blank hspace,
      Text.words_collapseBlanks]

/-- **The field of the statement.** -/
theorem Valid.toField_statement (h : particulars.Valid type) (hname : Ddl.IsPlainName name) :
    (particulars.statement name).toField name =
      { name
        kind := type.describe.kind
        isOptional := type.describe.isOptional || particulars.isOptional
        description := particulars.comment?
        defaultValue := particulars.default?
        reference := type.describe.reference } := by
  -- The statement is read with its blanks collapsed; its type is then a text of the same tokens.
  obtain ⟨hvalid, hdescribe⟩ := h.clauses
  obtain ⟨hspaced, hcollapse⟩ := h.collapseBlanks_statement hname
  have hends : Ddl.EndsName (particulars.clauses
      (Text.collapseBlanks particulars.type.toList)).text := Text.halts_cons (by decide) _
  have htrimmed := hspaced.trimmed
  rw [← definition_clauses] at htrimmed
  have hparts := Ddl.fieldParts_plain hname h.table hends htrimmed
  have hfield := hvalid.fieldOfClauses_eq (Or.inl rfl) name
  rw [List.append_nil] at hfield
  have hread : FieldInfo.fieldOfStatement name (String.ofList (particulars.head name ++ ' ' ::
      (particulars.type.toList ++ particulars.rear))) = Ddl.fieldOfClauses name
        (particulars.clauses (Text.collapseBlanks particulars.type.toList)).text := by
    unfold FieldInfo.fieldOfStatement
    dsimp only
    rw [String.toList_ofList, hcollapse, ← definition_clauses, hparts]
  rw [statement_eq, FieldInfo.toField, hread, hfield]
  have hback : ∀ text? : Option String,
      (text?.map String.toList).map String.ofList = text? := by
    intro text?
    cases text? with
    | none => rfl
    | some text => simp
  simp only [Particulars.clauses, hdescribe, hback]

/-- **The field of the properties.** -/
theorem Valid.toField_properties (h : particulars.Valid type) (name : String) :
    particulars.properties.toField name =
      { name
        kind := type.describe.kind
        isOptional := type.describe.isOptional || particulars.isOptional
        description := particulars.comment?
        defaultValue := particulars.default?
        reference := if particulars.isOptional then type.describe.optional.reference
          else type.describe.reference } := by
  have hdescribe := (Ddl.ofTypeText_of_layout h.sentence h.plain h.layout).2
  have hdescriptor : ∀ value, Properties.descriptor
      ⟨particulars.type, .null, particulars.isOptional, value, particulars.comment?⟩ =
        type.describe := by
    intro value
    rw [← hdescribe]
    rfl
  unfold properties FieldInfo.toField Properties.toField
  dsimp only
  rw [hdescriptor]
  cases particulars.isOptional with
  | true => cases particulars.default? <;> simp [Descriptor.optional, Value.display]
  | false => cases particulars.default? <;> simp [Value.display]

end Particulars

/-- A pointer stays as it is under an optional value where it points at the elements of a list or is
optional already. -/
theorem reference_optional_iff (descriptor : Descriptor) :
    descriptor.optional.reference = descriptor.reference ↔
      (descriptor.kind ≠ .arrayOfRecord →
        ∀ reference ∈ descriptor.reference, reference.isOptional = true) := by
  unfold Descriptor.optional
  by_cases hkind : descriptor.kind = .arrayOfRecord
  · simp [hkind]
  · cases hreference : descriptor.reference with
    | none => simp
    | some reference =>
        rcases reference with ⟨table, isOptional⟩
        cases isOptional <;> simp [hkind]

/-- **The two forms of a field agree in all but the pointer**, and in the pointer, too, unless a
marker makes a required pointer to single records optional. -/
theorem Particulars.toField_forms {particulars : Particulars} {type : TypeExpr} {name : String}
    (hname : Ddl.IsPlainName name) (h : particulars.Valid type) :
    (particulars.statement name).toField name =
        { particulars.properties.toField name with reference := type.describe.reference } ∧
      ((particulars.statement name).toField name = particulars.properties.toField name ↔
        (particulars.isOptional = true → type.describe.kind ≠ .arrayOfRecord →
          ∀ reference ∈ type.describe.reference, reference.isOptional = true)) := by
  rw [h.toField_statement hname, h.toField_properties]
  refine ⟨rfl, ?_⟩
  cases hoptional : particulars.isOptional with
  | false => simp
  | true =>
      rw [if_pos rfl]
      constructor
      · intro hsame _
        exact (reference_optional_iff type.describe).mp (congrArg Field.reference hsame).symm
      · intro hpointer
        rw [(reference_optional_iff type.describe).mpr (hpointer rfl)]

/-- A marked list of records, with a default and a comment: both forms are the same. -/
theorem toField_forms_likes :
    let particulars : Particulars :=
      ⟨"post", "array<record<user> , 8>", true, some "[]", some "Who likes it"⟩
    (particulars.statement "likes").toField "likes" =
        { particulars.properties.toField "likes" with reference := some ⟨"user", false⟩ } ∧
      ((particulars.statement "likes").toField "likes" = particulars.properties.toField "likes" ↔
        (true = true → Kind.arrayOfRecord ≠ Kind.arrayOfRecord →
          ∀ reference ∈ some (⟨"user", false⟩ : Reference), reference.isOptional = true)) := by
  let type : TypeExpr :=
    .named "array" [.named "record" [.named "user" []], .literal (.integer 8)]
  have hkinds : type.kinds = [.name "array", .opening, .name "record", .opening, .name "user",
    .closing, .comma, .number (.integer 8), .closing] := rfl
  have hlayout : TypeExpr.Layout Ddl.IsWritten type.kinds "array<record<user> , 8>".toList := by
    have hspace : ∀ c ∈ [' '], Tokens.isGap c = true := List.forall_mem_singleton.mpr rfl
    have hnone : ∀ c ∈ ([] : List Char), Tokens.isGap c = true := List.forall_mem_nil _
    have hclosing : TypeExpr.Layout Ddl.IsWritten [.closing] ">".toList := .last rfl
    exact TypeExpr.Layout.cons (.name "array") rfl hnone <|
      TypeExpr.Layout.cons .opening rfl hnone <|
      TypeExpr.Layout.cons (.name "record") rfl hnone <|
      TypeExpr.Layout.cons .opening rfl hnone <|
      TypeExpr.Layout.cons (.name "user") rfl hnone <|
      TypeExpr.Layout.cons .closing rfl hspace <|
      TypeExpr.Layout.cons .comma rfl hspace <|
      TypeExpr.Layout.cons (.number (.integer 8)) rfl hnone hclosing
  have hvalid : Particulars.Valid
      ⟨"post", "array<record<user> , 8>", true, some "[]", some "Who likes it"⟩ type :=
    { table := by decide
      sentence := by decide
      plain := by rw [hkinds]; decide
      layout := hlayout
      default := by
        rintro value ⟨⟩
        exact ⟨by decide, by decide, by decide⟩
      comment := by
        rintro comment ⟨⟩
        exact ⟨by decide, by decide, by decide, by decide +kernel⟩ }
  have hname : Ddl.IsPlainName "likes" := by decide
  exact Particulars.toField_forms hname hvalid

/-- The two forms of a marked link to a record differ: only among properties the pointer becomes
optional. -/
theorem not_toField_forms_eq :
    let particulars : Particulars := ⟨"post", "record<user>", true, none, none⟩
    particulars.Valid (.named "record" [.named "user" []]) ∧
      (particulars.statement "author").toField "author" ≠
        particulars.properties.toField "author" := by
  let type : TypeExpr := .named "record" [.named "user" []]
  have hkinds : type.kinds = [.name "record", .opening, .name "user", .closing] := rfl
  have hlayout : TypeExpr.Layout Ddl.IsWritten type.kinds "record<user>".toList := by
    have hnone : ∀ c ∈ ([] : List Char), Tokens.isGap c = true := List.forall_mem_nil _
    have hclosing : TypeExpr.Layout Ddl.IsWritten [.closing] ">".toList := .last rfl
    exact TypeExpr.Layout.cons (.name "record") rfl hnone <|
      TypeExpr.Layout.cons .opening rfl hnone <|
      TypeExpr.Layout.cons (.name "user") rfl hnone hclosing
  have hvalid : Particulars.Valid ⟨"post", "record<user>", true, none, none⟩ type :=
    { table := by decide
      sentence := by decide
      plain := by rw [hkinds]; decide
      layout := hlayout
      default := by rintro value ⟨⟩
      comment := by rintro comment ⟨⟩ }
  exact ⟨hvalid, by decide +kernel⟩

end Info
end SurrealSchema
