import SurrealSchema.Proofs.Ddl.DefaultEnds
import SurrealSchema.Proofs.Ddl.TypedFields

namespace SurrealSchema
namespace Ddl

/-!
# Defaults between quotes

A field whose default is a text between double quotes.  Whatever that text is, the line of the
definition is one statement.  The searches for clauses do not know about quotes: a semicolon or a
keyword in the text ends the default, a marker in it makes the field optional, and the keyword of a
comment in it takes the rest of the line away.
-/

/-! ## The clauses -/

/-- The clauses of a field with a type, up to the value of the default. -/
def defaultOpening (type : List Char) : List Char :=
  ' ' :: "TYPE".toList ++ ' ' :: type ++ ' ' :: ("DEFAULT".toList ++ [' '])

/-- The clauses of a field with a type and a default between quotes. -/
def quotedDefault (type text : List Char) : List Char :=
  defaultOpening type ++ '"' :: (text ++ ['"', ';'])

/-- What the searches for clauses see behind the quote before a text. -/
def seenText (text : List Char) : List Char :=
  match cutAt? "COMMENT".toList text with
  | none => text ++ ['"', ';']
  | some (before, _) => before

section Clauses

variable {type text : List Char} (htype : IsClauseText type)
include htype

theorem free_typeClause : FreeOfClauses (' ' :: "TYPE".toList ++ ' ' :: type) := by
  have hkeyword : FreeOfClauses (' ' :: "TYPE".toList) := by decide
  exact hkeyword.append_space htype.free

/-- The keyword of a comment is found in the text between the quotes if it is found at all. -/
theorem cutAt_quotedDefault :
    cutAt? "COMMENT".toList (quotedDefault type text) =
      (cutAt? "COMMENT".toList text).map fun cut =>
        (defaultOpening type ++ '"' :: cut.1, cut.2 ++ ['"', ';']) := by
  have hopening : ¬ "COMMENT".toList <:+: defaultOpening type :=
    not_infix_append_space (free_typeClause htype).comment (by decide)
  have hpassed : ∀ passed, passed ≠ [] → passed <:+ defaultOpening type ++ ['"'] →
      ¬ "COMMENT".toList <+: passed ++ (text ++ ['"', ';']) := by
    intro passed hne hsuffix hstarts
    rcases List.suffix_concat_iff.mp hsuffix with rfl | ⟨shorter, rfl, hshorter⟩
    · exact hne rfl
    · rw [List.append_assoc] at hstarts
      have hstart := Text.prefix_append_mark (by decide) hstarts
      exact hopening (hstart.isInfix.trans hshorter.isInfix)
  have hsplit : quotedDefault type text =
      (defaultOpening type ++ ['"']) ++ (text ++ ['"', ';']) := by
    simp [quotedDefault]
  have hmarks : ∀ c ∈ ['"', ';'], c ∉ "COMMENT".toList := by simp
  rw [hsplit, cutAt_append_of_passed hpassed, cutAt_append (by decide) hmarks, Option.map_map]
  refine congrArg (Option.map · _) (funext fun cut => ?_)
  simp

omit htype in
/-- No payload starts behind the text, because the quote there is not followed by another one. -/
theorem payload_closing {rear : List Char} (hrear : '"' ∉ rear) :
    payload? (rear ++ ['"', ';']) = none := by
  have hcut : cutAt? ['"'] ['"', ';'] = some ([], [';']) := rfl
  unfold payload?
  rw [cutAt_append_of_not_mem hrear, hcut]
  rfl

variable (hquote : '"' ∉ text)
include hquote

theorem comment_quotedDefault : comment? (quotedDefault type text) = none := by
  unfold comment?
  rw [cutAt_quotedDefault htype]
  cases hcut : cutAt? "COMMENT".toList text with
  | none => rfl
  | some cut =>
      rw [Option.map_some]
      dsimp only
      rw [payload_closing fun hmem => hquote (mem_of_cutAt hcut hmem)]
      rfl

theorem withoutComment_quotedDefault :
    withoutComment (quotedDefault type text) = defaultOpening type ++ '"' :: seenText text := by
  unfold withoutComment seenText
  rw [cutAt_quotedDefault htype]
  cases hcut : cutAt? "COMMENT".toList text with
  | none => rfl
  | some cut =>
      rw [Option.map_some]
      dsimp only
      rw [payload_closing fun hmem => hquote (mem_of_cutAt hcut hmem)]

omit hquote in
theorem beforeComment_quotedDefault :
    beforeComment (quotedDefault type text) = defaultOpening type ++ '"' :: seenText text := by
  unfold beforeComment seenText
  rw [cutAt_quotedDefault htype]
  cases cutAt? "COMMENT".toList text <;> rfl

omit hquote in
/-- The type ends in front of the default, whatever that is. -/
theorem declaredType_defaultOpening (value : List Char) :
    declaredType (defaultOpening type ++ value) = type := by
  let clauses : TypedClauses := ⟨type, false, none, none⟩
  have hvalid : clauses.Valid := ⟨htype, by simp [clauses], by simp [clauses]⟩
  have hkeyword : "DEFAULT" ∈ typeEnds := by decide
  have hread := hvalid.declaredType_keyword hkeyword (' ' :: value) rfl
  have htext : clauses.typeText ++ ' ' :: ("DEFAULT".toList ++ ' ' :: value) =
      defaultOpening type ++ value := by
    unfold TypedClauses.typeText defaultOpening
    generalize "DEFAULT".toList = keyword
    simp [clauses]
  rw [htext] at hread
  exact hread

omit hquote in
/-- The default starts with its quote and goes on up to the first place that ends an expression. -/
theorem search_defaultOpening (behind : List Char) :
    (Text.search defaultClause? none (defaultOpening type ++ '"' :: behind)).map Prod.snd =
      some ('"' :: Text.trimEnd (Text.upTo endsExpression (some '"') behind)) := by
  have hsub : ∀ word ∈ ["DEFAULT", "VALUE"], word ∈ typeEnds := by decide
  have hstart : Text.Halts Text.isBlank ('"' :: behind) := Text.halts_cons (by decide) _
  have hvalue : expression? (' ' :: '"' :: behind) =
      some ('"' :: Text.trimEnd (Text.upTo endsExpression (some '"') behind)) := by
    have hquote : Text.isBlank '"' = false := by decide
    have hkept : Text.trimEnd ([] ++ '"' :: Text.upTo endsExpression (some '"') behind) =
        [] ++ '"' :: Text.trimEnd (Text.upTo endsExpression (some '"') behind) :=
      Text.dropTrailing_append_of_last hquote _
    unfold expression?
    rw [Text.afterBlanks_space hstart]
    exact congrArg some hkept
  have halways : alwaysExpression? (' ' :: '"' :: behind) = none := by
    unfold alwaysExpression?
    rw [Text.afterBlanks_space hstart]
    rfl
  have hfound := search_defaultClause
    (fun word hword => (free_typeClause htype).keywords word (hsub word hword)) hvalue halways
  have htext : defaultOpening type ++ '"' :: behind = ' ' :: "TYPE".toList ++ ' ' :: type ++
      ' ' :: ("DEFAULT".toList ++ ' ' :: '"' :: behind) := by
    unfold defaultOpening
    generalize "DEFAULT".toList = keyword
    simp
  rw [htext, hfound]

theorem default_quotedDefault :
    default? (quotedDefault type text) =
      some ('"' :: Text.trimEnd (Text.upTo endsExpression (some '"') (seenText text))) := by
  unfold default?
  rw [withoutComment_quotedDefault htype hquote, search_defaultOpening htype]
  rfl

/-- **What is read of a type and a default between quotes.** -/
theorem fieldOfClauses_quotedDefault (name : String) :
    fieldOfClauses name (quotedDefault type text) =
      { name
        kind := (Descriptor.ofTypeText type).kind
        isOptional := (Descriptor.ofTypeText type).isOptional ||
          hasOptionalMarker (defaultOpening type ++ '"' :: seenText text)
        description := none
        defaultValue := some (String.ofList
          ('"' :: Text.trimEnd (Text.upTo endsExpression (some '"') (seenText text))))
        reference := (Descriptor.ofTypeText type).reference } := by
  unfold fieldOfClauses
  dsimp only
  rw [beforeComment_quotedDefault htype, declaredType_defaultOpening htype,
    comment_quotedDefault htype hquote, default_quotedDefault htype hquote]
  rfl

end Clauses

/-! ## Texts that are read in full -/

/-- An expression goes on through a text in front of a mark exactly when neither a semicolon nor a
keyword that ends it is in the text. -/
theorem passes_endsExpression_iff {text rest : List Char} {before : Option Char}
    (hbefore : Text.afterWord before = false) (hrest : Text.Halts Text.isWord rest) :
    Text.Passes endsExpression rest before text ↔
      ';' ∉ text ∧ ∀ word ∈ expressionEnds, Text.Lacks (Text.keyword? word) text := by
  have hreads : ∀ word ∈ expressionEnds, Text.ReadsWord (Text.keyword? word) :=
    fun word hword => readsWord_of_mem_typeEnds (mem_typeEnds_of_mem hword)
  constructor
  · intro hpasses
    constructor
    · refine Text.not_mem_of_passes_head (hpasses.imp fun before text hhead => ?_)
      show (text.head? == some ';' || _) = true
      rw [hhead, Bool.true_or]
    · intro word hword
      refine (hreads word hword).lacks_of_passes hbefore hrest
        (hpasses.imp fun before text hread => ?_)
      have hkeyword : Text.atKeyword expressionEnds before text = true :=
        List.any_eq_true.mpr ⟨word, hword, hread⟩
      show (_ || Text.atKeyword expressionEnds before text) = true
      rw [hkeyword, Bool.or_true]
  · rintro ⟨hsemicolon, hlacks⟩
    exact (Text.passes_head hsemicolon).or (Text.passes_any fun word hword =>
      (hreads word hword).passes (hlacks word hword) hrest before)

/-- **The default is the whole text between its quotes exactly when no semicolon, no comment and no
keyword that ends an expression is in the text.** -/
theorem trimEnd_upTo_seenText_iff {text : List Char} :
    Text.trimEnd (Text.upTo endsExpression (some '"') (seenText text)) = text ++ ['"'] ↔
      ';' ∉ text ∧ ¬ "COMMENT".toList <:+: text ∧
        ∀ word ∈ ["PERMISSIONS", "ASSERT", "READONLY"], Text.Lacks (Text.keyword? word) text := by
  have hshorter : ∀ seen : List Char, (Text.trimEnd seen).length ≤ seen.length := by
    intro seen
    obtain ⟨dropped, hsplit, -⟩ := Text.dropTrailing_append Text.isBlank seen
    have hprefix : Text.trimEnd seen <+: seen := ⟨dropped, hsplit.symm⟩
    exact hprefix.length_le
  unfold seenText
  cases hcut : cutAt? "COMMENT".toList text with
  | some cut =>
      -- The closing quote is behind the comment, and so it is not seen.
      have hcomment : "COMMENT".toList <:+: text :=
        ⟨cut.1, cut.2, by rw [eq_of_cutAt hcut, List.append_assoc]⟩
      refine ⟨fun heq => ?_, fun h => absurd hcomment h.2.1⟩
      obtain ⟨rest, hrest⟩ := Text.upTo_append endsExpression (some '"') cut.1
      have hseen := hshorter (Text.upTo endsExpression (some '"') cut.1)
      have hlength := congrArg List.length (eq_of_cutAt hcut)
      have hfront := congrArg List.length hrest
      dsimp only at heq
      rw [heq] at hseen
      simp only [List.length_append, List.length_singleton] at hseen hlength hfront
      omega
  | none =>
      have hcomment : ¬ "COMMENT".toList <:+: text := by
        intro hstands
        obtain ⟨before, rest, hfound⟩ := exists_cutAt_of_infix (by decide) hstands
        rw [hcut] at hfound
        contradiction
      have hpasses : Text.Passes endsExpression ['"', ';'] (some '"') text ↔
          ';' ∉ text ∧ ∀ word ∈ expressionEnds, Text.Lacks (Text.keyword? word) text :=
        passes_endsExpression_iff (by decide) (Text.halts_cons (by decide) [';'])
      rw [expressionEnds, List.forall_mem_cons] at hpasses
      have hwhole : Text.trimEnd (Text.upTo endsExpression (some '"') (text ++ ['"', ';'])) =
          text ++ ['"'] ↔ Text.Passes endsExpression ['"', ';'] (some '"') text := by
        constructor
        · intro heq
          have hseen := hshorter (Text.upTo endsExpression (some '"') (text ++ ['"', ';']))
          rw [heq, List.length_append] at hseen
          exact Text.passes_of_length_le ((Nat.le_add_right _ _).trans hseen)
        · intro hall
          have hquote : Text.isBlank '"' = false := by decide
          have hend : ∀ before, Text.upTo endsExpression before ['"', ';'] = ['"'] := by
            intro before
            rw [Text.upTo, endsExpression_eq_false (by decide) (by decide), Text.upTo]
            rfl
          rw [Text.upTo_of_passes hall, hend]
          exact Text.dropTrailing_append_of_last hquote []
      dsimp only
      rw [hwhole, hpasses]
      exact ⟨fun h => ⟨h.1, hcomment, h.2.2⟩,
        fun h => ⟨h.1, lacks_keyword_of_not_infix h.2.1, h.2.2⟩⟩

/-- Without a comment in it, a text between quotes makes the field optional exactly when the marker
is a word of it. -/
theorem hasOptionalMarker_seenText {type text : List Char} (htype : IsClauseText type)
    (hcomment : ¬ "COMMENT".toList <:+: text) :
    hasOptionalMarker (defaultOpening type ++ '"' :: seenText text) = false ↔
      Text.Lacks (Text.keyword? "OPTIONAL") text := by
  have hreads : Text.ReadsWord (Text.keyword? "OPTIONAL") := readsWord_of_mem_typeEnds (by decide)
  have hopening : Text.Lacks (Text.keyword? "OPTIONAL") (defaultOpening type) :=
    hreads.lacks_append_space ((free_typeClause htype).keywords "OPTIONAL" (by decide)) (by decide)
  have hend : Text.Lacks (Text.keyword? "OPTIONAL") [';'] := by decide
  have hlacks : hasOptionalMarker (defaultOpening type ++ '"' :: seenText text) = false ↔
      Text.Lacks (Text.keyword? "OPTIONAL") (defaultOpening type ++ '"' :: seenText text) :=
    Option.isSome_eq_false_iff.trans Option.isNone_iff_eq_none
  rw [hlacks, hreads.lacks_append_mark_iff (by decide)]
  unfold seenText
  rw [cutAt_eq_none hcomment]
  dsimp only
  rw [hreads.lacks_append_mark_iff (by decide)]
  exact ⟨fun h => h.2.1, fun h => ⟨hopening, h, hend⟩⟩

/-! ## The definition -/

/-- The definition of a field with a default between quotes. -/
def quotedLine (text : List Char) : List Char :=
  definition "FIELD" (onTable "f".toList "t".toList (quotedDefault "string".toList text))

theorem quotedLine_eq (text : List Char) :
    quotedLine text = "DEFINE FIELD f ON t TYPE string DEFAULT ".toList ++
      '"' :: (text ++ ['"', ';']) := rfl

/-- The lines of the table and of the field are the whole document. -/
theorem document_quotedLine (text : String) :
    "DEFINE TABLE t;\nDEFINE FIELD f ON t TYPE string DEFAULT \"" ++ text ++ "\";" =
      String.ofList (['\n'].intercalate
        [terminated (definition "TABLE" "t".toList), quotedLine text.toList]) := by
  have hfront : "DEFINE TABLE t;\nDEFINE FIELD f ON t TYPE string DEFAULT \"".toList =
      terminated (definition "TABLE" "t".toList) ++
        '\n' :: ("DEFINE FIELD f ON t TYPE string DEFAULT ".toList ++ ['"']) := rfl
  have hend : "\";".toList = ['"', ';'] := rfl
  apply String.toList_inj.mp
  simp only [String.toList_append, String.toList_ofList]
  rw [hfront, hend, quotedLine_eq]
  simp only [List.intercalate_cons_cons, List.intercalate_singleton, List.append_assoc,
    List.cons_append, List.nil_append]

theorem trimmed_quotedLine (text : List Char) : Text.Trimmed (quotedLine text) := by
  have hends : quotedLine text =
      ("DEFINE FIELD f ON t TYPE string DEFAULT ".toList ++ '"' :: (text ++ ['"'])) ++ [';'] := by
    rw [quotedLine_eq]
    generalize "DEFINE FIELD f ON t TYPE string DEFAULT ".toList = front
    simp
  constructor
  · intro c hc
    rw [← Option.some.inj hc]
    decide
  · intro c hc
    rw [hends, List.getLast?_concat] at hc
    rw [← Option.some.inj hc]
    decide

theorem unbroken_quotedLine {text : List Char} (h : Text.Unbroken text) :
    Text.Unbroken (quotedLine text) := by
  have hfront : Text.Unbroken ("DEFINE FIELD f ON t TYPE string DEFAULT ".toList ++ ['"']) := by
    decide
  have hend : Text.Unbroken ['"', ';'] := by decide
  have hwhole := hfront.append (h.append hend)
  rw [List.append_assoc, List.singleton_append] at hwhole
  rw [quotedLine_eq]
  exact hwhole

theorem isTerminated_quotedLine (text : List Char) : isTerminated (quotedLine text) = true := by
  have hlast := isTerminated_append
    ("DEFINE FIELD f ON t TYPE string DEFAULT ".toList ++ '"' :: (text ++ ['"']))
  rw [List.append_assoc, List.cons_append, List.append_assoc] at hlast
  rw [quotedLine_eq]
  exact hlast

theorem definedField_quotedLine (text : List Char) :
    definedField? (quotedLine text) =
      some ("t", fieldOfClauses "f" (quotedDefault "string".toList text)) := by
  have htable : IsPlainName "t" := by decide
  have hfield : IsPlainName "f" := by decide
  have hends : EndsName (quotedDefault "string".toList text) := Text.halts_cons (by decide) _
  exact definedField_plain hfield htable hends (trimmed_quotedLine text)

section Line

variable {text : List Char} (hquote : '"' ∉ text) (hbackslash : '\\' ∉ text)
include hquote hbackslash

/-- The line is one statement, whatever is between the quotes. -/
theorem statements_quotedLine : statements (quotedLine text) = [quotedLine text] := by
  have hclear : Clear "DEFINE FIELD f ON t TYPE string DEFAULT ".toList := by decide
  have hend : Uncut none [';'] := by decide
  have hinside := (Enclosed.of_plain hbackslash hquote).uncut (by decide) hend
  have hopened : Uncut none ('"' :: (text ++ ['"', ';'])) := by
    apply hinside.cons
    rw [pieces, if_neg (by decide), if_pos (Or.inl rfl)]
  refine statements_of_uncut (List.cons_ne_nil _ _) (trimmed_quotedLine text) rfl ?_
  rw [quotedLine_eq]
  exact hopened.append_left hclear

variable (hunbroken : Text.Unbroken text)
include hunbroken

/-- A table and the field with its default are read as the table with that field. -/
theorem parse_quotedLine :
    parse (String.ofList (['\n'].intercalate
        [terminated (definition "TABLE" "t".toList), quotedLine text])) =
      [⟨"t", none, [fieldOfClauses "f" (quotedDefault "string".toList text)]⟩] := by
  have htable : IsPlainName "t" := by decide
  have htableText := (isOneStatement_table htable.isWordName).2
  have hends : ∀ item ∈ [terminated (definition "TABLE" "t".toList), quotedLine text],
      Text.EndsInLine item :=
    List.forall_mem_cons.mpr ⟨endsInLine_terminated _,
      List.forall_mem_singleton.mpr (unbroken_quotedLine hunbroken).endsInLine⟩
  have hitem : itemStatements (quotedLine text) = [quotedLine text] := by
    rw [itemStatements, Text.itemLines_of_unbroken (unbroken_quotedLine hunbroken),
      List.flatMap_singleton, statements_quotedLine hquote hbackslash]
  -- The first line adds the table, the second one the field to it.
  obtain ⟨hname, hcomment⟩ := definedTable_of_name htable.isWordName
  obtain ⟨hdeclared, hheading⟩ := rests_initial.read_table rfl htableText hname rfl
  rw [hcomment] at hdeclared
  have hplace : Table.indexOf? ([] ++ [⟨"t", none, []⟩]) "t" = some 0 := by decide
  obtain ⟨hread, -⟩ := hdeclared.read_field_line hheading hitem (trimmed_quotedLine text)
    (isTerminated_quotedLine text) (definedField_quotedLine text) hplace
  rw [parse_intercalate hends, ← List.singleton_append, State.read_append]
  unfold State.finish
  rw [State.close_eq_self hread.closed, hread.known]
  rfl

end Line

/-- **A default between quotes is read in full, and nothing else is read of it, exactly when it has
neither a semicolon nor a word in it that means something in a definition.**  Whatever it is, the
field is there with its type and with a default. -/
theorem parse_quotedDefault_iff {text : String} (hquote : '"' ∉ text.toList)
    (hbackslash : '\\' ∉ text.toList) (hunbroken : Text.Unbroken text.toList) :
    (∃ isOptional value,
      parse ("DEFINE TABLE t;\nDEFINE FIELD f ON t TYPE string DEFAULT \"" ++ text ++ "\";") =
        [⟨"t", none, [⟨"f", .string, isOptional, none, some value, none⟩]⟩]) ∧
    (parse ("DEFINE TABLE t;\nDEFINE FIELD f ON t TYPE string DEFAULT \"" ++ text ++ "\";") =
        [⟨"t", none, [⟨"f", .string, false, none, some ("\"" ++ text ++ "\""), none⟩]⟩] ↔
      ';' ∉ text.toList ∧ ¬ "COMMENT".toList <:+: text.toList ∧
        ∀ word ∈ ["PERMISSIONS", "ASSERT", "READONLY", "OPTIONAL"],
          Text.Lacks (Text.keyword? word) text.toList) := by
  have hspaced : Text.Spaced Text.Solid "string".toList := .word (by decide)
  have htype : IsClauseText "string".toList := ⟨hspaced.trimmed, by decide, by decide⟩
  have hdescriptor : Descriptor.ofTypeText "string".toList = .plain .string := by decide
  have hparse := parse_quotedLine hquote hbackslash hunbroken
  rw [fieldOfClauses_quotedDefault htype hquote, hdescriptor] at hparse
  rw [document_quotedLine, hparse]
  refine ⟨⟨_, _, rfl⟩, ?_⟩
  -- Only the default and the marker depend on the text.
  have hvalue : ∀ seen, String.ofList ('"' :: seen) = "\"" ++ text ++ "\"" ↔
      seen = text.toList ++ ['"'] := by
    intro seen
    rw [← String.toList_inj]
    simp
  have hfield : ∀ isOptional seen,
      ([⟨"t", none, [⟨"f", .string, isOptional, none, some (String.ofList ('"' :: seen)), none⟩]⟩] :
        List Table) =
          [⟨"t", none, [⟨"f", .string, false, none, some ("\"" ++ text ++ "\""), none⟩]⟩] ↔
        isOptional = false ∧ seen = text.toList ++ ['"'] := by
    intro isOptional seen
    rw [← hvalue seen]
    simp
  refine (hfield _ _).trans ?_
  have hwords : (∀ word ∈ ["PERMISSIONS", "ASSERT", "READONLY", "OPTIONAL"],
      Text.Lacks (Text.keyword? word) text.toList) ↔
        (∀ word ∈ ["PERMISSIONS", "ASSERT", "READONLY"],
          Text.Lacks (Text.keyword? word) text.toList) ∧
        Text.Lacks (Text.keyword? "OPTIONAL") text.toList := by
    simp [and_assoc]
  rw [trimEnd_upTo_seenText_iff, hwords]
  constructor
  · rintro ⟨hmarker, hsemicolon, hcomment, hends⟩
    exact ⟨hsemicolon, hcomment, hends, (hasOptionalMarker_seenText htype hcomment).mp hmarker⟩
  · rintro ⟨hsemicolon, hcomment, hends, hmarker⟩
    exact ⟨(hasOptionalMarker_seenText htype hcomment).mpr hmarker, hsemicolon, hcomment, hends⟩

/-- Words that mean something before a default may stand in it. -/
theorem parse_quotedDefault_words :
    '"' ∉ "VALUE -- it's a DEFAULT".toList ∧ '\\' ∉ "VALUE -- it's a DEFAULT".toList ∧
      Text.Unbroken "VALUE -- it's a DEFAULT".toList ∧
      parse ("DEFINE TABLE t;\nDEFINE FIELD f ON t TYPE string DEFAULT \"" ++
          "VALUE -- it's a DEFAULT" ++ "\";") =
        [⟨"t", none, [⟨"f", .string, false, none,
          some ("\"" ++ "VALUE -- it's a DEFAULT" ++ "\""), none⟩]⟩] := by
  have hquote : '"' ∉ "VALUE -- it's a DEFAULT".toList := by decide
  have hbackslash : '\\' ∉ "VALUE -- it's a DEFAULT".toList := by decide
  have hunbroken : Text.Unbroken "VALUE -- it's a DEFAULT".toList := by decide
  exact ⟨hquote, hbackslash, hunbroken,
    (parse_quotedDefault_iff hquote hbackslash hunbroken).2.mpr (by decide)⟩

/-- A semicolon between quotes ends the default. -/
theorem not_parse_quotedDefault_semicolon :
    parse ("DEFINE TABLE t;\nDEFINE FIELD f ON t TYPE string DEFAULT \"" ++ "a;b" ++ "\";") ≠
      [⟨"t", none, [⟨"f", .string, false, none, some ("\"" ++ "a;b" ++ "\""), none⟩]⟩] := by
  decide +kernel

end Ddl
end SurrealSchema
