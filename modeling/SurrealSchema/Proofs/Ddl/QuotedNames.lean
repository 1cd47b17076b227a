import SurrealSchema.Proofs.Ddl.Invariant
import SurrealSchema.Proofs.Ddl.TypedFields
import SurrealSchema.Proofs.TypeExpr.Printing

namespace SurrealSchema
namespace Ddl

open TypeExpr (IsSpelling)

/-!
# Names between backticks in documents

The name of a table may stand between backticks in its definition, in the definitions of its fields
and in the types of pointers to it.  In a definition only a word is taken for a name, with backticks
or without, so every table of a document is named by a word.  In a type any name may stand between
backticks, but the text of the type ends in front of a keyword even there.

Main statements: `isWordName_of_mem_parse`, `reference_pointerType_iff`, `parse_quotedPair`.
-/

/-! ## Tables are named by words -/

theorem isWordName_of_tableName {text name rest : List Char}
    (h : tableName? text = some (name, rest)) : IsWordName name := by
  unfold tableName? at h
  dsimp only at h
  split at h
  · contradiction
  · next hne =>
      obtain ⟨rfl, -⟩ := Prod.mk.inj (Option.some.inj h)
      exact ⟨by simpa using hne, fun c hc => List.mem_takeWhile_imp hc⟩

theorem isWordName_of_definedTable {statement : List Char} {name : String}
    (h : definedTable? statement = some name) : IsWordName name.toList := by
  obtain ⟨⟨found, rest⟩, hfound, rfl⟩ := Option.map_eq_some_iff.mp h
  obtain ⟨behind, -, hread⟩ := Option.bind_eq_some_iff.mp hfound
  obtain ⟨text, htext⟩ := exists_of_behindOptional hread
  rw [String.toList_ofList]
  exact isWordName_of_tableName htext

/-- A line brings no name but that of the table which it defines. -/
theorem Outline.mem_names_enter {outline : Outline} {kind : Line} {name : String}
    (h : name ∈ (outline.enter kind).names) : name ∈ outline.names ∨ kind = .table name := by
  cases kind with
  | blank | definition | other => exact Or.inl h
  | comment text =>
      unfold enter at h
      dsimp only at h
      split at h <;> exact Or.inl h
  | field definition =>
      unfold enter at h
      dsimp only at h
      split at h <;> exact Or.inl h
  | table defined =>
      have hadded : name ∈ addName outline.names defined := h
      unfold addName at hadded
      split at hadded
      · exact Or.inl hadded
      · rcases List.mem_append.mp hadded with hknown | hnew
        · exact Or.inl hknown
        · rw [List.mem_singleton.mp hnew]
          exact Or.inr rfl

/-- Whatever has been read, the tables are named by words. -/
theorem State.isWordName_run (lines : List (List Char)) :
    ∀ name ∈ (run lines).outline.names, IsWordName name.toList := by
  induction lines using List.reverseRecOn with
  | nil =>
      intro name hname
      contradiction
  | append_singleton lines line ih =>
      rw [run_append_singleton, outline_step]
      intro name hname
      rcases Outline.mem_names_enter hname with hknown | hdefined
      · exact ih name hknown
      · exact isWordName_of_definedTable ((Line.ofTrimmed_eq_table_iff _ name).mp hdefined)

/-- **Every table of a document is named by a word.** -/
theorem isWordName_of_mem_parse {document : String} {table : Table} (h : table ∈ parse document) :
    IsWordName table.name.toList := by
  have hnames := congrArg Outline.names (State.outline_close (State.run (logicalLines document)))
  apply State.isWordName_run (logicalLines document)
  rw [← hnames]
  exact List.mem_map_of_mem h

/-! ## Definitions with names between backticks -/

/-- The definition of a table by its name between backticks. -/
def quotedTable (name : String) : List Char :=
  definition "TABLE" (Token.backticked name.toList)

/-- The type clause of a field and the semicolon behind it. -/
def typeClause (type : List Char) : List Char :=
  ' ' :: ("TYPE".toList ++ ' ' :: type) ++ [';']

/-- The definition of a field by its type alone, of a table between backticks. -/
def quotedField (field table : String) (type : List Char) : List Char :=
  definition "FIELD" (onTable field.toList (Token.backticked table.toList)
    (' ' :: ("TYPE".toList ++ ' ' :: type)))

theorem clear_backticked {name : List Char} (h : IsWordName name) :
    Clear (Token.backticked name) := by
  have hmark : Clear ['`'] := by decide
  have hname : Clear name := fun c hc => isClear_of_isWord (h.2 c hc)
  exact hmark.append (hname.append hmark)

/-- The definition of a table by its name between backticks is one statement, and it is read as
such. -/
theorem quotedTable_reads {name : String} (h : IsWordName name.toList) :
    IsOneStatement (quotedTable name) ∧
      definedTable? (quotedTable name ++ [';']) = some name ∧
      comment? (quotedTable name ++ [';']) = none := by
  have hclear : Clear (quotedTable name) := by
    have hhead : Clear (definition "TABLE" []) := by decide
    unfold quotedTable
    rw [definition_eq_append]
    exact hhead.append (clear_backticked h)
  have hspaced : Text.Spaced Text.Solid (quotedTable name) :=
    .cons (by decide) (.cons (by decide) (.word (Token.solid_backticked h.solid.2)))
  refine ⟨⟨.clear hclear, hspaced.trimmed, _, rfl⟩, ?_, ?_⟩
  · unfold quotedTable
    rw [definedTable_backticked h, String.ofList_toList]
  · rw [comment_append foreign_semicolon, comment_of_clear hclear]

/-- So is the definition of a field of a table between backticks. -/
theorem quotedField_reads {field table : String} (hfield : IsPlainName field)
    (htable : IsWordName table.toList) {type : List Char} (hclear : Clear type)
    (hsolid : Text.Solid type) :
    IsOneStatement (quotedField field table type) ∧
      definedField? (quotedField field table type ++ [';']) =
        some (table, fieldOfClauses field (typeClause type)) := by
  have hone : IsOneStatement (quotedField field table type) :=
    isOneStatement_onTable hfield.clear (clear_backticked htable) hclear hsolid.1
      fun c hc => hsolid.2 c (List.mem_of_getLast? hc)
  have hsplit : quotedField field table type ++ [';'] = definition "FIELD"
      (onTable field.toList (Token.backticked table.toList) (typeClause type)) := by
    unfold quotedField typeClause
    rw [definition_append]
    simp only [onTable, List.append_assoc, List.cons_append]
  have htrimmed := hone.trimmed_append
  rw [hsplit] at htrimmed
  refine ⟨hone, ?_⟩
  rw [hsplit, definedField?, fieldParts_backticked hfield.isWordName.solid htable htrimmed]
  simp [hfield.isPartName]

/-! ## Pointers to names between backticks -/

/-- The type of a pointer to a table between backticks. -/
def pointerType (table : String) : List Char :=
  "record<".toList ++ (Token.backticked table.toList ++ ['>'])

theorem clear_pointerType {table : String} (h : IsWordName table.toList) :
    Clear (pointerType table) := by
  have hhead : Clear "record<".toList := by decide
  have hend : Clear ['>'] := by decide
  exact hhead.append ((clear_backticked h).append hend)

theorem solid_pointerType {table : String} (h : ∀ c ∈ table.toList, Text.isBlank c = false) :
    Text.Solid (pointerType table) := by
  have hhead : Text.Solid "record<".toList := by decide
  have hend : Text.Solid ['>'] := by decide
  exact hhead.append ((Token.solid_backticked h).append hend.2).2

/-- Whether the text of a type goes on through a name: it is no keyword at which a type ends, and no
comment starts in it. -/
structure KeepsType (name : String) : Prop where
  noKeyword : name ∉ typeEnds
  noComment : ¬ "COMMENT".toList <:+: name.toList

instance (name : String) : Decidable (KeepsType name) :=
  decidable_of_iff (name ∉ typeEnds ∧ ¬ "COMMENT".toList <:+: name.toList)
    ⟨fun h => ⟨h.1, h.2⟩, fun h => ⟨h.noKeyword, h.noComment⟩⟩

/-- A pointer to a name between backticks is parsed, whatever the name is. -/
theorem parse_pointerType {table : String} (hne : table.toList ≠ []) (h : '`' ∉ table.toList) :
    TypeExpr.parse (pointerType table) = .ok (.named "record" [.named table []]) := by
  have hnone : ∀ c ∈ ([] : List Char), Tokens.isGap c = true := List.forall_mem_nil _
  have hlayout : TypeExpr.Layout IsSpelling [.name "record", .opening, .name table, .closing]
      ("record".toList ++ ([] ++ (['<'] ++ ([] ++ (Token.backticked table.toList ++
        ([] ++ ['>'])))))) :=
    .cons _ (TypeExpr.isSpelling_name (by decide)) hnone <|
      .cons _ (TypeExpr.isSpelling_mark rfl) hnone <|
      .cons _ (TypeExpr.isSpelling_quotedName hne h) hnone <|
      .last (TypeExpr.isSpelling_mark rfl)
  have hsentence : TypeExpr.isSentence (.named "record" [.named table []]) = true := rfl
  exact TypeExpr.parse_of_layout hsentence hlayout fun _ _ _ hspelling => hspelling

/-- No clause starts or ends in a pointer to such a name. -/
theorem KeepsType.free_pointerType {table : String} (hkeeps : KeepsType table)
    (h : IsWordName table.toList) : FreeOfClauses (pointerType table) := by
  have hname : FreeOfClauses table.toList := by
    refine .of_run h.2 ?_ hkeeps.noComment
    intro word hmem heq
    exact hkeeps.noKeyword (String.toList_inj.mp heq ▸ hmem)
  have hmark : Text.isWord '`' = false := by decide
  have hend : FreeOfClauses ['`', '>'] :=
    .cons hmark (by decide) (.cons (by decide) (by decide) .nil)
  have hquoted : FreeOfClauses ('`' :: (table.toList ++ ['`', '>'])) :=
    .cons hmark (by decide) (hname.append (Text.halts_cons hmark _) hend)
  have hletters : ("record".toList.all Text.isWord) = true := by decide
  have hrecord : FreeOfClauses "record".toList :=
    .of_run (List.all_eq_true.mp hletters) (by decide) (by decide)
  have hopened : FreeOfClauses ('<' :: '`' :: (table.toList ++ ['`', '>'])) :=
    .cons (by decide) (by decide) hquoted
  have hsplit : pointerType table =
      "record".toList ++ '<' :: '`' :: (table.toList ++ ['`', '>']) := by
    show "record".toList ++ '<' :: (Token.backticked table.toList ++ ['>']) = _
    rw [Token.backticked_append]
  rw [hsplit]
  exact hrecord.append (Text.halts_cons (by decide) _) hopened

/-- **A field of such a type points at the table**, if the text of the type goes on through the
name. -/
theorem fieldOfClauses_pointerType (field : String) {table : String}
    (h : IsWordName table.toList) (hkeeps : KeepsType table) :
    fieldOfClauses field (typeClause (pointerType table)) =
      ⟨field, .record, false, none, none, some ⟨table, false⟩⟩ := by
  have hsolid := solid_pointerType h.solid.2
  have hfree := hkeeps.free_pointerType h
  have hbacktick : '`' ∉ table.toList := h.not_mem (by decide)
  have htrimmed : Text.Trimmed (pointerType table) := (Text.Spaced.word hsolid).trimmed
  have htext := Descriptor.typeText_eq_self htrimmed hfree.semicolon
    (Descriptor.passes_atReferenceClause_of_solid hsolid.2)
  have hdescribes : Descriptor.ofTypeText (pointerType table) = .pointing .record table := by
    rw [Descriptor.ofTypeText_of_parse htext hsolid.1 (parse_pointerType h.1 hbacktick)]
    rfl
  rw [typeClause, fieldOfClauses_type field ⟨htrimmed, hsolid.1, hfree⟩, hdescribes]
  rfl

/-- A backtick that is not closed starts no token. -/
theorem readToken_unclosed {more : List Char} (h : '`' ∉ more) :
    TypeExpr.readToken ('`' :: more) = none := by
  have hname : Token.backtickName? more = none := by
    have hall : more.takeWhile (· != '`') = more := by
      rw [List.takeWhile_eq_self_iff]
      intro c hc
      rw [bne_iff_ne]
      rintro rfl
      exact h hc
    simp [Token.backtickName?, hall]
  have hnumber : TypeExpr.number? ('`' :: more) = none :=
    TypeExpr.number?_eq_none (by decide) (by decide) more
  simp [TypeExpr.readToken, hnumber, hname]

/-- A pointer whose backtick is not closed is no type expression. -/
theorem parse_unclosed {more : List Char} (h : '`' ∉ more) (type : TypeExpr) :
    TypeExpr.parse ("record<`".toList ++ more) ≠ .ok type := by
  intro hparse
  obtain ⟨kinds, -, hcuts, -, -⟩ := Grammar.exists_cuts_of_parse hparse
  -- The word and the bracket are read, and then nothing.
  have hword : TypeExpr.readToken ("record<`".toList ++ more) = some (.name "record", 5) := rfl
  obtain ⟨kind, length, rest, hread, -, hcuts⟩ := hcuts.exists_token (by decide)
  obtain ⟨-, rfl⟩ := Prod.mk.inj (Option.some.inj (hword.symm.trans hread))
  have hbracket : TypeExpr.readToken ('<' :: '`' :: more) = some (.opening, 0) := rfl
  obtain ⟨kind, length, rest, hread, -, hcuts⟩ := hcuts.exists_token (by decide)
  obtain ⟨-, rfl⟩ := Prod.mk.inj (Option.some.inj (hbracket.symm.trans hread))
  obtain ⟨kind, length, rest, hread, -, -⟩ := hcuts.exists_token (by decide)
  exact Option.some_ne_none _ (hread.symm.trans (readToken_unclosed h))

theorem solid_unclosed {more : List Char} (hword : ∀ c ∈ more, Text.isWord c = true) :
    Text.Solid ("record<`".toList ++ more) := by
  have hhead : Text.Solid "record<`".toList := by decide
  exact hhead.append fun c hc => Text.isBlank_of_isWord (hword c hc)

/-- It points at no table. -/
theorem reference_ofTypeText_unclosed {more : List Char}
    (hword : ∀ c ∈ more, Text.isWord c = true) :
    (Descriptor.ofTypeText ("record<`".toList ++ more)).reference = none := by
  have hmark : ∀ {mark : Char}, Text.isWord mark = false → mark ∉ more := by
    intro mark hmark hmem
    rw [hword mark hmem] at hmark
    contradiction
  have hsolid := solid_unclosed hword
  have hsemicolon : ';' ∉ "record<`".toList ++ more := by
    have hhead : ';' ∉ "record<`".toList := by decide
    rw [List.mem_append, not_or]
    exact ⟨hhead, hmark (by decide)⟩
  have htext := Descriptor.typeText_eq_self (Text.Spaced.word hsolid).trimmed hsemicolon
    (Descriptor.passes_atReferenceClause_of_solid hsolid.2)
  unfold Descriptor.ofTypeText
  rw [htext]
  split
  · rfl
  · split
    · next type hparse => exact absurd hparse (parse_unclosed (hmark (by decide)) type)
    · rfl

/-- A text that is cut at a character of its middle part is cut in that part. -/
theorem exists_of_cut {c : Char} {front middle back before rest : List Char} (hfront : c ∉ front)
    (hback : c ∉ back) (heq : front ++ (middle ++ back) = before ++ c :: rest) :
    ∃ passed, before = front ++ passed ∧ passed <+: middle := by
  rcases List.append_eq_append_iff.mp heq with ⟨passed, rfl, hrest⟩ | ⟨more, rfl, hrest⟩
  · refine ⟨passed, rfl, ?_⟩
    rcases List.append_eq_append_iff.mp hrest with ⟨more, rfl, hmore⟩ | ⟨more, rfl, -⟩
    · rw [hmore] at hback
      exact absurd (by simp) hback
    · exact List.prefix_append passed more
  · cases more with
    | nil => exact ⟨[], by simp, List.nil_prefix⟩
    | cons d more =>
        rw [(List.cons.inj hrest).1] at hfront
        exact absurd (by simp) hfront

/-- A type clause that breaks off in the name has the type up to there. -/
theorem exists_declaredType_of_word {passed : List Char}
    (hword : ∀ c ∈ passed, Text.isWord c = true) :
    ∃ more, (∀ c ∈ more, Text.isWord c = true) ∧
      declaredType (" TYPE record<`".toList ++ passed) = "record<`".toList ++ more := by
  obtain ⟨rest, hrest⟩ := Text.upTo_append endsType (some '`') passed
  have hmore : ∀ c ∈ Text.upTo endsType (some '`') passed, Text.isWord c = true := by
    intro c hc
    apply hword c
    rw [hrest]
    exact List.mem_append_left rest hc
  refine ⟨Text.upTo endsType (some '`') passed, hmore, ?_⟩
  have hclause : declaredType (" TYPE record<`".toList ++ passed) =
      Text.trimEnd ("record<`".toList ++ Text.upTo endsType (some '`') passed) := rfl
  rw [hclause]
  exact Text.dropTrailing_eq_self (Text.Spaced.word (solid_unclosed hmore)).trimmed.2

/-- The text of the type ends in front of a comment that starts in the name. -/
theorem exists_declaredType_of_comment {table : String} (h : IsWordName table.toList)
    (hcomment : "COMMENT".toList <:+: table.toList) :
    ∃ more, (∀ c ∈ more, Text.isWord c = true) ∧
      declaredType (beforeComment (typeClause (pointerType table))) =
        "record<`".toList ++ more := by
  have hsplit : typeClause (pointerType table) =
      " TYPE record<`".toList ++ (table.toList ++ "`>;".toList) := by
    have hhead : " TYPE record<`".toList =
        ' ' :: ("TYPE".toList ++ ' ' :: ("record<".toList ++ ['`'])) := by decide +kernel
    have hend : "`>;".toList = ['`', '>', ';'] := by decide +kernel
    rw [hhead, hend]
    unfold typeClause pointerType Token.backticked
    simp only [List.append_assoc, List.cons_append, List.nil_append]
  have hstands : "COMMENT".toList <:+: typeClause (pointerType table) :=
    hcomment.trans ⟨_, _, by rw [hsplit, List.append_assoc]⟩
  have hne : "COMMENT".toList ≠ [] := by decide
  obtain ⟨before, rest, hcut⟩ := exists_cutAt_of_infix hne hstands
  have heq : typeClause (pointerType table) = before ++ 'C' :: ("OMMENT".toList ++ rest) :=
    eq_of_cutAt hcut
  rw [hsplit] at heq
  obtain ⟨passed, rfl, hpassed⟩ := exists_of_cut (by decide) (by decide) heq
  have hbefore : beforeComment (typeClause (pointerType table)) =
      " TYPE record<`".toList ++ passed := by
    unfold beforeComment
    rw [hcut]
  rw [hbefore]
  exact exists_declaredType_of_word fun c hc => h.2 c (hpassed.subset hc)

/-- Where the text of the type breaks off in the name, the field has no pointer. -/
theorem reference_pointerType_eq_none (field : String) {table : String}
    (h : IsWordName table.toList) (hkeeps : ¬ KeepsType table) :
    (fieldOfClauses field (typeClause (pointerType table))).reference = none := by
  unfold fieldOfClauses
  dsimp only
  by_cases hkeyword : table ∈ typeEnds
  · have hnone : ∀ word ∈ typeEnds, (Descriptor.ofTypeText (declaredType
        (beforeComment (typeClause (pointerType word))))).reference = none := by
      decide +kernel
    exact hnone table hkeyword
  · have hcomment : "COMMENT".toList <:+: table.toList := by
      by_contra hnone
      exact hkeeps ⟨hkeyword, hnone⟩
    obtain ⟨more, hmore, hdeclared⟩ := exists_declaredType_of_comment h hcomment
    rw [hdeclared]
    exact reference_ofTypeText_unclosed hmore

/-- **A field of such a type points at the table exactly if the text of the type goes on through
the name.** -/
theorem reference_pointerType_iff (field : String) {table : String} (h : IsWordName table.toList) :
    (fieldOfClauses field (typeClause (pointerType table))).reference = some ⟨table, false⟩ ↔
      KeepsType table := by
  constructor
  · intro hreference
    by_contra hkeeps
    rw [reference_pointerType_eq_none field h hkeeps] at hreference
    contradiction
  · intro hkeeps
    rw [fieldOfClauses_pointerType field h hkeeps]

/-! ## Two tables -/

theorem indexOf_cons (table : Table) (tables : List Table) (name : String) :
    Table.indexOf? (table :: tables) name =
      if lowerName table.name = lowerName name then some 0
      else (Table.indexOf? tables name).map (· + 1) := by
  simp [Table.indexOf?, List.findIdx?_cons, Table.isNamed]

/-- The definitions of two tables with a field each, all names of the tables between backticks. -/
def quotedPair (first second f g : String) (type other : List Char) : List (List Char) :=
  [quotedTable first, quotedTable second, quotedField f first type, quotedField g second other]

/-- **Two tables that are defined between backticks are told apart**, and each gets the field that
is defined on it. -/
theorem parse_quotedPair {first second : String} (hfirst : IsWordName first.toList)
    (hsecond : IsWordName second.toList) (hne : lowerName first ≠ lowerName second)
    {f g : String} (hf : IsPlainName f) (hg : IsPlainName g) {type other : List Char}
    (htype : Clear type) (htypeSolid : Text.Solid type) (hother : Clear other)
    (hotherSolid : Text.Solid other) :
    parse (String.ofList (['\n'].intercalate
        ((quotedPair first second f g type other).map terminated))) =
      [⟨first, none, [fieldOfClauses f (typeClause type)]⟩,
        ⟨second, none, [fieldOfClauses g (typeClause other)]⟩] := by
  have hends : ∀ item ∈ (quotedPair first second f g type other).map terminated,
      Text.EndsInLine item := by
    intro item hmem
    obtain ⟨definition, -, rfl⟩ := List.mem_map.mp hmem
    exact endsInLine_terminated definition
  obtain ⟨honeFirst, hreadFirst, hcommentFirst⟩ := quotedTable_reads hfirst
  obtain ⟨honeSecond, hreadSecond, hcommentSecond⟩ := quotedTable_reads hsecond
  obtain ⟨honeF, hreadF⟩ := quotedField_reads hf hfirst htype htypeSolid
  obtain ⟨honeG, hreadG⟩ := quotedField_reads hg hsecond hother hotherSolid
  -- The first two lines add the tables, each of the others a field to one of them.
  obtain ⟨htable, hheading⟩ := rests_initial.read_table rfl honeFirst hreadFirst rfl
  rw [hcommentFirst] at htable
  have hnew : Table.indexOf? [⟨first, none, []⟩] second = none := by
    rw [indexOf_cons, if_neg hne]
    rfl
  obtain ⟨htables, hheading⟩ := htable.read_table hheading honeSecond hreadSecond hnew
  rw [hcommentSecond] at htables
  have hplaceFirst : Table.indexOf? [⟨first, none, []⟩, ⟨second, none, []⟩] first = some 0 := by
    rw [indexOf_cons, if_pos rfl]
  obtain ⟨hfield, hheading⟩ := htables.read_field_at hheading honeF hreadF hplaceFirst
  have hplaceSecond : ∀ fields,
      Table.indexOf? [⟨first, none, fields⟩, ⟨second, none, []⟩] second = some 1 := by
    intro fields
    rw [indexOf_cons, if_neg hne, indexOf_cons, if_pos rfl]
    rfl
  obtain ⟨hfields, -⟩ := hfield.read_field_at hheading honeG hreadG (hplaceSecond _)
  simp only [← State.read_append] at hfields
  rw [parse_intercalate hends, quotedPair, State.finish]
  show (State.close (State.initial.read ([terminated (quotedTable first)] ++
    [terminated (quotedTable second)] ++ [terminated (quotedField f first type)] ++
    [terminated (quotedField g second other)]))).tables = _
  rw [State.close_eq_self hfields.closed, hfields.known]
  rfl

end Ddl
end SurrealSchema
