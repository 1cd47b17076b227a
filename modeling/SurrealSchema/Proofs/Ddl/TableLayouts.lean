import SurrealSchema.Proofs.Ddl.Alike
import SurrealSchema.Proofs.Ddl.CommentLines
import SurrealSchema.Proofs.Ddl.FieldClauses
import SurrealSchema.Proofs.Ddl.Items
import SurrealSchema.Proofs.Ddl.TablePhrases

namespace SurrealSchema
namespace Ddl

/-!
# Tables over two lines

The definition of a table with its comment clause on the same line and on the next one.  The clause
on the same line replaces the description of the table, the clause on the next line is only taken
where there is none yet; so the two layouts are read alike exactly where the table has no other
description so far.

The line break also matters behind the words `IF NOT EXISTS`, where without it `COMMENT` is the
name of the table.
-/

/-! ## Heads in front of blanks -/

section Heads

variable {text : List Char} (h : Text.Leaves Text.isBlank text) {b : Char}
  (hb : Text.isBlank b = true) (more : List Char)

theorem keywordThenBlanks_of_spells {word : String} (hspells : Text.Spells word.toList text) :
    Text.keywordThenBlanks? word text = none := by
  have hread := Text.afterLiteralAnyCase_of_spells hspells []
  rw [List.append_nil] at hread
  rw [Text.keywordThenBlanks?, hread]
  rfl

include hb in
theorem keywordThenBlanks_append_of_spells {word : String}
    (hspells : Text.Spells word.toList text) :
    Text.keywordThenBlanks? word (text ++ b :: more) = some (Text.trimStart more) := by
  rw [Text.keywordThenBlanks?, Text.afterLiteralAnyCase_of_spells hspells, Option.bind_some,
    Text.afterBlanks?, if_pos hb]
  rfl

include h hb in
/-- Blanks behind a text complete a keyword only if the text is the keyword. -/
theorem keywordThenBlanks_append_blank {word : String} (hcapitals : Text.Capitals word.toList)
    (hspells : ¬ Text.Spells word.toList text) :
    Text.keywordThenBlanks? word (text ++ b :: more) =
      (Text.keywordThenBlanks? word text).map (· ++ b :: more) := by
  have hhalts : Text.Halts Text.isWord (b :: more) :=
    Text.halts_cons (Text.isWord_of_isBlank hb) more
  unfold Text.keywordThenBlanks?
  rw [Text.afterLiteralAnyCase_append_of_halts hcapitals hhalts]
  cases hread : Text.afterLiteralAnyCase? word.toList text with
  | none => rfl
  | some behind =>
      obtain ⟨front, rfl, hfront⟩ := Text.spells_of_afterLiteralAnyCase hread
      rw [Option.map_some, Option.bind_some, Option.bind_some]
      cases behind with
      | nil =>
          rw [List.append_nil] at hspells
          exact absurd hfront hspells
      | cons c behind =>
          have hbehind := h.of_suffix (List.suffix_append front (c :: behind))
          rw [List.cons_append, Text.afterBlanks?, Text.afterBlanks?]
          split
          · next hc =>
              have hne := hbehind.ne_nil_of_cons hc
              rw [Option.map_some,
                (hbehind.of_suffix (List.suffix_cons c behind)).dropWhile_append hne]
          · rfl

include hb in
/-- The name of a table is read alike in front of blanks. -/
theorem map_fst_tableName_append_blank (text : List Char) :
    (tableName? (text ++ b :: more)).map Prod.fst = (tableName? text).map Prod.fst := by
  have hword : Text.Halts Text.isWord (b :: more) :=
    Text.halts_cons (Text.isWord_of_isBlank hb) more
  have hname : ∀ text, (tableName? text).map Prod.fst =
      let name := ((Text.afterLiteral? ['`'] text).getD text).takeWhile Text.isWord
      if name.isEmpty then none else some name := by
    intro text
    unfold tableName?
    dsimp only
    split <;> rfl
  have hbare : (Text.afterLiteral? ['`'] (text ++ b :: more)).getD (text ++ b :: more) =
      (Text.afterLiteral? ['`'] text).getD text ++ b :: more := by
    cases text with
    | nil =>
        have htick : '`' ≠ b := by
          rintro rfl
          exact absurd hb (by decide)
        simp [Text.afterLiteral?, List.isPrefixOf?, htick]
    | cons c text =>
        by_cases hc : '`' = c
        · subst hc
          simp [Text.afterLiteral?, List.isPrefixOf?]
        · simp [Text.afterLiteral?, List.isPrefixOf?, hc]
  rw [hname, hname, hbare, Text.takeWhile_append_of_halts hword]

end Heads

/-- Whether a text is the words `IF NOT EXISTS` and nothing more. -/
def IsCondition (text : List Char) : Prop :=
  ∃ last, (Text.keywordThenBlanks? "IF" text).bind (Text.keywordThenBlanks? "NOT") = some last ∧
    Text.Spells "EXISTS".toList last

section Comments

variable {text : List Char} (h : Text.Leaves Text.isBlank text) {b : Char}
  (hb : Text.isBlank b = true) {more : List Char}
  (hmore : ∃ clause, Text.trimStart more = 'C' :: clause)
include h hb hmore

/-- A modifier is read alike in front of a comment clause, if the clause does not complete it. -/
theorem afterModifier_append_blank (hoverwrite : ¬ Text.Spells "OVERWRITE".toList text)
    (hcondition : ¬ IsCondition text) :
    afterModifier? (text ++ b :: more) = (afterModifier? text).map (· ++ b :: more) := by
  have hnone : ∀ {word : String}, IsHeadWord word →
      Text.keywordThenBlanks? word (Text.trimStart more) = none :=
    fun hword => hword.keywordThenBlanks_comment hmore
  have hsuffix : ∀ {word : String} {text behind : List Char}, IsHeadWord word →
      Text.keywordThenBlanks? word text = some behind → behind <:+ text :=
    fun hword hread => (hword.behind hread).suffix
  unfold afterModifier?
  rw [keywordThenBlanks_append_blank h hb more (by decide) hoverwrite, Option.map_or]
  congr 1
  -- A word that the blanks complete is followed by the clause, so the next word is not read.
  by_cases hif : Text.Spells "IF".toList text
  · rw [keywordThenBlanks_append_of_spells hb more hif, keywordThenBlanks_of_spells hif,
      Option.bind_some, hnone (by decide)]
    rfl
  rw [keywordThenBlanks_append_blank h hb more (by decide) hif]
  cases hfirst : Text.keywordThenBlanks? "IF" text with
  | none => rfl
  | some second =>
      have hsecond := h.of_suffix (hsuffix (by decide) hfirst)
      rw [Option.map_some, Option.bind_some, Option.bind_some]
      by_cases hnot : Text.Spells "NOT".toList second
      · rw [keywordThenBlanks_append_of_spells hb more hnot, keywordThenBlanks_of_spells hnot,
          Option.bind_some, hnone (by decide)]
        rfl
      rw [keywordThenBlanks_append_blank hsecond hb more (by decide) hnot]
      cases hmiddle : Text.keywordThenBlanks? "NOT" second with
      | none => rfl
      | some third =>
          have hexists : ¬ Text.Spells "EXISTS".toList third := by
            intro hspells
            exact hcondition ⟨third, by rw [hfirst, Option.bind_some, hmiddle], hspells⟩
          exact keywordThenBlanks_append_blank (hsecond.of_suffix (hsuffix (by decide) hmiddle))
            hb more (by decide) hexists

omit hmore in
/-- A comment clause that completes a condition stands where the name of the table is read. -/
theorem afterModifier_append_of_condition
    (hoverwrite : Text.keywordThenBlanks? "OVERWRITE" (text ++ b :: more) = none)
    (hcondition : IsCondition text) :
    afterModifier? (text ++ b :: more) = some (Text.trimStart more) := by
  obtain ⟨third, hread, hexists⟩ := hcondition
  obtain ⟨second, hfirst, hmiddle⟩ := Option.bind_eq_some_iff.mp hread
  have hif : ¬ Text.Spells "IF".toList text := by
    intro hspells
    rw [keywordThenBlanks_of_spells hspells] at hfirst
    contradiction
  have hnot : ¬ Text.Spells "NOT".toList second := by
    intro hspells
    rw [keywordThenBlanks_of_spells hspells] at hmiddle
    contradiction
  have hword : IsHeadWord "IF" := by decide
  have hsecond := h.of_suffix (hword.behind hfirst).suffix
  unfold afterModifier?
  rw [hoverwrite, Option.none_or, keywordThenBlanks_append_blank h hb more (by decide) hif, hfirst,
    Option.map_some, Option.bind_some,
    keywordThenBlanks_append_blank hsecond hb more (by decide) hnot, hmiddle, Option.map_some,
    Option.bind_some, keywordThenBlanks_append_of_spells hb more hexists]

/-- So is the table that a line defines. -/
theorem definedTable_append_blank (hne : Text.Halts Text.isBlank text) (hsome : text ≠ [])
    (hoverwrite : ¬ Text.Spells "OVERWRITE".toList text) (hcondition : ¬ IsCondition text) :
    definedTable? (definition "TABLE" (text ++ b :: more)) =
      definedTable? (definition "TABLE" text) := by
  have hhalts : Text.Halts Text.isBlank (text ++ b :: more) := by
    obtain ⟨c, rest, rfl⟩ := List.exists_cons_of_ne_nil hsome
    exact Text.halts_cons (hne c rfl) _
  rw [definedTable_eq, definedTable_eq, afterDefine_definition (by decide) (by decide) hhalts,
    afterDefine_definition (by decide) (by decide) hne, Option.bind_some, Option.bind_some]
  unfold behindOptional
  rw [afterModifier_append_blank h hb hmore hoverwrite hcondition, Option.map_or, Option.map_or,
    map_fst_tableName_append_blank hb more text]
  cases afterModifier? text with
  | none => rfl
  | some rest =>
      rw [Option.map_some, Option.bind_some, Option.bind_some,
        map_fst_tableName_append_blank hb more rest, Option.map_or, Option.map_or]

end Comments

/-! ## The two layouts -/

/-- A comment clause with its payload between double quotes. -/
def commentClause (payload : List Char) : List Char :=
  "COMMENT".toList ++ ' ' :: '"' :: (payload ++ ['"'])

/-- The payload of a comment clause is read behind any text without quotes, even if the keyword of
the clause stands in the text. -/
theorem comment_commentClause {front payload : List Char} (hfront : Clear front)
    (hpayload : IsQuotable payload) (rear : List Char) :
    comment? (front ++ ' ' :: (commentClause payload ++ rear)) = some payload := by
  have hkeyword : "COMMENT".toList <:+: front ++ ' ' :: ("COMMENT".toList ++ [' ']) :=
    ⟨front ++ [' '], [' '], by simp⟩
  obtain ⟨before, behind, hcut⟩ := exists_cutAt_of_infix (by decide) hkeyword
  have hleaves : Text.Leaves Text.isWord (front ++ ' ' :: ("COMMENT".toList ++ [' '])) := by
    intro c hc
    rw [← List.cons_append, ← List.append_assoc, List.getLast?_concat] at hc
    rw [← Option.some.inj hc]
    decide
  have hquote : '"' ∉ behind := by
    intro hmem
    have hspaced : Clear (' ' :: ("COMMENT".toList ++ [' '])) := by decide
    exact (hfront.append hspaced).not_mem (by decide) (mem_of_cutAt hcut hmem)
  have hword : ("COMMENT".toList.all Text.isWord) = true := by decide
  have hread := cutAt_append_of_found (by decide) (List.all_eq_true.mp hword) hleaves hcut
    ('"' :: (payload ++ '"' :: rear))
  have htext : front ++ ' ' :: (commentClause payload ++ rear) =
      (front ++ ' ' :: ("COMMENT".toList ++ [' '])) ++ '"' :: (payload ++ '"' :: rear) := by
    unfold commentClause
    generalize "COMMENT".toList = keyword
    simp
  have hopened : cutAt? ['"'] ('"' :: (payload ++ '"' :: rear)) =
      some ([], payload ++ '"' :: rear) := rfl
  have hpayload' : payload? (behind ++ '"' :: (payload ++ '"' :: rear)) = some (payload, rear) := by
    unfold payload?
    rw [cutAt_append_of_not_mem hquote, hopened]
    exact untilQuote_of_plain hpayload.noQuote hpayload.noBackslash (by decide) rear
  unfold comment?
  rw [htext, hread]
  dsimp only
  rw [hpayload']
  simp [hpayload.ne_nil]

theorem isTerminated_of_clear {text : List Char} (h : Clear text) : isTerminated text = false := by
  unfold isTerminated
  rw [beq_eq_false_iff_ne]
  intro hlast
  exact h.not_mem (by decide)
    (Text.mem_of_mem_dropTrailing (List.mem_of_getLast? hlast))

/-- A line is taken without the blanks around it. -/
theorem State.step_trim (state : State) (line : List Char) :
    state.step (Text.trim line) = state.step line := by
  unfold step
  rw [Text.trim_trim]

/-- A line that defines a table ends the open statement and declares the table. -/
theorem State.step_of_definedTable {line : List Char} {name : String}
    (h : definedTable? (Text.trim line) = some name) (state : State) :
    state.step line = state.close.defineTable name (Text.trim line) := by
  rw [← step_trim, step_of_define (Text.trimmed_trim line) (startsWith_define_of_definedTable h),
    (Line.ofTrimmed_eq_table_iff _ name).mpr h]
  rfl

/-- Behind a text that is trimmed and not empty only the end of what follows is trimmed. -/
theorem trim_append {text : List Char} (h : Text.Trimmed text) (hne : text ≠ [])
    (rest : List Char) : Text.trim (text ++ rest) = text ++ Text.trimEnd rest := by
  have hstart : Text.trimStart (text ++ rest) = text ++ rest := by
    apply Text.trimStart_eq_self
    intro c hc
    rw [List.head?_append_of_ne_nil _ hne] at hc
    exact h.1 c hc
  rcases List.eq_nil_or_concat text with rfl | ⟨front, c, rfl⟩
  · contradiction
  · rw [List.concat_eq_append] at h hstart ⊢
    have hc : Text.isBlank c = false := h.2 c List.getLast?_concat
    rw [Text.trim, hstart, List.append_assoc, List.singleton_append, Text.trimEnd,
      Text.dropTrailing_append_of_last hc, List.append_assoc]
    rfl

/-- The description that a document has given a table so far. -/
def State.description? (state : State) (name : String) : Option String :=
  (state.close.tables.find? (Table.isNamed name)).bind Table.description

/-- The tables behind the definition of a table with a comment on the same line. -/
def describedTables (tables : List Table) (name description : String) : List Table :=
  (declareTable tables name (some description)).1

/-- The tables behind the definition of a table with a comment on the next line. -/
def redescribedTables (tables : List Table) (name description : String) : List Table :=
  let (declared, index) := declareTable tables name none
  declared.modify index (describeTable (some description))

/-- A description that a table has is not replaced by another one to fall back on. -/
theorem describeTable_of_some {table : Table} {description : String}
    (h : table.description = some description) (fallback : Option String) :
    describeTable fallback table = table := by
  rw [describeTable, h, Option.some_or, ← h]

/-- The place of a declared table holds a table with its description. -/
theorem modify_describedTables (tables : List Table) (name description : String)
    (fallback : Option String) :
    (describedTables tables name description).modify
        (declareTable tables name (some description)).2 (describeTable fallback) =
      describedTables tables name description := by
  unfold describedTables declareTable
  cases Table.indexOf? tables name with
  | none => exact modify_length _ _ _
  | some index =>
      dsimp only
      rw [List.modify_modify_eq]
      rfl

theorem modify_redescribedTables (tables : List Table) (name description : String)
    (fallback : Option String) :
    (redescribedTables tables name description).modify
        (declareTable tables name none).2 (describeTable fallback) =
      redescribedTables tables name description := by
  unfold redescribedTables
  dsimp only
  rw [List.modify_modify_eq]
  congr 1
  funext table
  rw [Function.comp_apply, describeTable_describeTable]
  cases h : table.description with
  | none => rfl
  | some described => rw [describeTable_of_some h, describeTable_of_some h]

/-- **The two kinds of a comment clause agree exactly where they meet no other description.** -/
theorem describedTables_eq_iff (tables : List Table) (name description : String) :
    describedTables tables name description = redescribedTables tables name description ↔
      ∀ described ∈ (tables.find? (Table.isNamed name)).bind Table.description,
        described = description := by
  cases hindex : Table.indexOf? tables name with
  | none =>
      have hfind : tables.find? (Table.isNamed name) = none := by
        rw [List.find?_eq_none]
        simpa [Table.indexOf?, List.findIdx?_eq_none_iff] using hindex
      have hboth : describedTables tables name description =
          redescribedTables tables name description := by
        unfold describedTables redescribedTables declareTable
        rw [hindex]
        dsimp only
        rw [modify_length]
        rfl
      simp [hboth, hfind]
  | some index =>
      obtain ⟨hlt, hnamed, hfirst⟩ := List.findIdx?_eq_some_iff_getElem.mp hindex
      have hfind : tables.find? (Table.isNamed name) = some tables[index] :=
        List.find?_eq_some_iff_getElem.mpr ⟨hnamed, index, hlt, rfl, fun j hj => by
          simpa using hfirst j hj⟩
      have hdescribed : describedTables tables name description =
          tables.modify index fun table => { table with description := some description } := by
        unfold describedTables declareTable
        rw [hindex]
        rfl
      have hredescribed : redescribedTables tables name description =
          tables.modify index (describeTable (some description)) := by
        unfold redescribedTables declareTable
        rw [hindex]
        dsimp only
        rw [List.modify_modify_eq]
        rfl
      rw [hfind, Option.bind_some, hdescribed, hredescribed,
        modify_eq_modify_iff (List.getElem?_eq_getElem hlt)]
      unfold describeTable
      cases tables[index].description with
      | none => simp
      | some described => simp [eq_comm]

/-- A line that defines a table and ends with a comment describes the table. -/
theorem State.step_of_described {line payload : List Char} {name : String}
    (htable : definedTable? (Text.trim line) = some name)
    (hcomment : comment? (Text.trim line) = some payload)
    (hend : isTerminated (Text.trim line) = true) (state : State) :
    state.step line = ⟨describedTables state.close.tables name (String.ofList payload),
      some (declareTable state.close.tables name none).2, none, none⟩ := by
  rw [step_of_definedTable htable, defineTable_eq, hcomment, Option.map_some]
  dsimp only
  have hindex : (declareTable state.close.tables name none).2 =
      (declareTable state.close.tables name (some (String.ofList payload))).2 := by
    rw [declareTable_snd, declareTable_snd]
  rw [if_pos hend, hindex,
    ← modify_describedTables state.close.tables name (String.ofList payload) state.close.heading]
  rfl

/-- A table whose comment stands on the next line is described if it has no description yet. -/
theorem State.step_step_of_redescribed {line next payload : List Char} {name : String}
    (htable : definedTable? (Text.trim line) = some name)
    (hcomment : comment? (Text.trim line) = none) (hopen : isTerminated (Text.trim line) = false)
    (hcontinues : continues (Text.trim next) = true)
    (hnext : comment? (Text.trim next) = some payload)
    (hend : isTerminated (Text.trim next) = true) (state : State) :
    (state.step line).step next =
      ⟨redescribedTables state.close.tables name (String.ofList payload),
        some (declareTable state.close.tables name none).2, none, none⟩ := by
  rw [step_of_definedTable htable, defineTable_eq, hcomment, Option.map_none]
  dsimp only
  rw [hopen, if_neg Bool.false_ne_true, step_of_continues rfl hcontinues, continueWith,
    if_pos hend, hnext, Option.map_some,
    ← modify_redescribedTables state.close.tables name (String.ofList payload)
      state.close.heading]
  rfl

/-- A name that is added is found at its place. -/
theorem getElem?_addName (names : List String) (name : String) :
    ∃ known, (addName names name)[(placeOf? names name).getD names.length]? = some known ∧
      lowerName known = lowerName name := by
  unfold addName
  cases hplace : placeOf? names name with
  | none =>
      rw [(isNone_placeOf_iff names name).mp hplace, if_neg Bool.false_ne_true]
      exact ⟨name, by simp, rfl⟩
  | some index =>
      obtain ⟨hlt, hnamed, -⟩ := List.findIdx?_eq_some_iff_getElem.mp hplace
      have hknown : names.any (fun known => lowerName known = lowerName name) = true :=
        List.any_eq_true.mpr ⟨names[index], List.getElem_mem hlt, hnamed⟩
      rw [if_pos hknown]
      exact ⟨names[index], List.getElem?_eq_getElem hlt, by simpa using hnamed⟩

/-- Lines that define tables of different names lead to different states. -/
theorem State.outline_step_ne {line other : List Char} {name name' : String}
    (htable : definedTable? (Text.trim line) = some name)
    (hother : definedTable? (Text.trim other) = some name')
    (hne : lowerName name ≠ lowerName name') (state : State) :
    (state.step line).outline ≠ (state.step other).outline := by
  rw [outline_step, outline_step, (Line.ofTrimmed_eq_table_iff _ name).mpr htable,
    (Line.ofTrimmed_eq_table_iff _ name').mpr hother]
  intro heq
  obtain ⟨known, hplace, hname⟩ := getElem?_addName state.outline.names name
  obtain ⟨known', hplace', hname'⟩ := getElem?_addName state.outline.names name'
  have hnames : addName state.outline.names name = addName state.outline.names name' :=
    congrArg Outline.names heq
  have hcurrent := Option.some.inj (congrArg Outline.current heq)
  rw [hnames, hcurrent, hplace'] at hplace
  exact hne (by rw [← hname, ← hname', Option.some.inj hplace])

section Layouts

variable {name clauses payload : List Char} (hname : Token.isIdentifier name = true)
  (hoverwrite : ¬ Text.Spells "OVERWRITE".toList name) (hclauses : Clear clauses)
  (hpayload : IsQuotable payload)
include hname

theorem trim_name (rest : List Char) :
    Text.trim (name ++ rest) = name ++ Text.trimEnd rest :=
  have hsolid := (isWordName_of_isIdentifier hname).solid
  trim_append (Text.Spaced.word hsolid).trimmed hsolid.1 rest

theorem toNat_lt_of_isIdentifier : ∀ c ∈ name, c.toNat < 128 := by
  intro c hc
  cases name with
  | nil => contradiction
  | cons first more =>
      obtain ⟨hfirst, hmore⟩ := Token.isIdentifier_cons.mp hname
      rcases List.mem_cons.mp hc with rfl | hc
      · exact (Token.isWord_of_continuesName (Token.continuesName_of_startsName hfirst)).1
      · exact (Token.isWord_of_continuesName (hmore c hc)).1

/-- Only what follows the name of the table may have blanks at its end. -/
theorem trim_definition_name (rest : List Char) :
    Text.trim (definition "TABLE" (name ++ rest)) =
      definition "TABLE" (Text.trim (name ++ rest)) := by
  have hspaced : Text.Spaced Text.Solid (definition "TABLE" name) :=
    .cons (by decide) (.cons (by decide) (.word (isWordName_of_isIdentifier hname).solid))
  rw [← definition_append, trim_append hspaced.trimmed (List.cons_ne_nil _ _), definition_append,
    trim_name hname]

/-- On one line there are blanks between the head and the comment clause. -/
theorem exists_blank_clause (clauses : List Char) {clause : List Char}
    (hclause : Text.Halts Text.isBlank clause) :
    ∃ b more, Text.isBlank b = true ∧ Text.trimStart more = clause ∧
      name ++ ' ' :: (clauses ++ ' ' :: clause) =
        Text.trim (name ++ ' ' :: clauses) ++ b :: more := by
  obtain ⟨blanks, hblanks, hall⟩ := Text.dropTrailing_append Text.isBlank (' ' :: clauses)
  have hspace : Text.isBlank ' ' = true := by decide
  have hsplit : name ++ ' ' :: (clauses ++ ' ' :: clause) =
      Text.trim (name ++ ' ' :: clauses) ++ (blanks ++ ' ' :: clause) := by
    calc
      name ++ ' ' :: (clauses ++ ' ' :: clause)
        = name ++ ((' ' :: clauses) ++ ' ' :: clause) := rfl
      _ = name ++ ((Text.trimEnd (' ' :: clauses) ++ blanks) ++ ' ' :: clause) :=
          congrArg (fun text => name ++ (text ++ ' ' :: clause)) hblanks
      _ = Text.trim (name ++ ' ' :: clauses) ++ (blanks ++ ' ' :: clause) := by
          rw [trim_name hname]
          simp only [List.append_assoc]
  cases blanks with
  | nil => exact ⟨' ', clause, hspace, Text.dropWhile_of_halts hclause, hsplit⟩
  | cons b blanks =>
      obtain ⟨hb, hrest⟩ := List.forall_mem_cons.mp hall
      have hrun : ∀ c ∈ blanks ++ [' '], Text.isBlank c = true :=
        List.forall_mem_append.mpr ⟨hrest, List.forall_mem_singleton.mpr hspace⟩
      have hstart := Text.dropWhile_run hrun hclause
      rw [List.append_assoc, List.singleton_append] at hstart
      exact ⟨b, blanks ++ ' ' :: clause, hb, hstart, hsplit⟩

omit hname in
/-- The name is followed by nothing or by a space. -/
theorem endsName_trimEnd (clauses : List Char) : EndsName (Text.trimEnd (' ' :: clauses)) := by
  intro c hc
  obtain rfl := Option.some.inj (Text.head?_dropTrailing hc)
  decide

theorem trim_ne_nil (rest : List Char) : Text.trim (name ++ rest) ≠ [] := by
  rw [trim_name hname]
  exact List.append_ne_nil_of_left_ne_nil (isWordName_of_isIdentifier hname).1 _

/-- The table that the definition names is the same with the comment clause on the line, unless the
clause completes a condition. -/
theorem definedTable_inline (hoverwrite : ¬ Text.Spells "OVERWRITE".toList name)
    {clauses clause : List Char} (hclause : ∃ rest, clause = 'C' :: rest)
    (hcondition : ¬ IsCondition (Text.trim (name ++ ' ' :: clauses))) :
    definedTable? (definition "TABLE" (name ++ ' ' :: (clauses ++ ' ' :: clause))) =
      definedTable? (definition "TABLE" (Text.trim (name ++ ' ' :: clauses))) := by
  have htrimmed := Text.trimmed_trim (name ++ ' ' :: clauses)
  obtain ⟨b, more, hb, hmore, hsplit⟩ := exists_blank_clause hname clauses (halts_comment hclause)
  rw [← hmore] at hclause
  rw [hsplit]
  refine definedTable_append_blank htrimmed.2 hb hclause htrimmed.1 (trim_ne_nil hname _) ?_
    hcondition
  -- A keyword is one word, so there would be nothing behind the name.
  rw [trim_name hname]
  intro hspells
  cases hrest : Text.trimEnd (' ' :: clauses) with
  | nil =>
      rw [hrest, List.append_nil] at hspells
      exact hoverwrite hspells
  | cons c rest =>
      have hword := Text.isWord_of_spells (by decide) hspells c
        (by rw [hrest]; exact List.mem_append_right _ List.mem_cons_self)
      have hends := (endsName_trimEnd clauses).halts c (by rw [hrest]; rfl)
      rw [hword] at hends
      contradiction

/-- A definition of which nothing but a condition follows its first two words names the table
`IF`, and with a comment clause on its line the table `COMMENT`. -/
theorem definedTable_condition (hoverwrite : ¬ Text.Spells "OVERWRITE".toList name)
    {clauses : List Char} (hcondition : IsCondition (Text.trim (name ++ ' ' :: clauses)))
    (rest : List Char) :
    definedTable? (definition "TABLE" (Text.trim (name ++ ' ' :: clauses))) =
        some (String.ofList name) ∧
      definedTable? (definition "TABLE" (name ++ ' ' :: (clauses ++ ' ' ::
        ("COMMENT".toList ++ ' ' :: rest)))) = some "COMMENT" ∧
      Text.Spells "IF".toList name := by
  have hword := isWordName_of_isIdentifier hname
  have htrim := trim_name hname (' ' :: clauses)
  have hends := endsName_trimEnd clauses
  have htrimmed := Text.trimmed_trim (name ++ ' ' :: clauses)
  have hnone : ∀ {rest : List Char}, Text.Halts Text.isWord rest →
      Text.keywordThenBlanks? "OVERWRITE" (name ++ rest) = none := fun hrest =>
    Text.keywordThenBlanks_eq_none (by decide) Text.delimits_isWord hword.2 hrest hoverwrite
  refine ⟨?_, ?_, ?_⟩
  · obtain ⟨third, hread, hexists⟩ := hcondition
    have hmodifier : afterModifier? (Text.trim (name ++ ' ' :: clauses)) = none := by
      unfold afterModifier?
      rw [hread, Option.bind_some, keywordThenBlanks_of_spells hexists, htrim, hnone hends.halts]
      rfl
    rw [definedTable_eq, afterDefine_definition (by decide) (by decide) htrimmed.1,
      Option.bind_some]
    unfold behindOptional
    rw [hmodifier, htrim, tableName_append hword hends]
    rfl
  · have hclause : ∃ more, "COMMENT".toList ++ ' ' :: rest = 'C' :: more := ⟨_, rfl⟩
    obtain ⟨b, more, hb, hmore, hsplit⟩ :=
      exists_blank_clause hname clauses (halts_comment hclause)
    have hhalts : Text.Halts Text.isBlank (name ++ ' ' :: (clauses ++ ' ' ::
        ("COMMENT".toList ++ ' ' :: rest))) := hword.solid.halts_append _
    have hmodifier := afterModifier_append_of_condition htrimmed.2 hb
      (by rw [← hsplit]; exact hnone (Text.halts_cons (by decide) _)) hcondition
    have hcomment : IsWordName "COMMENT".toList := ⟨by decide, List.all_eq_true.mp (by decide)⟩
    rw [definedTable_eq, afterDefine_definition (by decide) (by decide) hhalts, Option.bind_some]
    unfold behindOptional
    rw [hsplit, hmodifier, hmore, Option.bind_some,
      tableName_append hcomment (Text.halts_cons (by decide) _)]
    rfl
  · obtain ⟨third, hread, -⟩ := hcondition
    obtain ⟨second, hfirst, -⟩ := Option.bind_eq_some_iff.mp hread
    rw [htrim] at hfirst
    exact (Text.spells_of_keywordThenBlanks (by decide) Text.delimits_isWord hword.2 hends.halts
      hfirst).1

/-- Whatever follows its name, the definition names a table. -/
theorem exists_definedTable (clauses : List Char) :
    ∃ table, definedTable? (definition "TABLE" (Text.trim (name ++ ' ' :: clauses))) =
      some table := by
  have hword := isWordName_of_isIdentifier hname
  have hread := tableName_append hword (endsName_trimEnd clauses)
  rw [← trim_name hname] at hread
  rw [definedTable_eq, afterDefine_definition (by decide) (by decide) (Text.trimmed_trim _).1,
    Option.bind_some]
  unfold behindOptional
  rw [hread]
  cases (afterModifier? (Text.trim (name ++ ' ' :: clauses))).bind tableName? with
  | none => exact ⟨_, rfl⟩
  | some read => exact ⟨_, rfl⟩

/-- Where the comment clause completes a condition, the two layouts define different tables. -/
theorem outline_ne_of_condition (hoverwrite : ¬ Text.Spells "OVERWRITE".toList name)
    {clauses rest : List Char} (hcondition : IsCondition (Text.trim (name ++ ' ' :: clauses)))
    (hinline : Text.Trimmed (definition "TABLE"
      (name ++ ' ' :: (clauses ++ ' ' :: ("COMMENT".toList ++ ' ' :: rest))))) (state : State) :
    (state.step (definition "TABLE"
        (name ++ ' ' :: (clauses ++ ' ' :: ("COMMENT".toList ++ ' ' :: rest))))).outline ≠
      (state.step (definition "TABLE" (name ++ ' ' :: clauses))).outline := by
  obtain ⟨hfirst, hboth, hif⟩ := definedTable_condition hname hoverwrite hcondition rest
  have hlower : Text.lower name = Text.lower "IF".toList :=
    Text.lower_eq_of_spells (by decide) (toNat_lt_of_isIdentifier hname) hif
  rw [← Text.trim_eq_self hinline] at hboth
  rw [← trim_definition_name hname] at hfirst
  have hlowered : lowerName (String.ofList name) = lowerName "IF" := by
    unfold lowerName
    rw [String.toList_ofList, hlower]
  refine State.outline_step_ne hboth hfirst ?_ state
  rw [hlowered]
  decide

end Layouts

/-- A text that ends with a semicolon is trimmed if it does not start with a blank. -/
theorem trimmed_append_semicolon {c : Char} (hc : Text.isBlank c = false) (text : List Char) :
    Text.Trimmed (c :: text ++ [';']) := by
  constructor
  · intro d hd
    rw [← Option.some.inj hd, hc]
  · intro d hd
    rw [List.getLast?_concat] at hd
    rw [← Option.some.inj hd]
    decide

/-- A comment clause with a semicolon behind it is a line that continues a statement. -/
theorem line_commentClause {payload : List Char} (hpayload : IsQuotable payload) :
    Text.trim (commentClause payload ++ [';']) = commentClause payload ++ [';'] ∧
      continues (commentClause payload ++ [';']) = true ∧
      comment? (commentClause payload ++ [';']) = some payload := by
  refine ⟨Text.trim_eq_self (trimmed_append_semicolon (by decide) _), rfl, ?_⟩
  let line : CommentLine := ⟨[], [' '], [';']⟩
  have hclause : commentClause payload ++ [';'] = [] ++ line.clause payload := by
    unfold commentClause CommentLine.clause
    generalize "COMMENT".toList = keyword
    simp [line]
  rw [hclause]
  exact comment_clause (by decide) (by decide) (List.forall_mem_singleton.mpr (by decide)) hpayload

/-- The definition of a table with clauses behind its name is clear. -/
theorem clear_definition {name clauses : List Char} (hname : Token.isIdentifier name = true)
    (hclauses : Clear clauses) : Clear (definition "TABLE" (name ++ ' ' :: clauses)) := by
  have hhead : Clear (definition "TABLE" []) := by decide
  have hword : Clear name := fun c hc => isClear_of_isWord (Token.isWord_of_isIdentifier hname c hc)
  rw [definition_eq_append]
  exact hhead.append (hword.append (clear_space.append hclauses))

/-- Without its comment clause it is a line without a comment that ends no statement. -/
theorem line_definition {name clauses : List Char} (hname : Token.isIdentifier name = true)
    (hclauses : Clear clauses) :
    comment? (Text.trim (definition "TABLE" (name ++ ' ' :: clauses))) = none ∧
      isTerminated (Text.trim (definition "TABLE" (name ++ ' ' :: clauses))) = false := by
  have hclear := clear_definition hname hclauses
  have hopen : Clear (Text.trim (definition "TABLE" (name ++ ' ' :: clauses))) :=
    fun c hc => hclear c ((infix_trim _).subset hc)
  exact ⟨comment_of_clear hopen, isTerminated_of_clear hopen⟩

/-- With a comment clause and a semicolon behind it, it is a line with that comment that ends its
statement. -/
theorem line_definition_commentClause {name clauses payload : List Char}
    (hname : Token.isIdentifier name = true) (hclauses : Clear clauses)
    (hpayload : IsQuotable payload) :
    Text.Trimmed (definition "TABLE"
        (name ++ ' ' :: (clauses ++ ' ' :: (commentClause payload ++ [';'])))) ∧
      comment? (definition "TABLE"
        (name ++ ' ' :: (clauses ++ ' ' :: (commentClause payload ++ [';'])))) = some payload ∧
      isTerminated (definition "TABLE"
        (name ++ ' ' :: (clauses ++ ' ' :: (commentClause payload ++ [';'])))) = true := by
  have hsplit : definition "TABLE"
      (name ++ ' ' :: (clauses ++ ' ' :: (commentClause payload ++ [';']))) =
        definition "TABLE" (name ++ ' ' :: clauses) ++ ' ' :: (commentClause payload ++ [';']) := by
    rw [definition_append, List.append_assoc, List.cons_append]
  have hended : definition "TABLE"
      (name ++ ' ' :: (clauses ++ ' ' :: (commentClause payload ++ [';']))) =
        definition "TABLE" (name ++ ' ' :: (clauses ++ ' ' :: commentClause payload)) ++ [';'] := by
    rw [definition_append, List.append_assoc, List.cons_append, List.append_assoc, List.cons_append]
  refine ⟨?_, ?_, ?_⟩
  · rw [hended]
    exact trimmed_append_semicolon (by decide) _
  · rw [hsplit]
    exact comment_commentClause (clear_definition hname hclauses) hpayload [';']
  · rw [hended]
    exact isTerminated_append _

/-- **A comment clause on the next line is read like one on the same line exactly where the table
has no other description yet**, for every state, and where the line break does not cut off the
words `IF NOT EXISTS` from what they would be read with. -/
theorem step_commentClause_iff {name clauses payload : List Char}
    (hname : Token.isIdentifier name = true) (hoverwrite : ¬ Text.Spells "OVERWRITE".toList name)
    (hclauses : Clear clauses) (hpayload : IsQuotable payload) (state : State) :
    state.step (definition "TABLE"
          (name ++ ' ' :: (clauses ++ ' ' :: (commentClause payload ++ [';'])))) =
        (state.step (definition "TABLE" (name ++ ' ' :: clauses))).step
          (commentClause payload ++ [';']) ↔
      ¬ IsCondition (Text.trim (name ++ ' ' :: clauses)) ∧
        ∀ table, definedTable? (Text.trim (definition "TABLE" (name ++ ' ' :: clauses))) =
            some table →
          ∀ described ∈ state.description? table, described = String.ofList payload := by
  obtain ⟨hnext, hcontinues, hcomment⟩ := line_commentClause hpayload
  have hfirst : Text.trim (definition "TABLE" (name ++ ' ' :: clauses)) =
      definition "TABLE" (Text.trim (name ++ ' ' :: clauses)) := trim_definition_name hname _
  obtain ⟨htrimmed, hboth, hend⟩ := line_definition_commentClause hname hclauses hpayload
  have hkeyword : commentClause payload ++ [';'] =
      "COMMENT".toList ++ ' ' :: ('"' :: (payload ++ ['"']) ++ [';']) :=
    List.append_assoc "COMMENT".toList (' ' :: '"' :: (payload ++ ['"'])) [';']
  by_cases hcondition : IsCondition (Text.trim (name ++ ' ' :: clauses))
  · refine iff_of_false (fun heq => ?_) fun h => h.1 hcondition
    -- The second line adds no table, so the tables of the two layouts have different names.
    have hnames : ((state.step (definition "TABLE" (name ++ ' ' :: clauses))).step
        (commentClause payload ++ [';'])).outline =
          (state.step (definition "TABLE" (name ++ ' ' :: clauses))).outline := by
      rw [State.outline_step, hnext, (Line.ofTrimmed_eq_other_iff _).mpr hcontinues]
      rfl
    rw [hkeyword] at htrimmed
    apply outline_ne_of_condition hname hoverwrite hcondition htrimmed state
    rw [← hnames, ← hkeyword, heq]
  · obtain ⟨table, htable⟩ := exists_definedTable hname clauses
    have hinline := definedTable_inline hname hoverwrite ⟨_, hkeyword⟩ hcondition
    rw [htable, ← Text.trim_eq_self htrimmed] at hinline
    rw [← hfirst] at htable
    obtain ⟨hnone, hopen⟩ := line_definition hname hclauses
    rw [← Text.trim_eq_self htrimmed] at hboth hend
    rw [State.step_of_described hinline hboth hend,
      State.step_step_of_redescribed htable hnone hopen (by rw [hnext, hcontinues])
        (by rw [hnext, hcomment]) (by rw [hnext]; exact isTerminated_append _)]
    simp only [State.mk.injEq, and_true, describedTables_eq_iff]
    constructor
    · intro hdescribed
      refine ⟨hcondition, fun other hother => ?_⟩
      rw [htable] at hother
      rw [← Option.some.inj hother]
      exact hdescribed
    · intro h
      exact h.2 table htable

/-- A new table takes its comment from either line, and the comment line above it is left out. -/
theorem step_commentClause_new :
    (⟨[], none, some "note", none⟩ : State).step (definition "TABLE"
        ("t".toList ++ ' ' :: ("SCHEMAFULL".toList ++ ' ' ::
          (commentClause "new".toList ++ [';'])))) =
      ((⟨[], none, some "note", none⟩ : State).step
        (definition "TABLE" ("t".toList ++ ' ' :: "SCHEMAFULL".toList))).step
          (commentClause "new".toList ++ [';']) := by
  refine (step_commentClause_iff (by decide) (by decide) (by decide) (by decide) _).mpr ⟨?_, ?_⟩
  · rintro ⟨last, hread, -⟩
    have hnone : Text.keywordThenBlanks? "IF"
        (Text.trim ("t".toList ++ ' ' :: "SCHEMAFULL".toList)) = none := by decide +kernel
    rw [hnone] at hread
    contradiction
  · intro table _ described hdescribed
    contradiction

/-- The comment of a table that is declared again is lost on the next line. -/
theorem step_commentClause_described :
    (State.initial.step "DEFINE TABLE t COMMENT \"old\";".toList).step
        "DEFINE TABLE t SCHEMAFULL COMMENT \"new\";".toList ≠
      ((State.initial.step "DEFINE TABLE t COMMENT \"old\";".toList).step
        "DEFINE TABLE t SCHEMAFULL".toList).step "COMMENT \"new\";".toList := by
  decide +kernel

end Ddl
end SurrealSchema
