import SurrealSchema.Proofs.Ddl.Heads
import SurrealSchema.Proofs.Ddl.Reworded
import SurrealSchema.Proofs.Ddl.Semicolon
import SurrealSchema.Proofs.Text.Boundary

namespace SurrealSchema
namespace Ddl

/-!
# Lines with a comment clause

A line with a comment clause whose payload stands between double quotes.  What stands before the
clause ends in a blank, so no reader of heads, types, markers or defaults gets into the payload, and
what follows the payload is found behind the quote that closes it.  So the payload is only ever read
as a description.

One case is left out: behind `ON` or `ON TABLE` the keyword of the clause is taken for the name of a
table, and the clauses of that field then start behind it.
-/

/-! ## The parts of a line -/

/-- Whether a text may stand before a comment clause that is read as one. -/
structure IsFront (front : List Char) : Prop where
  endsBlank : Text.EndsBlank front
  noComment : ¬ "COMMENT".toList <:+: front
  notOn : ¬ Text.EndsInWords ["ON"] front
  notOnTable : ¬ Text.EndsInWords ["ON", "TABLE"] front

instance (front : List Char) : Decidable (IsFront front) :=
  decidable_of_iff (Text.EndsBlank front ∧ ¬ "COMMENT".toList <:+: front ∧
      ¬ Text.EndsInWords ["ON"] front ∧ ¬ Text.EndsInWords ["ON", "TABLE"] front)
    ⟨fun h => ⟨h.1, h.2.1, h.2.2.1, h.2.2.2⟩,
      fun h => ⟨h.endsBlank, h.noComment, h.notOn, h.notOnTable⟩⟩

/-- Whether a text may stand between the double quotes of a comment clause. -/
structure IsQuotable (payload : List Char) : Prop where
  ne_nil : payload ≠ []
  noQuote : '"' ∉ payload
  noBackslash : '\\' ∉ payload

instance (payload : List Char) : Decidable (IsQuotable payload) :=
  decidable_of_iff (payload ≠ [] ∧ '"' ∉ payload ∧ '\\' ∉ payload)
    ⟨fun h => ⟨h.1, h.2.1, h.2.2⟩, fun h => ⟨h.ne_nil, h.noQuote, h.noBackslash⟩⟩

/-- A line with a comment clause, without the payload of the clause. -/
structure CommentLine where
  front : List Char
  blanks : List Char
  rear : List Char

namespace CommentLine

/-- The line from its comment clause on, with a payload. -/
def clause (line : CommentLine) (payload : List Char) : List Char :=
  "COMMENT".toList ++ (line.blanks ++ '"' :: (payload ++ '"' :: line.rear))

/-- The line with a payload. -/
def text (line : CommentLine) (payload : List Char) : List Char :=
  line.front ++ line.clause payload

/-- Whether a line has its comment clause where it seems to have it. -/
structure Valid (line : CommentLine) : Prop where
  front : IsFront line.front
  blanks_ne_nil : line.blanks ≠ []
  blanks : ∀ c ∈ line.blanks, Text.isBlank c = true

instance (line : CommentLine) : Decidable line.Valid :=
  decidable_of_iff (IsFront line.front ∧ line.blanks ≠ [] ∧
      (line.blanks.all Text.isBlank) = true)
    ⟨fun h => ⟨h.1, h.2.1, List.all_eq_true.mp h.2.2⟩,
      fun h => ⟨h.front, h.blanks_ne_nil, List.all_eq_true.mpr h.blanks⟩⟩

/-- The line without blanks around it. -/
def trimmed (line : CommentLine) : CommentLine :=
  { line with front := Text.trimStart line.front, rear := Text.trimEnd line.rear }

end CommentLine

theorem IsFront.of_behind {rest front : List Char} (h : IsFront front)
    (hrest : Text.Behind rest front) : IsFront rest where
  endsBlank := h.endsBlank.of_suffix hrest.suffix
  noComment := fun hstands => h.noComment (hstands.trans hrest.suffix.isInfix)
  notOn := fun hends => h.notOn (hends.of_behind hrest)
  notOnTable := fun hends => h.notOnTable (hends.of_behind hrest)

/-! ## Heads before a comment clause -/

/-- A keyword in capitals that no comment clause starts with. -/
structure IsHeadWord (word : String) : Prop where
  capitals : Text.Capitals word.toList
  ne_nil : word.toList ≠ []
  notComment : ∀ letter ∈ word.toList.head?, Text.matchesLetter letter 'C' = false

-- Only the first letter is looked at, not all characters there are.
instance (word : String) : Decidable (IsHeadWord word) :=
  decidable_of_iff (Text.Capitals word.toList ∧ word.toList ≠ [] ∧
      (word.toList.head?.all fun letter => !Text.matchesLetter letter 'C') = true)
    ⟨fun h => ⟨h.1, h.2.1, by simpa [Option.all_eq_true] using h.2.2⟩,
      fun h => ⟨h.capitals, h.ne_nil, by simpa [Option.all_eq_true] using h.notComment⟩⟩

theorem isHeadWord_define : IsHeadWord "DEFINE" := by decide

theorem isHeadWord_table : IsHeadWord "TABLE" := by decide

theorem isHeadWord_field : IsHeadWord "FIELD" := by decide

theorem isHeadWord_on : IsHeadWord "ON" := by decide

theorem IsHeadWord.behind {word : String} (hword : IsHeadWord word) {text rest : List Char}
    (h : Text.keywordThenBlanks? word text = some rest) : Text.Behind rest text :=
  Text.behind_of_keywordThenBlanks hword.capitals hword.ne_nil h

section Heads

variable {front rest : List Char} (hrest : ∃ more, rest = 'C' :: more) {word : String}
include hrest

theorem halts_comment : Text.Halts Text.isBlank rest := by
  obtain ⟨more, rfl⟩ := hrest
  exact Text.halts_cons (by decide) more

theorem IsHeadWord.afterLiteralAnyCase_comment (hword : IsHeadWord word) :
    Text.afterLiteralAnyCase? word.toList rest = none := by
  obtain ⟨more, rfl⟩ := hrest
  obtain ⟨letter, others, hcons⟩ := List.exists_cons_of_ne_nil hword.ne_nil
  have hletter := hword.notComment letter (by rw [hcons]; rfl)
  rw [hcons, Text.afterLiteralAnyCase?, hletter]
  rfl

theorem IsHeadWord.keywordThenBlanks_comment (hword : IsHeadWord word) :
    Text.keywordThenBlanks? word rest = none := by
  rw [Text.keywordThenBlanks?, hword.afterLiteralAnyCase_comment hrest, Option.bind_none]

/-- A keyword is read alike before a comment clause. -/
theorem IsHeadWord.keywordThenBlanks_front (hword : IsHeadWord word) (h : Text.EndsBlank front) :
    Text.keywordThenBlanks? word (front ++ rest) =
      (Text.keywordThenBlanks? word front).map (· ++ rest) :=
  h.leaves_isWord.keywordThenBlanks_append hword.capitals (halts_comment hrest)
    fun _ => hword.keywordThenBlanks_comment hrest

/-- A line starts with a keyword or not by what stands before its comment clause. -/
theorem IsHeadWord.startsWith_front (hword : IsHeadWord word) (h : Text.EndsBlank front) :
    startsWith word (front ++ rest) = startsWith word front :=
  h.isSome_keywordAnyCase_append hword.capitals (hword.afterLiteralAnyCase_comment hrest) none

theorem startsField_front (h : Text.EndsBlank front) :
    startsField (front ++ rest) = startsField front := by
  unfold startsField
  rw [isHeadWord_define.keywordThenBlanks_front hrest h]
  cases hdefine : Text.keywordThenBlanks? "DEFINE" front with
  | none => rfl
  | some behind =>
      simp only [Option.map_some, Option.getD_some]
      exact isHeadWord_field.startsWith_front hrest
        (h.of_suffix (isHeadWord_define.behind hdefine).suffix)

/-- A line is a comment or not by what stands before its comment clause. -/
theorem startsComment_front : startsComment (front ++ rest) = startsComment front := by
  obtain ⟨more, rfl⟩ := hrest
  match front with
  | [] => rfl
  | [c] => simp [startsComment]
  | c :: d :: front => by_cases hc : c = '-' <;> by_cases hd : d = '-' <;>
      simp [startsComment, hc, hd]

/-- The first two words of a definition are read alike before a comment clause. -/
theorem afterDefine_front (hkind : IsHeadWord word) (h : Text.EndsBlank front) :
    afterDefine? word (front ++ rest) = (afterDefine? word front).map (· ++ rest) := by
  unfold afterDefine?
  rw [isHeadWord_define.keywordThenBlanks_front hrest h]
  cases hdefine : Text.keywordThenBlanks? "DEFINE" front with
  | none => rfl
  | some behind =>
      exact hkind.keywordThenBlanks_front hrest
        (h.of_suffix (isHeadWord_define.behind hdefine).suffix)

/-- A modifier is read alike before a comment clause. -/
theorem afterModifier_front (h : Text.EndsBlank front) :
    afterModifier? (front ++ rest) = (afterModifier? front).map (· ++ rest) := by
  have hnone : ∀ {word : String}, IsHeadWord word → Text.keywordThenBlanks? word rest = none :=
    fun hword => hword.keywordThenBlanks_comment hrest
  exact afterModifier_append h.leaves_isWord (halts_comment hrest) (fun _ => hnone (by decide))
    (hnone (by decide)) (hnone (by decide)) fun _ => hnone (by decide)

end Heads

theorem behind_of_afterDefine {kind : String} (hkind : IsHeadWord kind) {text rest : List Char}
    (h : afterDefine? kind text = some rest) : Text.Behind rest text := by
  obtain ⟨middle, hdefine, hread⟩ := Option.bind_eq_some_iff.mp h
  exact (hkind.behind hread).trans (isHeadWord_define.behind hdefine)

theorem behind_of_afterModifier {text rest : List Char} (h : afterModifier? text = some rest) :
    Text.Behind rest text := by
  have hoverwrite : IsHeadWord "OVERWRITE" := by decide
  have hif : IsHeadWord "IF" := by decide
  have hnot : IsHeadWord "NOT" := by decide
  have hexists : IsHeadWord "EXISTS" := by decide
  rcases Option.or_eq_some_iff.mp h with hread | ⟨-, hread⟩
  · exact hoverwrite.behind hread
  · obtain ⟨second, hsecond, hlast⟩ := Option.bind_eq_some_iff.mp hread
    obtain ⟨first, hfirst, hmiddle⟩ := Option.bind_eq_some_iff.mp hsecond
    exact ((hexists.behind hlast).trans (hnot.behind hmiddle)).trans (hif.behind hfirst)

/-! ## Names of tables -/

/-- A backtick at the front is skipped alike, whatever stands behind the text. -/
theorem afterBacktick_append {text : List Char} (hne : text ≠ []) (rest : List Char) :
    ∃ bare, bare <:+ text ∧ (Text.afterLiteral? ['`'] text).getD text = bare ∧
      (Text.afterLiteral? ['`'] (text ++ rest)).getD (text ++ rest) = bare ++ rest ∧
      (bare = [] → text = ['`']) := by
  obtain ⟨c, more, rfl⟩ := List.exists_cons_of_ne_nil hne
  by_cases hc : '`' = c
  · subst hc
    refine ⟨more, List.suffix_cons _ more, ?_, ?_, ?_⟩
    · simp [Text.afterLiteral?, List.isPrefixOf?]
    · simp [Text.afterLiteral?, List.isPrefixOf?]
    · rintro rfl
      rfl
  · refine ⟨c :: more, List.suffix_refl _, ?_, ?_, ?_⟩
    · simp [Text.afterLiteral?, List.isPrefixOf?, hc]
    · simp [Text.afterLiteral?, List.isPrefixOf?, hc]
    · intro hnil
      contradiction

/-- The name of a table is read alike whatever stands behind the text, if it is in the text. -/
theorem tableName_append_of_leaves {text : List Char} (h : Text.Leaves Text.isWord text)
    (hne : text ≠ []) (htick : text ≠ ['`']) (rest : List Char) :
    tableName? (text ++ rest) = (tableName? text).map fun cut => (cut.1, cut.2 ++ rest) := by
  obtain ⟨bare, hsuffix, hbare, hbareRest, hnil⟩ := afterBacktick_append hne rest
  have hbareNe : bare ≠ [] := fun hbareNil => htick (hnil hbareNil)
  have hleaves := h.of_suffix hsuffix
  -- Behind the name there is still the last character, so the second backtick is not beyond it.
  obtain ⟨last, -, hlast, hlastRest, -⟩ :=
    afterBacktick_append (hleaves.dropWhile_ne_nil hbareNe) rest
  unfold tableName?
  dsimp only
  rw [hbare, hbareRest, hleaves.takeWhile_append hbareNe, hleaves.dropWhile_append hbareNe, hlast,
    hlastRest]
  split <;> rfl

/-- The name of a table is read alike, whatever stands behind the text. -/
theorem tableName_front {front : List Char} (h : Text.EndsBlank front) (hne : front ≠ [])
    (rest : List Char) :
    tableName? (front ++ rest) = (tableName? front).map fun cut => (cut.1, cut.2 ++ rest) := by
  apply tableName_append_of_leaves h.leaves_isWord hne
  rintro rfl
  exact absurd h (by decide)

/-- What follows a backtick that may be there is part of the text. -/
theorem afterBacktick_suffix (text : List Char) :
    (Text.afterLiteral? ['`'] text).getD text <:+ text := by
  cases hread : Text.afterLiteral? ['`'] text with
  | none => exact List.suffix_refl text
  | some behind => exact ⟨['`'], List.append_eq_of_isPrefixOf?_eq_some hread⟩

theorem suffix_of_tableName {text name rest : List Char} (h : tableName? text = some (name, rest)) :
    rest <:+ text := by
  unfold tableName? at h
  dsimp only at h
  split at h
  · contradiction
  · obtain ⟨-, rfl⟩ := Prod.mk.inj (Option.some.inj h)
    exact (afterBacktick_suffix _).trans
      ((List.dropWhile_suffix _).trans (afterBacktick_suffix text))

/-- The table that a statement defines is the name that is read from it. -/
theorem definedTable_eq (statement : List Char) :
    definedTable? statement = (((afterDefine? "TABLE" statement).bind
      (behindOptional afterModifier? tableName?)).map Prod.fst).map String.ofList := by
  rw [Option.map_map]
  rfl

/-! ## Heads of fields -/

theorem behind_of_name {text rest : List Char}
    (h : Text.afterBlanks? (text.dropWhile fun c => !Text.isBlank c) = some rest) :
    Text.Behind rest text := by
  obtain ⟨b, blanks, hsplit, hb, hblanks⟩ := Text.blanks_of_afterBlanks h
  have htext : text = (text.takeWhile fun c => !Text.isBlank c) ++ b :: (blanks ++ rest) := by
    rw [← hsplit, List.takeWhile_append_dropWhile]
  rw [htext]
  constructor
  · exact (List.suffix_append blanks rest).trans
      ((List.suffix_cons b _).trans (List.suffix_append _ _))
  · rw [Text.words_append_blank hb, Text.words_blanks_append hblanks]
    exact List.suffix_append _ _

/-- Behind `ON` there is something before the comment clause. -/
theorem IsFront.ne_nil_of_on {front rest : List Char} (h : IsFront front)
    (hon : Text.keywordThenBlanks? "ON" front = some rest) : rest ≠ [] := by
  rintro rfl
  obtain ⟨word, hspells, hwords⟩ := Text.words_of_keywordThenBlanks (by decide) (by decide) hon
  refine h.notOn ⟨[word], ?_, .cons hspells .nil⟩
  rw [hwords]
  exact List.suffix_refl _

theorem IsFront.ne_nil_of_onTable {front middle rest : List Char} (h : IsFront front)
    (hon : Text.keywordThenBlanks? "ON" front = some middle)
    (htable : Text.keywordThenBlanks? "TABLE" middle = some rest) : rest ≠ [] := by
  rintro rfl
  obtain ⟨word, hspells, hwords⟩ := Text.words_of_keywordThenBlanks (by decide) (by decide) hon
  obtain ⟨last, hlast, hmiddle⟩ := Text.words_of_keywordThenBlanks (by decide) (by decide) htable
  refine h.notOnTable ⟨[word, last], ?_, .cons hspells (.cons hlast .nil)⟩
  rw [hwords, hmiddle]
  exact List.suffix_refl _

/-- A comment clause is no head of a field: behind its keyword, which would be the name, there is
the payload. -/
theorem fieldAndTable_clause {line : CommentLine} (hne : line.blanks ≠ [])
    (hblanks : ∀ c ∈ line.blanks, Text.isBlank c = true) (payload : List Char) :
    fieldAndTable? (line.clause payload) = none := by
  have hrun : ∀ c ∈ "COMMENT".toList, (!Text.isBlank c) = true := List.all_eq_true.mp (by decide)
  obtain ⟨b, blanks, hcons⟩ := List.exists_cons_of_ne_nil hne
  rw [hcons] at hblanks
  have hb : Text.isBlank b = true := hblanks b List.mem_cons_self
  have hstop : Text.Halts (fun c => !Text.isBlank c)
      (b :: (blanks ++ '"' :: (payload ++ '"' :: line.rear))) :=
    Text.halts_cons (by rw [hb]; rfl) _
  have hbehind : Text.afterBlanks? (b :: (blanks ++ '"' :: (payload ++ '"' :: line.rear))) =
      some ('"' :: (payload ++ '"' :: line.rear)) := by
    rw [Text.afterBlanks?, if_pos hb, Text.dropWhile_run
      (fun c hc => hblanks c (List.mem_cons_of_mem _ hc)) (Text.halts_cons (by decide) _)]
  have hon : Text.keywordThenBlanks? "ON" ('"' :: (payload ++ '"' :: line.rear)) = none := rfl
  unfold fieldAndTable? CommentLine.clause
  dsimp only
  rw [hcons, List.cons_append, Text.takeWhile_run hrun hstop, Text.dropWhile_run hrun hstop,
    hbehind, Option.bind_some, hon]
  rfl

/-- What a field is read from grows by the comment clause. -/
def FieldParts.append (more : List Char) (parts : FieldParts) : FieldParts :=
  { parts with clauses := parts.clauses ++ more }

/-- **The head of a field is read alike before a comment clause.** -/
theorem fieldAndTable_front {front : List Char} (h : IsFront front) {line : CommentLine}
    (hne : line.blanks ≠ []) (hblanks : ∀ c ∈ line.blanks, Text.isBlank c = true)
    (payload : List Char) :
    fieldAndTable? (front ++ line.clause payload) =
      (fieldAndTable? front).map (FieldParts.append (line.clause payload)) := by
  have hrest : ∃ more, line.clause payload = 'C' :: more := ⟨_, rfl⟩
  have hhalts := halts_comment hrest
  -- Without a front, the keyword of the clause stands where the name of the field would.
  by_cases hfront : front = []
  · rw [hfront, List.nil_append, fieldAndTable_clause hne hblanks]
    rfl
  · have hclass : ∀ c, Text.isBlank c = true → (!Text.isBlank c) = false := by
      intro c hc
      rw [hc]
      rfl
    unfold fieldAndTable?
    dsimp only
    rw [(h.endsBlank.leaves hclass).takeWhile_append hfront,
      (h.endsBlank.leaves hclass).dropWhile_append hfront, Text.afterBlanks_append hhalts]
    split
    · rfl
    · cases hname : Text.afterBlanks? (front.dropWhile fun c => !Text.isBlank c) with
      | none => rfl
      | some behind =>
          have hbehind := h.of_behind (behind_of_name hname)
          rw [Option.map_some, Option.bind_some, Option.bind_some,
            isHeadWord_on.keywordThenBlanks_front hrest hbehind.endsBlank]
          cases hon : Text.keywordThenBlanks? "ON" behind with
          | none => rfl
          | some table =>
              -- If the front ended here, `COMMENT` would be read as the name of the table.
              have htableNe := hbehind.ne_nil_of_on hon
              have htable := hbehind.endsBlank.of_suffix (isHeadWord_on.behind hon).suffix
              rw [Option.map_some, Option.bind_some, Option.bind_some]
              unfold behindOptional
              rw [isHeadWord_table.keywordThenBlanks_front hrest htable,
                tableName_front htable htableNe]
              cases hword : Text.keywordThenBlanks? "TABLE" table with
              | none =>
                  simp only [Option.map_none, Option.bind_none, Option.none_or, Option.map_map]
                  rfl
              | some last =>
                  have hlastNe := hbehind.ne_nil_of_onTable hon hword
                  have hlast := htable.of_suffix (isHeadWord_table.behind hword).suffix
                  rw [Option.map_some, Option.bind_some, Option.bind_some,
                    tableName_front hlast hlastNe, ← Option.map_or, Option.map_map, Option.map_map]
                  rfl

theorem suffix_of_fieldAndTable {text : List Char} {parts : FieldParts}
    (h : fieldAndTable? text = some parts) : parts.clauses <:+ text := by
  unfold fieldAndTable? at h
  dsimp only at h
  split at h
  · contradiction
  · obtain ⟨⟨name, rest⟩, hread, rfl⟩ := Option.map_eq_some_iff.mp h
    obtain ⟨table, htable, htableName⟩ := Option.bind_eq_some_iff.mp hread
    obtain ⟨behind, hname, hon⟩ := Option.bind_eq_some_iff.mp htable
    have hsuffix : table <:+ text :=
      (isHeadWord_on.behind hon).suffix.trans (behind_of_name hname).suffix
    rcases Option.or_eq_some_iff.mp htableName with hword | ⟨-, hbare⟩
    · obtain ⟨last, hword, hlast⟩ := Option.bind_eq_some_iff.mp hword
      exact (suffix_of_tableName hlast).trans
        ((isHeadWord_table.behind hword).suffix.trans hsuffix)
    · exact (suffix_of_tableName hbare).trans hsuffix

/-- The parts of a field that are read before a comment clause. -/
def frontParts? (front : List Char) : Option FieldParts :=
  (afterDefine? "FIELD" front).bind (behindOptional afterModifier? fieldAndTable?)

theorem suffix_of_frontParts {front : List Char} {parts : FieldParts}
    (h : frontParts? front = some parts) : parts.clauses <:+ front := by
  obtain ⟨behind, hdefine, hread⟩ := Option.bind_eq_some_iff.mp h
  have hbehind := (behind_of_afterDefine isHeadWord_field hdefine).suffix
  rcases Option.or_eq_some_iff.mp hread with hword | ⟨-, hbare⟩
  · obtain ⟨last, hword, hlast⟩ := Option.bind_eq_some_iff.mp hword
    exact (suffix_of_fieldAndTable hlast).trans
      ((behind_of_afterModifier hword).suffix.trans hbehind)
  · exact (suffix_of_fieldAndTable hbare).trans hbehind

/-! ## Clauses -/

section Clauses

variable {line : CommentLine} {front : List Char}

/-- A comment clause behind a text without its keyword is the first one. -/
theorem cutAt_clause (hblank : Text.EndsBlank front) (hno : ¬ "COMMENT".toList <:+: front)
    (payload : List Char) :
    cutAt? "COMMENT".toList (front ++ line.clause payload) =
      some (front, line.blanks ++ '"' :: (payload ++ '"' :: line.rear)) := by
  apply cutAt_of_first
  intro passed hne hsuffix hstarts
  rcases List.prefix_or_prefix_of_prefix hstarts (List.prefix_append passed _) with h | h
  · exact hno (h.isInfix.trans hsuffix.isInfix)
  · -- The keyword would have to reach over the blank at the end.
    obtain ⟨c, hc⟩ := Option.isSome_iff_exists.mp (List.getLast?_isSome.mpr hne)
    have hsolid : Text.Solid "COMMENT".toList := by decide
    have hlast := hblank.of_suffix hsuffix c hc
    rw [hsolid.2 c (h.subset (List.mem_of_getLast? hc))] at hlast
    contradiction

/-- A payload without quotes and backslashes ends at the quote behind it. -/
theorem untilQuote_of_plain {payload : List Char} (hquote : '"' ∉ payload)
    (hbackslash : '\\' ∉ payload) {before : Char} (hbefore : before ≠ '\\') (rest : List Char) :
    untilQuote? '"' before (payload ++ '"' :: rest) = some (payload, rest) := by
  -- The character before matters, as a backslash there would keep the quote from closing.
  induction payload generalizing before with
  | nil =>
      rw [List.nil_append, untilQuote?, if_pos ⟨rfl, hbefore⟩]
  | cons c payload ih =>
      have hc : ¬ (c = '"' ∧ before ≠ '\\') := by
        rintro ⟨rfl, -⟩
        exact hquote List.mem_cons_self
      have hnext : c ≠ '\\' := by
        rintro rfl
        exact hbackslash List.mem_cons_self
      rw [List.cons_append, untilQuote?, if_neg hc,
        ih (fun hmem => hquote (List.mem_cons_of_mem _ hmem))
          (fun hmem => hbackslash (List.mem_cons_of_mem _ hmem)) hnext]
      rfl

theorem payload_clause (hblanks : ∀ c ∈ line.blanks, Text.isBlank c = true) {payload : List Char}
    (hpayload : IsQuotable payload) :
    payload? (line.blanks ++ '"' :: (payload ++ '"' :: line.rear)) = some (payload, line.rear) := by
  have hcut : cutAt? ['"'] (line.blanks ++ (['"'] ++ (payload ++ '"' :: line.rear))) =
      some (line.blanks, payload ++ '"' :: line.rear) := by
    apply cutAt_of_first
    intro passed hne hsuffix hstarts
    obtain ⟨c, passed, rfl⟩ := List.exists_cons_of_ne_nil hne
    have hc := hblanks c (hsuffix.subset List.mem_cons_self)
    rw [List.cons_append, List.cons_prefix_cons] at hstarts
    rw [← hstarts.1] at hc
    exact absurd hc (by decide)
  rw [List.singleton_append] at hcut
  unfold payload?
  rw [hcut]
  exact untilQuote_of_plain hpayload.noQuote hpayload.noBackslash (by decide) line.rear

variable (hblank : Text.EndsBlank front) (hno : ¬ "COMMENT".toList <:+: front)
  (hblanks : ∀ c ∈ line.blanks, Text.isBlank c = true)
  {payload other : List Char} (hpayload : IsQuotable payload) (hother : IsQuotable other)
include hblank hno hblanks hpayload

/-- The payload is the comment. -/
theorem comment_clause : comment? (front ++ line.clause payload) = some payload := by
  unfold comment?
  rw [cutAt_clause hblank hno]
  dsimp only
  rw [payload_clause hblanks hpayload]
  simp [hpayload.ne_nil]

/-- The payload is taken out of the line together with its clause. -/
theorem withoutComment_clause :
    withoutComment (front ++ line.clause payload) = front ++ line.rear := by
  unfold withoutComment
  rw [cutAt_clause hblank hno]
  dsimp only
  rw [payload_clause hblanks hpayload]

include hother in
theorem default_clause :
    default? (front ++ line.clause other) = default? (front ++ line.clause payload) := by
  unfold default?
  rw [withoutComment_clause hblank hno hblanks hpayload,
    withoutComment_clause hblank hno hblanks hother]

include hother in
/-- **Fields whose clauses differ in the payload of their comment differ in their descriptions.** -/
theorem fieldOfClauses_clause (name : String) :
    (fieldOfClauses name (front ++ line.clause payload)).Reworded (String.ofList payload)
      (String.ofList other) (fieldOfClauses name (front ++ line.clause other)) := by
  have hbefore : ∀ text, beforeComment (front ++ line.clause text) = front := by
    intro text
    unfold beforeComment
    rw [cutAt_clause hblank hno]
  constructor
  · show (comment? _).map String.ofList = _
    rw [comment_clause hblank hno hblanks hpayload, Option.map_some]
  · -- Types and markers are read before the comment, and defaults without it.
    unfold fieldOfClauses
    dsimp only
    rw [hbefore, hbefore, comment_clause hblank hno hblanks hother, Option.map_some,
      default_clause hblank hno hblanks hpayload hother]

end Clauses

/-! ## Kinds of lines -/

section Kinds

variable {line : CommentLine} (hne : line.blanks ≠ [])
  (hblanks : ∀ c ∈ line.blanks, Text.isBlank c = true) {front : List Char}
include hne hblanks

/-- The name of a table never comes from the payload. -/
theorem map_fst_tableName (h : Text.EndsBlank front) (payload other : List Char) :
    (tableName? (front ++ line.clause other)).map Prod.fst =
      (tableName? (front ++ line.clause payload)).map Prod.fst := by
  by_cases hfront : front = []
  · -- The keyword of the clause is the name, and the blanks behind it end it.
    have hends : ∀ text, EndsName (line.blanks ++ text) := by
      intro text
      obtain ⟨b, blanks, hcons⟩ := List.exists_cons_of_ne_nil hne
      have hb : Text.isBlank b = true := hblanks b (by rw [hcons]; exact List.mem_cons_self)
      rw [hcons, List.cons_append]
      apply Text.halts_cons
      rw [Text.isWord_of_isBlank hb, Bool.false_or, beq_eq_false_iff_ne]
      rintro rfl
      exact absurd hb (by decide)
    have hname : IsWordName "COMMENT".toList := ⟨by decide, List.all_eq_true.mp (by decide)⟩
    unfold CommentLine.clause
    rw [hfront, List.nil_append, List.nil_append, tableName_append hname (hends _),
      tableName_append hname (hends _)]
    rfl
  · rw [tableName_front h hfront, tableName_front h hfront, Option.map_map, Option.map_map]
    rfl

/-- Neither does the table that a line defines. -/
theorem definedTable_clause (h : Text.EndsBlank front) (payload other : List Char) :
    definedTable? (front ++ line.clause other) = definedTable? (front ++ line.clause payload) := by
  have hrest : ∀ text, ∃ more, line.clause text = 'C' :: more := fun text => ⟨_, rfl⟩
  rw [definedTable_eq, definedTable_eq]
  rw [afterDefine_front (hrest _) isHeadWord_table h,
    afterDefine_front (hrest _) isHeadWord_table h]
  cases hdefine : afterDefine? "TABLE" front with
  | none => rfl
  | some behind =>
      have hbehind := h.of_suffix (behind_of_afterDefine isHeadWord_table hdefine).suffix
      rw [Option.map_some, Option.map_some, Option.bind_some, Option.bind_some]
      unfold behindOptional
      rw [afterModifier_front (hrest _) hbehind, afterModifier_front (hrest _) hbehind]
      cases hmodifier : afterModifier? behind with
      | none =>
          simp only [Option.map_none, Option.bind_none, Option.none_or]
          rw [map_fst_tableName hne hblanks hbehind payload other]
      | some last =>
          have hlast := hbehind.of_suffix (behind_of_afterModifier hmodifier).suffix
          simp only [Option.map_some, Option.bind_some, Option.map_or]
          rw [map_fst_tableName hne hblanks hbehind payload other,
            map_fst_tableName hne hblanks hlast payload other]

/-- What a line defines a field from never comes from the payload, except for its clauses. -/
theorem fieldParts_clause (h : IsFront front) {payload : List Char}
    (htrimmed : Text.Trimmed (front ++ line.clause payload)) :
    fieldParts? (front ++ line.clause payload) =
      (frontParts? front).map (FieldParts.append (line.clause payload)) := by
  have hrest : ∃ more, line.clause payload = 'C' :: more := ⟨_, rfl⟩
  unfold fieldParts? frontParts?
  rw [Text.trim_eq_self htrimmed, afterDefine_front hrest isHeadWord_field h.endsBlank]
  cases hdefine : afterDefine? "FIELD" front with
  | none => rfl
  | some behind =>
      have hbehind := h.of_behind (behind_of_afterDefine isHeadWord_field hdefine)
      rw [Option.map_some, Option.bind_some, Option.bind_some]
      unfold behindOptional
      rw [afterModifier_front hrest hbehind.endsBlank,
        fieldAndTable_front hbehind hne hblanks payload, Option.map_or]
      cases hmodifier : afterModifier? behind with
      | none => rfl
      | some last =>
          rw [Option.map_some, Option.bind_some, Option.bind_some,
            fieldAndTable_front (hbehind.of_behind (behind_of_afterModifier hmodifier)) hne hblanks
              payload]

end Kinds

/-! ## Whole lines -/

namespace CommentLine

variable {line : CommentLine}

/-- What stands behind the payload stands behind the quote that closes it. -/
theorem append_clause (line : CommentLine) (front payload : List Char) :
    front ++ line.clause payload =
      (front ++ ("COMMENT".toList ++ (line.blanks ++ '"' :: payload))) ++ '"' :: line.rear := by
  unfold clause
  generalize "COMMENT".toList = keyword
  simp only [List.append_assoc, List.cons_append]

/-- Taking the blanks around a line away takes them from its front and its rear. -/
theorem trim_text (line : CommentLine) (payload : List Char) :
    Text.trim (line.text payload) = line.trimmed.text payload := by
  have hstart : Text.trimStart (line.front ++ line.clause payload) =
      Text.trimStart line.front ++ line.clause payload :=
    Text.dropWhile_blanks_append (halts_comment ⟨_, rfl⟩) line.front
  have hkept : Text.isBlank '"' = false := by decide
  unfold Text.trim text
  rw [hstart, append_clause, append_clause]
  exact Text.dropTrailing_append_of_last hkept line.rear

theorem Valid.trimmed (h : line.Valid) : line.trimmed.Valid :=
  ⟨h.front.of_behind (Text.behind_trimStart line.front), h.blanks_ne_nil, h.blanks⟩

/-- A line ends its statement or not by what stands behind the payload. -/
theorem isTerminated_text (line : CommentLine) (payload other : List Char) :
    isTerminated (line.text other) = isTerminated (line.text payload) := by
  -- Blanks are taken away up to the quote that closes the payload, at most.
  have hkept : Text.isBlank '"' = false := by decide
  have hlast : ∀ text, (Text.trimEnd (line.text text)).getLast? =
      ('"' :: Text.trimEnd line.rear).getLast? := by
    intro text
    rw [CommentLine.text, append_clause, Text.trimEnd, Text.dropTrailing_append_of_last hkept,
      List.getLast?_append_of_ne_nil _ (List.cons_ne_nil _ _)]
    rfl
  unfold isTerminated
  rw [hlast, hlast]

variable {payload other : List Char}

/-- **The kind of a line does not depend on the payload**, but for the description of a field. -/
theorem Valid.ofTrimmed_text (h : line.Valid) (hpayload : IsQuotable payload)
    (hother : IsQuotable other) (htrimmed : ∀ text, Text.Trimmed (line.text text))
    (hcomment : startsComment (line.text payload) = false) :
    (Line.ofTrimmed (line.text payload)).Reworded (String.ofList payload) (String.ofList other)
      (Line.ofTrimmed (line.text other)) := by
  have hrest : ∀ text, ∃ more, line.clause text = 'C' :: more := fun text => ⟨_, rfl⟩
  have hne : ∀ text, line.text text ≠ [] := by
    intro text
    obtain ⟨more, hmore⟩ := hrest text
    rw [CommentLine.text, hmore]
    exact List.append_ne_nil_of_right_ne_nil _ (List.cons_ne_nil _ _)
  have hcomment' : startsComment (line.text other) = false := by
    rw [CommentLine.text, startsComment_front (hrest _)] at hcomment ⊢
    exact hcomment
  have htable : definedTable? (line.text other) = definedTable? (line.text payload) :=
    definedTable_clause h.blanks_ne_nil h.blanks h.front.endsBlank payload other
  have hstart : ∀ text, startsField (line.text text) = startsField line.front :=
    fun text => startsField_front (hrest text) h.front.endsBlank
  have hdefine : ∀ text, startsWith "DEFINE" (line.text text) = startsWith "DEFINE" line.front :=
    fun text => isHeadWord_define.startsWith_front (hrest text) h.front.endsBlank
  have hparts : ∀ text, fieldParts? (line.text text) =
      (frontParts? line.front).map (FieldParts.append (line.clause text)) :=
    fun text => fieldParts_clause h.blanks_ne_nil h.blanks h.front (htrimmed text)
  -- Each reader sees the front only, so that both lines take the same branch.
  rw [Line.ofTrimmed_of_not_comment (hne _) hcomment,
    Line.ofTrimmed_of_not_comment (hne _) hcomment', htable, hstart, hstart, hdefine, hdefine]
  split
  · exact .same _
  · split
    · unfold definedField?
      rw [hparts, hparts]
      cases hfront : frontParts? line.front with
      | none => exact .same _
      | some parts =>
          have hsuffix := suffix_of_frontParts hfront
          simp only [Option.map_some, FieldParts.append]
          split
          · exact .same _
          · apply Line.Reworded.field
            exact fieldOfClauses_clause (h.front.endsBlank.of_suffix hsuffix)
              (fun hstands => h.front.noComment (hstands.trans hsuffix.isInfix)) h.blanks hpayload
              hother parts.name
    · exact .same _

/-- Lines that differ in the payload of their comment say the same in everything else. -/
theorem Valid.sameButComment (h : line.Valid) (hpayload : IsQuotable payload)
    (hother : IsQuotable other) (htrimmed : ∀ text, Text.Trimmed (line.text text))
    (hcomment : startsComment (line.text payload) = false) :
    SameButComment (String.ofList payload) (String.ofList other) (line.text payload)
      (line.text other) where
  comment := by
    rw [text, comment_clause h.front.endsBlank h.front.noComment h.blanks hpayload, Option.map_some]
  comment' := by
    rw [text, comment_clause h.front.endsBlank h.front.noComment h.blanks hother, Option.map_some]
  default := default_clause h.front.endsBlank h.front.noComment h.blanks hpayload hother
  terminated := isTerminated_text line payload other
  kind := h.ofTrimmed_text hpayload hother htrimmed hcomment

/-- **The payload of a comment is only ever a description.**  Two documents that differ in the
payload of one comment give the same tables, except for the description of one table or of one
field, which is the payload. -/
theorem finish_run_reworded (h : line.Valid) (hpayload : IsQuotable payload)
    (hother : IsQuotable other) (hcomment : startsComment (Text.trim (line.text payload)) = false)
    (before after : List (List Char)) :
    UpToOne (Table.Reworded (String.ofList payload) (String.ofList other))
      (State.run (before ++ line.text payload :: after)).finish
      (State.run (before ++ line.text other :: after)).finish := by
  have htrimmed : ∀ text, Text.Trimmed (line.trimmed.text text) := by
    intro text
    rw [← trim_text]
    exact Text.trimmed_trim _
  apply State.finish_run_apart
  rw [trim_text] at hcomment
  rw [trim_text, trim_text]
  exact h.trimmed.sameButComment hpayload hother htrimmed hcomment

/-- The first line of the definition of a field, with clauses on both sides of its comment. -/
def ofNote : CommentLine where
  front := " define field note ON TABLE post TYPE option<record<user>> OPTIONAL ".toList
  blanks := "\t ".toList
  rear := " DEFAULT none".toList

/-- A payload that spells clauses, statements and comments stays a description. -/
theorem finish_run_reworded_note :
    let payload := "; DEFINE TABLE x; TYPE int -- OPTIONAL VALUE 1 COMMENT 'y'".toList
    let other := "see the user".toList
    let before := ["-- Posts".toList, "DEFINE TABLE post;".toList]
    let after := ["PERMISSIONS FULL COMMENT \"more\";".toList, "DEFINE TABLE USER".toList]
    (ofNote.Valid ∧ IsQuotable payload ∧ IsQuotable other ∧
        startsComment (Text.trim (ofNote.text payload)) = false) ∧
      UpToOne (Table.Reworded (String.ofList payload) (String.ofList other))
        (State.run (before ++ ofNote.text payload :: after)).finish
        (State.run (before ++ ofNote.text other :: after)).finish := by
  intro payload other before after
  have hvalid : ofNote.Valid := by decide +kernel
  have hpayload : IsQuotable payload := by decide +kernel
  have hother : IsQuotable other := by decide +kernel
  have hcomment : startsComment (Text.trim (ofNote.text payload)) = false := by decide +kernel
  exact ⟨⟨hvalid, hpayload, hother, hcomment⟩,
    finish_run_reworded hvalid hpayload hother hcomment before after⟩

end CommentLine

end Ddl
end SurrealSchema
