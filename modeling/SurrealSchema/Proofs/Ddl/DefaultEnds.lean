import SurrealSchema.Proofs.Ddl.FurtherClauses
import SurrealSchema.Proofs.Ddl.QuotedPayloads

namespace SurrealSchema
namespace Ddl

/-!
# Where a default ends

The clauses that may stand behind the default of a field.  The text of a type ends in front of each
of them.  The expression of a default ends in front of some of them only; the others are taken for a
part of it.  The comment is taken out before the default is read, so behind a comment clause the
next clause counts.  A comment that ends in a backslash is not closed by its own quote, but by the
next one that opens a comment, if there is one.
-/

/-! ## Clauses behind a default -/

/-- A clause that may stand behind a default. -/
inductive LaterClause where
  /-- A keyword alone. -/
  | marker (keyword : String)
  /-- A keyword with a text behind it. -/
  | rule (keyword : String) (body : List Char)
  | comment (payload : List Char)

namespace LaterClause

/-- The keyword of a clause. -/
def keyword : LaterClause → String
  | marker keyword => keyword
  | rule keyword _ => keyword
  | comment _ => "COMMENT"

/-- What follows the keyword of a clause. -/
def behind : LaterClause → List Char
  | marker _ => []
  | rule _ body => ' ' :: body
  | comment payload => ' ' :: '"' :: (payload ++ ['"'])

/-- A clause as it is written. -/
def text (clause : LaterClause) : List Char :=
  clause.keyword.toList ++ clause.behind

/-- Whether a clause is a comment. -/
def IsComment : LaterClause → Prop
  | comment _ => True
  | _ => False

instance (clause : LaterClause) : Decidable clause.IsComment := by
  cases clause <;> unfold IsComment <;> infer_instance

/-- Whether a clause is one of those that may stand behind a default, and no clause starts in its
text. -/
def Valid : LaterClause → Prop
  | marker keyword => keyword ∈ ["READONLY", "OPTIONAL", "FLEXIBLE"]
  | rule keyword body =>
    keyword ∈ ["VALUE", "ASSERT", "PERMISSIONS"] ∧ FreeOfClauses body ∧ '"' ∉ body
  | comment payload => FreeOfClauses payload ∧ '"' ∉ payload

instance (clause : LaterClause) : Decidable clause.Valid := by
  cases clause <;> unfold Valid <;> infer_instance

variable {clause : LaterClause}

theorem Valid.keyword_mem (h : clause.Valid) : clause.keyword ∈ typeEnds := by
  have hmarkers : ∀ keyword ∈ ["READONLY", "OPTIONAL", "FLEXIBLE"], keyword ∈ typeEnds := by decide
  have hrules : ∀ keyword ∈ ["VALUE", "ASSERT", "PERMISSIONS"], keyword ∈ typeEnds := by decide
  cases clause with
  | marker keyword => exact hmarkers keyword h
  | rule keyword body => exact hrules keyword h.1
  | comment payload =>
      show "COMMENT" ∈ typeEnds
      decide

theorem Valid.not_infix_text (h : clause.Valid) (hno : ¬ clause.IsComment) :
    ¬ "COMMENT".toList <:+: clause.text := by
  have hmarkers : ∀ keyword ∈ ["READONLY", "OPTIONAL", "FLEXIBLE"],
      ¬ "COMMENT".toList <:+: keyword.toList ++ [] := by decide
  have hrules : ∀ keyword ∈ ["VALUE", "ASSERT", "PERMISSIONS"],
      ¬ "COMMENT".toList <:+: keyword.toList := by decide
  cases clause with
  | marker keyword => exact hmarkers keyword h
  | rule keyword body => exact not_infix_append_space (hrules keyword h.1) h.2.1.comment
  | comment payload => exact absurd trivial hno

theorem Valid.quote_not_mem_text (h : clause.Valid) (hno : ¬ clause.IsComment) :
    '"' ∉ clause.text := by
  have hmarkers : ∀ keyword ∈ ["READONLY", "OPTIONAL", "FLEXIBLE"],
      '"' ∉ keyword.toList ++ [] := by decide
  have hrules : ∀ keyword ∈ ["VALUE", "ASSERT", "PERMISSIONS"], '"' ∉ keyword.toList := by decide
  cases clause with
  | marker keyword => exact hmarkers keyword h
  | rule keyword body =>
      intro hmem
      rcases List.mem_append.mp hmem with hmem | hmem
      · exact hrules keyword h.1 hmem
      · exact h.2.2 ((List.mem_cons.mp hmem).resolve_left (by decide))
  | comment payload => exact absurd trivial hno

theorem halts_behind (clause : LaterClause) {rest : List Char}
    (hrest : Text.Halts Text.isWord rest) : Text.Halts Text.isWord (clause.behind ++ rest) := by
  cases clause with
  | marker keyword => exact hrest
  | rule keyword body => exact Text.halts_cons (by decide) _
  | comment payload => exact Text.halts_cons (by decide) _

end LaterClause

/-- The clauses as they are written, with a space before each. -/
def writtenLater (clauses : List LaterClause) : List Char :=
  joined (clauses.map LaterClause.text)

theorem writtenLater_cons (clause : LaterClause) (clauses : List LaterClause) :
    writtenLater (clause :: clauses) = ' ' :: (clause.text ++ writtenLater clauses) :=
  joined_cons _ _

/-- The keywords in front of which the expression of a default ends. -/
def expressionEnds : List String :=
  ["COMMENT", "PERMISSIONS", "ASSERT", "READONLY"]

/-- Whether the expression of a default ends in front of the clauses behind it. -/
def EndsDefault : List LaterClause → Prop
  | [] => True
  | .comment payload :: clauses =>
    if payload.getLast? = some '\\' then ∀ clause ∈ clauses, ¬ clause.IsComment
    else ∀ clause ∈ clauses.head?, clause.keyword ∈ expressionEnds
  | clause :: _ => clause.keyword ∈ expressionEnds

instance (clauses : List LaterClause) : Decidable (EndsDefault clauses) := by
  unfold EndsDefault
  split <;> infer_instance

/-! ## The end of an expression -/

/-- Whether only blanks come before the end of an expression. -/
def StopsAtOnce (before : Option Char) (text : List Char) : Prop :=
  ∀ c ∈ Text.upTo endsExpression before text, Text.isBlank c = true

section Stops

variable {before : Option Char} {text rest : List Char}

theorem mem_typeEnds_of_mem {word : String} (h : word ∈ expressionEnds) : word ∈ typeEnds := by
  have hall : ∀ word ∈ expressionEnds, word ∈ typeEnds := by decide
  exact hall word h

/-- An expression goes on through a character that is neither a part of a word nor a semicolon. -/
theorem endsExpression_eq_false {c : Char} (hc : Text.isWord c = false) (hsemicolon : c ≠ ';')
    (text : List Char) : endsExpression before (c :: text) = false := by
  have hkeywords : Text.atKeyword expressionEnds before (c :: text) = false := by
    refine List.any_eq_false.mpr fun word hword => ?_
    rw [(readsWord_of_mem_typeEnds (mem_typeEnds_of_mem hword)).halted _ _ (Text.halts_cons hc _)]
    exact Bool.false_ne_true
  show (_ || Text.atKeyword expressionEnds before (c :: text)) = false
  rw [hkeywords, Bool.or_false, List.head?_cons]
  exact beq_eq_false_iff_ne.mpr fun h => hsemicolon (Option.some.inj h)

/-- Whether an expression ends in front of a keyword is a matter of the keyword alone. -/
theorem endsExpression_keyword {word : String} (hword : word ∈ typeEnds)
    (hrest : Text.Halts Text.isWord rest) :
    endsExpression (some ' ') (word.toList ++ rest) = decide (word ∈ expressionEnds) := by
  have hall : ∀ word ∈ typeEnds, word.toList ≠ [] ∧
      endsExpression (some ' ') word.toList = decide (word ∈ expressionEnds) := by decide
  obtain ⟨hne, hends⟩ := hall word hword
  have hhead : (word.toList ++ rest).head? = word.toList.head? := List.head?_append_of_ne_nil _ hne
  have hkeywords : Text.atKeyword expressionEnds (some ' ') (word.toList ++ rest) =
      Text.atKeyword expressionEnds (some ' ') word.toList := by
    unfold Text.atKeyword
    rw [Bool.eq_iff_iff, List.any_eq_true, List.any_eq_true]
    refine exists_congr fun other => and_congr_right fun hother => ?_
    rw [(readsWord_of_mem_typeEnds (mem_typeEnds_of_mem hother)).append _ _ _ hrest,
      Option.isSome_map]
  rw [← hends]
  show (_ || Text.atKeyword expressionEnds _ _) = (_ || Text.atKeyword expressionEnds _ _)
  rw [hhead, hkeywords]

theorem stopsAtOnce_nil : StopsAtOnce before [] :=
  fun _ hc => absurd hc List.not_mem_nil

theorem stopsAtOnce_space : StopsAtOnce before (' ' :: text) ↔ StopsAtOnce (some ' ') text := by
  have hspace : Text.isBlank ' ' = true := by decide
  unfold StopsAtOnce
  rw [Text.upTo, endsExpression_eq_false (by decide) (by decide), if_neg Bool.false_ne_true,
    List.forall_mem_cons]
  exact ⟨fun h => h.2, fun h => ⟨hspace, h⟩⟩

theorem stopsAtOnce_keyword {word : String} (hword : word ∈ typeEnds)
    (hrest : Text.Halts Text.isWord rest) :
    StopsAtOnce (some ' ') (word.toList ++ rest) ↔ word ∈ expressionEnds := by
  have hall : ∀ word ∈ typeEnds,
      ∃ letter letters, word.toList = letter :: letters ∧ Text.isBlank letter = false := by
    have hsolid : ∀ word ∈ typeEnds, word.toList.head?.any fun c => !Text.isBlank c := by decide
    intro word hword
    have hhead := hsolid word hword
    cases htext : word.toList with
    | nil => rw [htext] at hhead; contradiction
    | cons letter letters =>
        rw [htext] at hhead
        exact ⟨letter, letters, rfl, by simpa using hhead⟩
  have hends := endsExpression_keyword hword hrest
  obtain ⟨letter, letters, htext, hletter⟩ := hall word hword
  unfold StopsAtOnce
  rw [htext] at hends ⊢
  rw [List.cons_append] at hends ⊢
  by_cases hmem : word ∈ expressionEnds
  · simp [Text.upTo, hends, hmem]
  · simp [Text.upTo, hends, hmem, hletter]

/-- An expression goes on through a quote. -/
theorem not_stopsAtOnce_quote {payload : List Char} (hpayload : FreeOfClauses payload)
    (rest : List Char) : ¬ StopsAtOnce before (payload ++ '"' :: rest) := by
  have hquote : Text.Halts Text.isWord ('"' :: rest) := Text.halts_cons (by decide) _
  have hnone : ∀ c ∈ ([] : List Char), Text.isBlank c = true :=
    fun _ hc => absurd hc List.not_mem_nil
  have hpasses := hpayload.passes_endsExpression hnone hquote before
  rw [List.append_nil] at hpasses
  intro hstops
  have hmem : '"' ∈ Text.upTo endsExpression before (payload ++ '"' :: rest) := by
    rw [Text.upTo_of_passes hpasses, Text.upTo,
      endsExpression_eq_false (by decide) (by decide)]
    exact List.mem_append_right _ List.mem_cons_self
  exact absurd (hstops '"' hmem) (by decide)

end Stops

/-! ## Clauses without their comment -/

theorem withoutComment_append_joined {front : List Char} (hfront : ¬ "COMMENT".toList <:+: front)
    (parts : List (List Char)) :
    withoutComment (front ++ joined parts) = front ++ withoutComment (joined parts) := by
  apply withoutComment_append_of_passed
  intro passed hne hsuffix hstarts
  rcases joined_eq parts with heq | ⟨text, heq⟩
  · rw [heq, List.append_nil] at hstarts
    exact hfront (hstarts.isInfix.trans hsuffix.isInfix)
  · rw [heq] at hstarts
    exact hfront ((Text.prefix_append_mark (by decide) hstarts).isInfix.trans hsuffix.isInfix)

theorem halts_withoutComment (clauses : List LaterClause) :
    Text.Halts Text.isWord (withoutComment (writtenLater clauses)) := by
  unfold writtenLater
  rcases joined_eq (clauses.map LaterClause.text) with heq | ⟨text, heq⟩
  · rw [heq]
    exact Text.halts_nil _
  · rw [heq, withoutComment_space]
    exact Text.halts_cons (by decide) _

section Written

variable {clause : LaterClause} {clauses : List LaterClause}

/-- A clause that is no comment is kept. -/
theorem withoutComment_writtenLater (h : clause.Valid) (hno : ¬ clause.IsComment) :
    withoutComment (writtenLater (clause :: clauses)) =
      ' ' :: (clause.keyword.toList ++
        (clause.behind ++ withoutComment (writtenLater clauses))) := by
  rw [writtenLater_cons, withoutComment_space]
  unfold writtenLater
  rw [withoutComment_append_joined (h.not_infix_text hno), LaterClause.text, List.append_assoc]

/-- Of a comment clause that comes first its space is kept, and what follows its payload. -/
theorem withoutComment_writtenLater_comment (payload : List Char) (clauses : List LaterClause) :
    withoutComment (writtenLater (.comment payload :: clauses)) =
      ' ' :: ((payload? (' ' :: '"' :: (payload ++ '"' :: writtenLater clauses))).elim []
        Prod.snd) := by
  have hnil : ¬ "COMMENT".toList <:+: [] := by decide
  have hcut := cutAt_commentClause_of_absent hnil payload (writtenLater clauses)
  have htext : (LaterClause.comment payload).text = commentClause payload := rfl
  rw [writtenLater_cons, withoutComment_space, htext]
  unfold withoutComment
  rw [List.nil_append] at hcut
  rw [hcut]
  dsimp only
  cases payload? (' ' :: '"' :: (payload ++ '"' :: writtenLater clauses)) with
  | none => rfl
  | some cut => rfl

theorem quote_not_mem_writtenLater (h : ∀ clause ∈ clauses, clause.Valid)
    (hno : ∀ clause ∈ clauses, ¬ clause.IsComment) : '"' ∉ writtenLater clauses := by
  induction clauses with
  | nil => exact List.not_mem_nil
  | cons clause clauses ih =>
      obtain ⟨hclause, hclauses⟩ := List.forall_mem_cons.mp h
      obtain ⟨hfirst, hothers⟩ := List.forall_mem_cons.mp hno
      rw [writtenLater_cons, List.mem_cons, List.mem_append]
      rintro (hmem | hmem | hmem)
      · exact absurd hmem (by decide)
      · exact hclause.quote_not_mem_text hfirst hmem
      · exact ih hclauses hothers hmem

/-- The first quotes in some clauses are those of the first comment, behind a space. -/
theorem exists_quotes (h : ∀ clause ∈ clauses, clause.Valid)
    (hsome : ¬ ∀ clause ∈ clauses, ¬ clause.IsComment) :
    ∃ front payload rest, writtenLater clauses = front ++ ' ' :: '"' :: (payload ++ '"' :: rest) ∧
      '"' ∉ front ∧ FreeOfClauses payload := by
  induction clauses with
  | nil => exact absurd (fun _ hmem => absurd hmem List.not_mem_nil) hsome
  | cons clause clauses ih =>
      obtain ⟨hclause, hclauses⟩ := List.forall_mem_cons.mp h
      rw [writtenLater_cons]
      by_cases hcomment : clause.IsComment
      · cases clause with
        | comment payload =>
            refine ⟨' ' :: "COMMENT".toList, payload, writtenLater clauses, ?_, by decide,
              hclause.1⟩
            unfold LaterClause.text LaterClause.keyword LaterClause.behind
            generalize "COMMENT".toList = keyword
            simp
        | marker keyword => contradiction
        | rule keyword body => contradiction
      · obtain ⟨front, payload, rest, htext, hfront, hpayload⟩ := ih hclauses fun hall =>
          hsome (List.forall_mem_cons.mpr ⟨hcomment, hall⟩)
        refine ⟨' ' :: (clause.text ++ front), payload, rest, ?_, ?_, hpayload⟩
        · rw [htext, List.cons_append, List.append_assoc]
        · rw [List.mem_cons, List.mem_append]
          rintro (hmem | hmem | hmem)
          · exact absurd hmem (by decide)
          · exact hclause.quote_not_mem_text hcomment hmem
          · exact hfront hmem

/-- In front of clauses of which none is taken out, an expression ends if it ends in front of the
first. -/
theorem stopsAtOnce_writtenLater (h : ∀ clause ∈ clauses, clause.Valid) {before : Option Char} :
    StopsAtOnce before (writtenLater clauses) ↔
      ∀ clause ∈ clauses.head?, clause.keyword ∈ expressionEnds := by
  cases clauses with
  | nil => exact ⟨fun _ _ hmem => absurd hmem (Option.not_mem_none _), fun _ => stopsAtOnce_nil⟩
  | cons clause clauses =>
      have hrest := halts_joined_append (clauses.map LaterClause.text) (Text.halts_nil Text.isWord)
      rw [List.append_nil] at hrest
      have hkeyword := stopsAtOnce_keyword (h clause List.mem_cons_self).keyword_mem
        (clause.halts_behind hrest)
      rw [writtenLater_cons, stopsAtOnce_space, LaterClause.text, List.append_assoc]
      refine hkeyword.trans ⟨fun hmem other hother => ?_, fun hall => hall clause rfl⟩
      rw [← Option.some.inj hother]
      exact hmem

/-- **An expression in front of some clauses ends before them exactly when `EndsDefault` says
so.** -/
theorem stopsAtOnce_withoutComment (h : ∀ clause ∈ clauses, clause.Valid) {before : Option Char} :
    StopsAtOnce before (withoutComment (writtenLater clauses)) ↔ EndsDefault clauses := by
  have hkept : ∀ {clause : LaterClause} {clauses : List LaterClause}, clause.Valid →
      ¬ clause.IsComment → (StopsAtOnce before (withoutComment (writtenLater (clause :: clauses))) ↔
        clause.keyword ∈ expressionEnds) := by
    intro clause clauses hclause hno
    rw [withoutComment_writtenLater hclause hno, stopsAtOnce_space]
    exact stopsAtOnce_keyword hclause.keyword_mem
      (clause.halts_behind (halts_withoutComment clauses))
  match clauses with
  | [] => exact ⟨fun _ => trivial, fun _ => stopsAtOnce_nil⟩
  | .marker keyword :: clauses => exact hkept (h _ List.mem_cons_self) id
  | .rule keyword body :: clauses => exact hkept (h _ List.mem_cons_self) id
  | .comment payload :: clauses =>
      obtain ⟨⟨-, hquote⟩, hclauses⟩ := List.forall_mem_cons.mp h
      have hread := payload_of_none (untilQuote_eq_none hquote '"') (writtenLater clauses)
      rw [withoutComment_writtenLater_comment, hread, stopsAtOnce_space, EndsDefault]
      by_cases hends : payload.getLast? = some '\\'
      · rw [if_pos hends, if_pos hends]
        by_cases hno : ∀ clause ∈ clauses, ¬ clause.IsComment
        · rw [untilQuote_eq_none (quote_not_mem_writtenLater hclauses hno)]
          exact ⟨fun _ => hno, fun _ => stopsAtOnce_nil⟩
        · -- The payload goes on up to the quote that opens the next comment.
          obtain ⟨front, other, rest, htext, hfront, hother⟩ := exists_quotes hclauses hno
          have hopen : '"' ∉ front ++ [' '] := by
            simp [hfront]
          have hclose := untilQuote_append_of_none (untilQuote_eq_none hopen '"')
            ('"' :: (other ++ '"' :: rest))
          rw [untilQuote_quote, if_neg (by simp), List.append_assoc, List.singleton_append,
            ← htext] at hclose
          rw [hclose]
          exact ⟨fun hstops => absurd hstops (not_stopsAtOnce_quote hother rest),
            fun hall => absurd hall hno⟩
      · rw [if_neg hends, if_neg hends]
        exact stopsAtOnce_writtenLater hclauses

end Written

/-! ## The default -/

/-- The clauses of a type and a default. -/
def typedDefault (type value : List Char) : List Char :=
  "TYPE".toList ++ ' ' :: type ++ ' ' :: ("DEFAULT".toList ++ ' ' :: value)

/-- What is trimmed off behind a trimmed text are blanks. -/
theorem trimEnd_append_eq_iff {text more : List Char} (h : Text.Trimmed text) :
    Text.trimEnd (text ++ more) = text ↔ ∀ c ∈ more, Text.isBlank c = true := by
  constructor
  · intro heq
    obtain ⟨dropped, hsplit, hblank⟩ := Text.dropTrailing_append Text.isBlank (text ++ more)
    have hkept : Text.dropTrailing Text.isBlank (text ++ more) = text := heq
    rw [hkept] at hsplit
    rw [List.append_cancel_left hsplit]
    exact hblank
  · exact Text.trimEnd_append_blanks h

/-- **The default of a field is its expression exactly when that ends in front of the clauses behind
it.** -/
theorem defaultValue_eq_iff {type value : List Char} {clauses : List LaterClause}
    (htype : FreeOfClauses type) (hvalue : IsClauseText value)
    (halways : ¬ "ALWAYS".toList <+: value) (hclauses : ∀ clause ∈ clauses, clause.Valid) (name : String) :
    (fieldOfClauses name (typedDefault type value ++ writtenLater clauses)).defaultValue =
        some (String.ofList value) ↔ EndsDefault clauses := by
  have hkeyword : FreeOfClauses "TYPE".toList := by decide
  have hfront := hkeyword.append_space htype
  have hcomment : ¬ "COMMENT".toList <:+: typedDefault type value :=
    not_infix_append_space hfront.comment (not_infix_append_space (by decide) hvalue.free.comment)
  have hwithout : withoutComment (typedDefault type value ++ writtenLater clauses) =
      "TYPE".toList ++ ' ' :: type ++ ' ' :: ("DEFAULT".toList ++ ' ' :: (value ++
        withoutComment (writtenLater clauses))) := by
    unfold writtenLater
    rw [withoutComment_append_joined hcomment]
    unfold typedDefault
    simp only [List.append_assoc, List.cons_append]
  have hsub : ∀ word ∈ ["DEFAULT", "VALUE"], word ∈ typeEnds := by decide
  have hrest := halts_withoutComment clauses
  have hfound := search_defaultClause (fun word hword => hfront.keywords word (hsub word hword))
    (expression_goesOn hvalue hrest) (alwaysExpression_eq_none hvalue halways hrest)
  have hdefault : default? (typedDefault type value ++ writtenLater clauses) = some value ↔
      EndsDefault clauses := by
    rw [← stopsAtOnce_withoutComment hclauses, StopsAtOnce, ← trimEnd_append_eq_iff hvalue.trimmed]
    unfold default?
    rw [hwithout, hfound, Option.filter_eq_some_iff, Option.some_inj]
    exact ⟨fun h => h.1, fun h => ⟨h, by simpa using hvalue.ne_nil⟩⟩
  rw [← hdefault]
  constructor
  · intro h
    obtain ⟨found, hread, heq⟩ := Option.map_eq_some_iff.mp h
    rw [hread, String.ofList_injective heq]
  · intro h
    show (default? _).map String.ofList = _
    rw [h]
    rfl

/-- A default in front of a marker and a comment. -/
theorem defaultValue_eq_readonly :
    FreeOfClauses "int".toList ∧ IsClauseText "0".toList ∧ ¬ "ALWAYS".toList <+: "0".toList ∧
      (∀ clause ∈
        [LaterClause.comment "years".toList, .marker "READONLY", .rule "VALUE" "1".toList],
        clause.Valid) ∧
      (fieldOfClauses "age" (typedDefault "int".toList "0".toList ++ writtenLater
        [.comment "years".toList, .marker "READONLY", .rule "VALUE" "1".toList])).defaultValue =
          some (String.ofList "0".toList) := by
  have htype : FreeOfClauses "int".toList := by decide
  have hspaced : Text.Spaced Text.Solid "0".toList := .word (by decide)
  have hvalue : IsClauseText "0".toList := ⟨hspaced.trimmed, by decide, by decide⟩
  have halways : ¬ "ALWAYS".toList <+: "0".toList := by decide
  have hclauses : ∀ clause ∈
      [LaterClause.comment "years".toList, .marker "READONLY", .rule "VALUE" "1".toList],
      clause.Valid := by decide
  exact ⟨htype, hvalue, halways, hclauses,
    (defaultValue_eq_iff htype hvalue halways hclauses "age").mpr (by decide)⟩

/-- A default does not end in front of a value. -/
theorem not_defaultValue_eq_value :
    typedDefault "int".toList "0".toList ++ writtenLater [.rule "VALUE" "1".toList] =
        "TYPE int DEFAULT 0 VALUE 1".toList ∧
      (LaterClause.rule "VALUE" "1".toList).Valid ∧
      (fieldOfClauses "f" "TYPE int DEFAULT 0 VALUE 1".toList).defaultValue ≠ some "0" := by
  decide

end Ddl
end SurrealSchema
