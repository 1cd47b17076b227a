import SurrealSchema.Proofs.Ddl.TableLayouts
import SurrealSchema.Proofs.Ddl.TypedClauses

namespace SurrealSchema
namespace Ddl

/-!
# Clauses in any order

The clauses behind the type of a field, in any order and with spaces between them.  Whatever stands
before and behind a comment clause, its payload is read and the clause is taken out; a default ends
where the next clause starts.  So the comment of several clauses is that of the first comment clause,
and their default that of the first default clause, if there is one of each at most.
-/

/-! ## Further clauses -/

/-- A text that may stand in a clause: one line without blanks around it, quotes, semicolons and
keywords of clauses. -/
structure IsPlainText (text : List Char) : Prop where
  trimmed : Text.Trimmed text
  ne_nil : text ≠ []
  clear : Clear text
  noKeyword : ∀ word ∈ typeEnds, ¬ word.toList <:+: text

instance (text : List Char) : Decidable (IsPlainText text) :=
  decidable_of_iff (Text.trim text = text ∧ text ≠ [] ∧ Clear text ∧
      ∀ word ∈ typeEnds, ¬ word.toList <:+: text)
    ⟨fun h => ⟨h.1 ▸ Text.trimmed_trim text, h.2.1, h.2.2.1, h.2.2.2⟩,
      fun h => ⟨Text.trim_eq_self h.trimmed, h.ne_nil, h.clear, h.noKeyword⟩⟩

/-- A text in which no keyword stands has no keyword as a word of its own. -/
theorem lacks_keyword_of_not_infix {word : String} {text : List Char}
    (h : ¬ word.toList <:+: text) : Text.Lacks (Text.keyword? word) text := by
  unfold Text.Lacks
  rw [Option.eq_none_iff_forall_ne_some]
  rintro ⟨skipped, behind⟩ hsearch
  obtain ⟨rest, rfl, hread⟩ := Text.read_of_search hsearch
  unfold Text.keyword? at hread
  split at hread
  · contradiction
  · obtain ⟨hliteral, -⟩ := Option.filter_eq_some_iff.mp hread
    have hsplit := List.append_eq_of_isPrefixOf?_eq_some hliteral
    exact h ⟨skipped, behind, by rw [List.append_assoc, hsplit]⟩

theorem IsPlainText.isClauseText {text : List Char} (h : IsPlainText text) : IsClauseText text where
  trimmed := h.trimmed
  ne_nil := h.ne_nil
  free :=
    { keywords := fun word hword => lacks_keyword_of_not_infix (h.noKeyword word hword)
      comment := h.noKeyword "COMMENT" (by decide)
      semicolon := h.clear.not_mem (by decide) }

/-- A clause that may follow the type of a field. -/
inductive FurtherClause where
  | comment (payload : List Char)
  /-- A default, by its keyword and its expression. -/
  | default (keyword : String) (expression : List Char)
  | readonly
  /-- A clause that says nothing about the field here, by its keyword and its text. -/
  | rule (keyword : String) (body : List Char)

namespace FurtherClause

/-- The keyword of a clause. -/
def keyword : FurtherClause → String
  | comment _ => "COMMENT"
  | default keyword _ => keyword
  | readonly => "READONLY"
  | rule keyword _ => keyword

/-- What follows the keyword of a clause. -/
def behind : FurtherClause → List Char
  | comment payload => ' ' :: '"' :: (payload ++ ['"'])
  | default _ expression => ' ' :: expression
  | readonly => []
  | rule _ body => ' ' :: body

/-- A clause as it is written. -/
def text (clause : FurtherClause) : List Char :=
  clause.keyword.toList ++ clause.behind

/-- The payload of a comment clause. -/
def payload? : FurtherClause → Option (List Char)
  | comment payload => some payload
  | _ => none

/-- The expression of a default clause. -/
def expression? : FurtherClause → Option (List Char)
  | default _ expression => some expression
  | _ => none

/-- Whether a clause is one of those that may follow the type of a field. -/
def Valid : FurtherClause → Prop
  | comment payload => IsQuotable payload
  | default keyword expression =>
    keyword ∈ ["DEFAULT", "VALUE"] ∧ IsPlainText expression ∧ ¬ "ALWAYS".toList <+: expression
  | readonly => True
  | rule keyword body => keyword ∈ ["ASSERT", "PERMISSIONS"] ∧ IsPlainText body

instance (clause : FurtherClause) : Decidable clause.Valid := by
  cases clause <;> unfold Valid <;> infer_instance

theorem eq_comment {clause : FurtherClause} {payload : List Char}
    (h : clause.payload? = some payload) : clause = comment payload := by
  cases clause with
  | comment other => rw [Option.some.inj h]
  | default keyword expression => contradiction
  | readonly => contradiction
  | rule keyword body => contradiction

theorem exists_default {clause : FurtherClause} {value : List Char}
    (h : clause.expression? = some value) : ∃ keyword, clause = default keyword value := by
  cases clause with
  | comment payload => contradiction
  | default keyword other => exact ⟨keyword, by rw [Option.some.inj h]⟩
  | readonly => contradiction
  | rule keyword body => contradiction

/-- What is left of a clause once the comment is taken out. -/
def withoutComment : FurtherClause → List Char
  | comment _ => []
  | clause => clause.text

theorem withoutComment_eq_text {clause : FurtherClause} (h : clause.payload? = none) :
    clause.withoutComment = clause.text := by
  cases clause with
  | comment payload => contradiction
  | default keyword expression => rfl
  | readonly => rfl
  | rule keyword body => rfl

/-- The keyword of a comment stands in a comment clause only. -/
theorem Valid.not_infix_comment {clause : FurtherClause} (h : clause.Valid)
    (hno : clause.payload? = none) : ¬ "COMMENT".toList <:+: clause.text := by
  have hbody : ∀ {keyword : String} {body : List Char}, ¬ "COMMENT".toList <:+: keyword.toList →
      IsPlainText body → ¬ "COMMENT".toList <:+: keyword.toList ++ ' ' :: body := by
    intro keyword body hkeyword hbody hstands
    rcases Text.infix_append_mark (by decide) hstands with hstands | hstands
    · exact hkeyword hstands
    · exact hbody.noKeyword "COMMENT" (by decide) hstands
  have hkeywords : ∀ keyword ∈ ["DEFAULT", "VALUE", "ASSERT", "PERMISSIONS"],
      ¬ "COMMENT".toList <:+: keyword.toList := by decide
  cases clause with
  | comment payload => contradiction
  | default keyword expression =>
      exact hbody (hkeywords keyword (List.mem_append_left _ h.1)) h.2.1
  | readonly => decide
  | rule keyword body =>
      exact hbody (hkeywords keyword (List.mem_append_right ["DEFAULT", "VALUE"] h.1)) h.2

/-- Once the comment is taken out, no keyword but the clause's own is a word of a clause. -/
theorem Valid.lacks {clause : FurtherClause} (h : clause.Valid) {word : String}
    (hword : word ∈ typeEnds) (hne : clause.keyword ≠ word) :
    Text.Lacks (Text.keyword? word) clause.withoutComment := by
  have hreads := readsWord_of_mem_typeEnds hword
  have hrun : ∀ keyword ∈ ["DEFAULT", "VALUE", "ASSERT", "PERMISSIONS", "READONLY"],
      keyword ≠ word → Text.Lacks (Text.keyword? word) keyword.toList := by
    have hall : ∀ word ∈ typeEnds ++ ["DEFAULT", "VALUE", "ASSERT", "PERMISSIONS", "READONLY"],
        word.toList ≠ [] ∧ (word.toList.all Text.isWord) = true := by decide
    intro keyword hkeyword hne
    obtain ⟨hsome, hchars⟩ := hall word (List.mem_append_left _ hword)
    obtain ⟨-, hrun⟩ := hall keyword (List.mem_append_right _ hkeyword)
    exact Text.lacks_keyword_of_run hsome (List.all_eq_true.mp hchars) (List.all_eq_true.mp hrun)
      fun heq => hne (String.toList_inj.mp heq)
  have hbody : ∀ {keyword : String} {body : List Char}, keyword ≠ word → IsPlainText body →
      keyword ∈ ["DEFAULT", "VALUE", "ASSERT", "PERMISSIONS", "READONLY"] →
        Text.Lacks (Text.keyword? word) (keyword.toList ++ ' ' :: body) :=
    fun hne hplain hkeyword => hreads.lacks_append_space (hrun _ hkeyword hne)
      (hplain.isClauseText.free.keywords word hword)
  cases clause with
  | comment payload => exact hreads.lacks_nil
  | default keyword expression =>
      exact hbody hne h.2.1 (List.mem_append_left ["ASSERT", "PERMISSIONS", "READONLY"] h.1)
  | readonly =>
      have htext : readonly.withoutComment = "READONLY".toList := List.append_nil _
      rw [htext]
      exact hrun "READONLY" (by decide) hne
  | rule keyword body =>
      exact hbody hne h.2 (List.mem_append_right ["DEFAULT", "VALUE"]
        (List.mem_append_left ["READONLY"] h.1))

/-- Every clause but a default ends the expression of a default before it. -/
theorem Valid.keyword_mem {clause : FurtherClause} (h : clause.Valid)
    (hno : clause.expression? = none) :
    clause.keyword ∈ ["COMMENT", "PERMISSIONS", "ASSERT", "READONLY"] := by
  have hsub : ∀ keyword ∈ ["ASSERT", "PERMISSIONS"],
      keyword ∈ ["COMMENT", "PERMISSIONS", "ASSERT", "READONLY"] := by decide
  cases clause with
  | comment payload => exact List.mem_cons_self
  | default keyword expression => contradiction
  | readonly => exact List.mem_append_right ["COMMENT", "PERMISSIONS", "ASSERT"] List.mem_cons_self
  | rule keyword body => exact hsub keyword h.1

/-- Every clause ends the text of a type before it and is no marker. -/
theorem Valid.keyword_mem_typeEnds {clause : FurtherClause} (h : clause.Valid) :
    clause.keyword ∈ typeEnds ∧ clause.keyword ≠ "OPTIONAL" := by
  have hdefault : ∀ keyword ∈ ["DEFAULT", "VALUE"], keyword ∈ typeEnds ∧ keyword ≠ "OPTIONAL" := by
    decide
  have hother : ∀ keyword ∈ ["COMMENT", "PERMISSIONS", "ASSERT", "READONLY"],
      keyword ∈ typeEnds ∧ keyword ≠ "OPTIONAL" := by decide
  cases hexpression : clause.expression? with
  | none => exact hother _ (h.keyword_mem hexpression)
  | some value =>
      obtain ⟨keyword, rfl⟩ := exists_default hexpression
      exact hdefault keyword h.1

/-- Only a default clause has one of the keywords of a default in it. -/
theorem Valid.lacks_default {clause : FurtherClause} (h : clause.Valid)
    (hno : clause.expression? = none) :
    ∀ word ∈ ["DEFAULT", "VALUE"], Text.Lacks (Text.keyword? word) clause.withoutComment := by
  have hsub : ∀ word ∈ ["DEFAULT", "VALUE"], word ∈ typeEnds := by decide
  have hapart : ∀ keyword ∈ ["COMMENT", "PERMISSIONS", "ASSERT", "READONLY"],
      ∀ word ∈ ["DEFAULT", "VALUE"], keyword ≠ word := by decide
  intro word hword
  exact h.lacks (hsub word hword) (hapart _ (h.keyword_mem hno) word hword)

end FurtherClause

/-! ## Comments of clauses -/

/-- The clauses as they are written, with a space before each. -/
def written (clauses : List FurtherClause) : List Char :=
  joined (clauses.map FurtherClause.text)

/-- The clauses without the comment. -/
def writtenWithoutComment (clauses : List FurtherClause) : List Char :=
  joined (clauses.map FurtherClause.withoutComment)

/-- Where something is read of one clause at most, the clauses behind that one give nothing. -/
theorem eq_none_of_once {read : FurtherClause → Option (List Char)} {clause : FurtherClause}
    {clauses : List FurtherClause}
    (honce : ((clause :: clauses).countP fun clause => (read clause).isSome) ≤ 1)
    {found : List Char} (hfound : read clause = some found) :
    ∀ other ∈ clauses, read other = none := by
  intro other hother
  rw [List.countP_cons, hfound] at honce
  have hzero : (clauses.countP fun clause => (read clause).isSome) = 0 := by
    simpa using honce
  simpa using List.countP_eq_zero.mp hzero other hother

theorem once_tail {read : FurtherClause → Option (List Char)} {clause : FurtherClause}
    {clauses : List FurtherClause}
    (honce : ((clause :: clauses).countP fun clause => (read clause).isSome) ≤ 1) :
    (clauses.countP fun clause => (read clause).isSome) ≤ 1 :=
  (List.sublist_cons_self clause clauses).countP_le.trans honce

/-- What is written with one clause more in front. -/
theorem append_written_cons (front : List Char) (clause : FurtherClause)
    (clauses : List FurtherClause) (mark : List Char) :
    front ++ written (clause :: clauses) ++ mark =
      (front ++ ' ' :: clause.text) ++ written clauses ++ mark := by
  unfold written
  rw [List.map_cons, joined_cons]
  simp only [List.append_assoc, List.cons_append]

theorem append_written_keyword (front : List Char) (clause : FurtherClause)
    (clauses : List FurtherClause) (mark : List Char) :
    front ++ written (clause :: clauses) ++ mark =
      front ++ ' ' :: (clause.keyword.toList ++ (clause.behind ++ (written clauses ++ mark))) := by
  rw [append_written_cons, FurtherClause.text]
  simp only [List.append_assoc, List.cons_append]

theorem append_writtenWithoutComment_cons (front : List Char) (clause : FurtherClause)
    (clauses : List FurtherClause) (mark : List Char) :
    front ++ writtenWithoutComment (clause :: clauses) ++ mark =
      (front ++ ' ' :: clause.withoutComment) ++ writtenWithoutComment clauses ++ mark := by
  unfold writtenWithoutComment
  rw [List.map_cons, joined_cons]
  simp only [List.append_assoc, List.cons_append]

theorem writtenWithoutComment_eq {clauses : List FurtherClause}
    (h : ∀ clause ∈ clauses, clause.payload? = none) :
    writtenWithoutComment clauses = written clauses := by
  unfold writtenWithoutComment written
  rw [List.map_congr_left fun clause hmem => FurtherClause.withoutComment_eq_text (h clause hmem)]

section Comments

variable {front mark : List Char} (hfront : ¬ "COMMENT".toList <:+: front)
  (hmark : mark = [] ∨ mark = [';'])
include hfront

theorem not_infix_append_space {text : List Char} (htext : ¬ "COMMENT".toList <:+: text) :
    ¬ "COMMENT".toList <:+: front ++ ' ' :: text := by
  intro hstands
  rcases Text.infix_append_mark (by decide) hstands with hstands | hstands
  · exact hfront hstands
  · exact htext hstands

/-- Where no comment clause is written, there is none. -/
theorem cutAt_written_eq_none (hmark : mark = [] ∨ mark = [';']) :
    cutAt? "COMMENT".toList (front ++ mark) = none := by
  apply cutAt_eq_none
  rcases hmark with rfl | rfl
  · rw [List.append_nil]
    exact hfront
  · intro hstands
    rcases Text.infix_append_mark (by decide) hstands with hstands | hstands
    · exact hfront hstands
    · exact absurd (List.infix_nil.mp hstands) (by decide)

/-- A comment clause is cut out in front of its payload. -/
theorem cutAt_commentClause (payload rest : List Char) :
    cutAt? "COMMENT".toList ((front ++ ' ' :: commentClause payload) ++ rest) =
      some (front ++ [' '], ' ' :: '"' :: (payload ++ '"' :: rest)) := by
  have hcut := cutAt_comment hfront (' ' :: '"' :: (payload ++ '"' :: rest))
  have htext : (front ++ ' ' :: commentClause payload) ++ rest =
      front ++ ' ' :: ("COMMENT".toList ++ ' ' :: '"' :: (payload ++ '"' :: rest)) := by
    unfold commentClause
    generalize "COMMENT".toList = keyword
    simp
  rw [htext, hcut]

omit hfront in
theorem payload_commentClause {payload : List Char} (hpayload : IsQuotable payload)
    (rest : List Char) :
    Ddl.payload? (' ' :: '"' :: (payload ++ '"' :: rest)) = some (payload, rest) :=
  untilQuote_of_plain hpayload.noQuote hpayload.noBackslash (by decide) rest

variable {clauses : List FurtherClause} (hvalid : ∀ clause ∈ clauses, clause.Valid)
include hmark hvalid

/-- **The comment of some clauses is the payload of the first comment clause.** -/
theorem comment_written :
    comment? (front ++ written clauses ++ mark) = clauses.findSome? FurtherClause.payload? := by
  induction clauses generalizing front with
  | nil =>
      unfold comment?
      rw [written, List.map_nil, joined, List.flatMap_nil, List.append_nil,
        cutAt_written_eq_none hfront hmark]
      rfl
  | cons clause clauses ih =>
      obtain ⟨hclause, hclauses⟩ := List.forall_mem_cons.mp hvalid
      rw [append_written_cons, List.findSome?_cons]
      cases hpayload : clause.payload? with
      | none =>
          exact ih (not_infix_append_space hfront (hclause.not_infix_comment hpayload)) hclauses
      | some payload =>
          obtain rfl := FurtherClause.eq_comment hpayload
          have hquotable : IsQuotable payload := hclause
          show comment? ((front ++ ' ' :: commentClause payload) ++ written clauses ++ mark) = _
          unfold comment?
          rw [List.append_assoc, cutAt_commentClause hfront]
          dsimp only
          rw [payload_commentClause hquotable]
          simp [hquotable.ne_nil]

/-- Taking the comment out of some clauses leaves the other clauses. -/
theorem withoutComment_written
    (honce : (clauses.countP fun clause => clause.payload?.isSome) ≤ 1) :
    withoutComment (front ++ written clauses ++ mark) =
      front ++ writtenWithoutComment clauses ++ mark := by
  induction clauses generalizing front with
  | nil =>
      unfold withoutComment
      rw [written, writtenWithoutComment, List.map_nil, List.map_nil, joined, List.flatMap_nil,
        List.append_nil, cutAt_written_eq_none hfront hmark]
  | cons clause clauses ih =>
      obtain ⟨hclause, hclauses⟩ := List.forall_mem_cons.mp hvalid
      rw [append_written_cons, append_writtenWithoutComment_cons]
      cases hpayload : clause.payload? with
      | none =>
          rw [FurtherClause.withoutComment_eq_text hpayload]
          exact ih (not_infix_append_space hfront (hclause.not_infix_comment hpayload)) hclauses
            (once_tail honce)
      | some payload =>
          have hnone := eq_none_of_once honce hpayload
          obtain rfl := FurtherClause.eq_comment hpayload
          have hquotable : IsQuotable payload := hclause
          show withoutComment
            ((front ++ ' ' :: commentClause payload) ++ written clauses ++ mark) = _
          unfold withoutComment
          rw [List.append_assoc, cutAt_commentClause hfront]
          dsimp only
          rw [payload_commentClause hquotable, writtenWithoutComment_eq hnone]
          simp only [FurtherClause.withoutComment, List.append_assoc, List.cons_append,
            List.nil_append]

/-- In front of the comment there are clauses without comments. -/
theorem beforeComment_written :
    ∃ kept tail, (∀ clause ∈ kept, clause ∈ clauses ∧ clause.payload? = none) ∧
      TypedClauses.IsTail tail ∧
      beforeComment (front ++ written clauses ++ mark) = front ++ written kept ++ tail := by
  induction clauses generalizing front with
  | nil =>
      refine ⟨[], mark, fun _ h => absurd h List.not_mem_nil, ⟨[], mark, rfl, by simp, hmark⟩, ?_⟩
      unfold beforeComment
      rw [written, List.map_nil, joined, List.flatMap_nil, List.append_nil,
        cutAt_written_eq_none hfront hmark]
  | cons clause clauses ih =>
      obtain ⟨hclause, hclauses⟩ := List.forall_mem_cons.mp hvalid
      rw [append_written_cons]
      cases hpayload : clause.payload? with
      | none =>
          obtain ⟨kept, tail, hkept, htail, hbefore⟩ :=
            ih (not_infix_append_space hfront (hclause.not_infix_comment hpayload)) hclauses
          refine ⟨clause :: kept, tail, ?_, htail, ?_⟩
          · exact List.forall_mem_cons.mpr ⟨⟨List.mem_cons_self, hpayload⟩,
              fun other hother => ⟨List.mem_cons_of_mem _ (hkept other hother).1,
                (hkept other hother).2⟩⟩
          · rw [hbefore, append_written_cons]
      | some payload =>
          obtain rfl := FurtherClause.eq_comment hpayload
          have hspace : ∀ c ∈ [' '], Text.isBlank c = true :=
            List.forall_mem_singleton.mpr (by decide)
          refine ⟨[], [' '], fun _ h => absurd h List.not_mem_nil,
            ⟨[' '], [], rfl, hspace, Or.inl rfl⟩, ?_⟩
          show beforeComment
            ((front ++ ' ' :: commentClause payload) ++ written clauses ++ mark) = _
          unfold beforeComment
          rw [List.append_assoc, cutAt_commentClause hfront]
          simp only [written, List.map_nil, joined, List.flatMap_nil, List.append_nil]

end Comments

/-! ## Defaults of clauses -/

/-- Behind clauses no word goes on. -/
theorem halts_joined_append (parts : List (List Char)) {tail : List Char}
    (htail : Text.Halts Text.isWord tail) : Text.Halts Text.isWord (joined parts ++ tail) := by
  rcases joined_eq parts with heq | ⟨text, heq⟩
  · rw [heq]
    exact htail
  · rw [heq]
    exact Text.halts_cons (by decide) _

theorem halts_mark {mark : List Char} (hmark : mark = [] ∨ mark = [';']) :
    Text.Halts Text.isWord mark := by
  rcases hmark with rfl | rfl
  · exact Text.halts_nil _
  · exact Text.halts_cons (by decide) _

namespace FurtherClause

/-- The keyword of a clause ends in front of what follows it. -/
theorem startsWord_behind (clause : FurtherClause) {rest : List Char}
    (hrest : Text.Halts Text.isWord rest) : Text.startsWord (clause.behind ++ rest) = false := by
  cases clause with
  | comment payload => rfl
  | default keyword expression => rfl
  | readonly => exact Text.startsWord_of_halts hrest
  | rule keyword body => rfl

end FurtherClause

/-- A keyword behind a space stops what is read up to some keywords. -/
theorem atKeyword_self {words : List String} {word : String} (hword : word ∈ words)
    {rest : List Char} (hrest : Text.startsWord rest = false) :
    Text.atKeyword words (some ' ') (word.toList ++ rest) = true := by
  have hliteral : Text.afterLiteral? word.toList (word.toList ++ rest) = some rest :=
    List.isPrefixOf?_eq_some_iff_append_eq.mpr rfl
  have hspace : Text.afterWord (some ' ') = false := by decide
  have hread := Text.keyword_eq_some hspace hliteral hrest
  exact List.any_eq_true.mpr ⟨word, hword, by rw [hread]; rfl⟩

section Defaults

variable {mark : List Char} (hmark : mark = [] ∨ mark = [';']) {clauses : List FurtherClause}
  (hvalid : ∀ clause ∈ clauses, clause.Valid)
include hmark hvalid

/-- Without a default among them, clauses end an expression before them. -/
theorem exists_stop (hnone : ∀ clause ∈ clauses, clause.expression? = none) :
    ∃ blanks rest, writtenWithoutComment clauses ++ mark = blanks ++ rest ∧
      (∀ c ∈ blanks, Text.isBlank c = true) ∧
      ∀ text, Stops endsExpression ((text ++ blanks).getLast?.or (some ' ')) rest := by
  induction clauses with
  | nil => exact ⟨[], mark, rfl, by simp, fun _ => stops_of_end rfl hmark⟩
  | cons clause clauses ih =>
      obtain ⟨hclause, hclauses⟩ := List.forall_mem_cons.mp hvalid
      obtain ⟨hno, hnones⟩ := List.forall_mem_cons.mp hnone
      have hcons := append_writtenWithoutComment_cons [] clause clauses mark
      cases hpayload : clause.payload? with
      | some payload =>
          -- Where the comment was there is one more space.
          obtain rfl := FurtherClause.eq_comment hpayload
          obtain ⟨blanks, rest, hsplit, hblanks, hstops⟩ := ih hclauses hnones
          refine ⟨' ' :: blanks, rest, ?_, List.forall_mem_cons.mpr ⟨by decide, hblanks⟩, ?_⟩
          · rw [← List.nil_append (writtenWithoutComment _), hcons, List.append_assoc, hsplit]
            rfl
          · intro text
            have hstop := hstops (text ++ [' '])
            rw [List.append_assoc, List.singleton_append] at hstop
            exact hstop
      | none =>
          refine ⟨[' '], clause.text ++ (writtenWithoutComment clauses ++ mark), ?_,
            List.forall_mem_singleton.mpr (by decide), ?_⟩
          · rw [← List.nil_append (writtenWithoutComment _), hcons,
              FurtherClause.withoutComment_eq_text hpayload]
            simp only [List.append_assoc, List.cons_append, List.nil_append]
          · intro text
            have hbehind := clause.startsWord_behind
              (halts_joined_append (clauses.map FurtherClause.withoutComment) (halts_mark hmark))
            rw [List.getLast?_concat, FurtherClause.text, List.append_assoc]
            exact Or.inr (Bool.or_eq_true _ _ ▸
              Or.inr (atKeyword_self (hclause.keyword_mem hno) hbehind))

omit hmark hvalid in
/-- The expression of a default clause is found behind a text without default clauses. -/
theorem search_defaultWord {keyword : String} (hkeyword : keyword ∈ ["DEFAULT", "VALUE"])
    {front value rest : List Char}
    (hfront : ∀ word ∈ ["DEFAULT", "VALUE"], Text.Lacks (Text.keyword? word) front)
    (hvalue : expression? (' ' :: rest) = some value)
    (halways : alwaysExpression? (' ' :: rest) = none) :
    (Text.search defaultClause? none (front ++ ' ' :: (keyword.toList ++ ' ' :: rest))).map
      Prod.snd = some value := by
  have hspace : ∀ before, defaultClause? before (' ' :: (keyword.toList ++ ' ' :: rest)) =
      none := by
    intro before
    unfold defaultClause?
    split <;> rfl
  have hread : defaultClause? (some ' ') (keyword.toList ++ ' ' :: rest) = some value := by
    have hliteral : Text.afterLiteral? keyword.toList (keyword.toList ++ ' ' :: rest) =
        some (' ' :: rest) := List.isPrefixOf?_eq_some_iff_append_eq.mpr rfl
    unfold defaultClause?
    rw [if_neg (by decide)]
    rcases List.mem_pair.mp hkeyword with rfl | rfl
    · rw [hliteral]
      simp only [halways, hvalue, Option.none_or]
    · have hother : Text.afterLiteral? "DEFAULT".toList ("VALUE".toList ++ ' ' :: rest) = none :=
        rfl
      rw [hother, hliteral]
      exact hvalue
  rw [Text.search_of_passes (passes_defaultClause hfront (Text.halts_cons (by decide) _) none),
    Text.search, hspace]
  cases htext : keyword.toList ++ ' ' :: rest with
  | nil => exact absurd htext (List.append_ne_nil_of_right_ne_nil _ (List.cons_ne_nil _ _))
  | cons c text =>
      rw [htext] at hread
      dsimp only
      rw [Text.search, hread]
      rfl

omit hmark hvalid in
/-- An expression that does not start with `ALWAYS` is none that holds always. -/
theorem alwaysExpression_eq_none {value tail : List Char} (hvalue : IsClauseText value)
    (halways : ¬ "ALWAYS".toList <+: value) (htail : Text.Halts Text.isWord tail) :
    alwaysExpression? (' ' :: (value ++ tail)) = none := by
  have hword : ("ALWAYS".toList.all Text.isWord) = true := by decide
  unfold alwaysExpression?
  rw [Text.afterBlanks_space (hvalue.halts_append tail), Option.bind_some,
    Text.afterLiteral_append_of_halts (List.all_eq_true.mp hword) htail,
    afterLiteral_eq_none halways]
  rfl

/-- **The default of some clauses is the expression of the first default clause.** -/
theorem search_written {front : List Char}
    (hfront : ∀ word ∈ ["DEFAULT", "VALUE"], Text.Lacks (Text.keyword? word) front)
    (honce : (clauses.countP fun clause => clause.expression?.isSome) ≤ 1) :
    (Text.search defaultClause? none (front ++ writtenWithoutComment clauses ++ mark)).map
      Prod.snd = clauses.findSome? FurtherClause.expression? := by
  have hsub : ∀ word ∈ ["DEFAULT", "VALUE"], word ∈ typeEnds := by decide
  induction clauses generalizing front with
  | nil =>
      have hmarks : ∀ c ∈ mark, Text.isWord c = false := by
        rcases hmark with rfl | rfl
        · simp
        · exact List.forall_mem_singleton.mpr (by decide)
      rw [writtenWithoutComment, List.map_nil, joined, List.flatMap_nil, List.append_nil,
        search_defaultClause_eq_none fun word hword =>
          (readsWord_of_mem_typeEnds (hsub word hword)).lacks_append_marks (hfront word hword)
            hmarks]
      rfl
  | cons clause clauses ih =>
      obtain ⟨hclause, hclauses⟩ := List.forall_mem_cons.mp hvalid
      rw [append_writtenWithoutComment_cons, List.findSome?_cons]
      cases hexpression : clause.expression? with
      | none =>
          exact ih hclauses (fun word hword =>
            (readsWord_of_mem_typeEnds (hsub word hword)).lacks_append_space (hfront word hword)
              (hclause.lacks_default hexpression word hword)) (once_tail honce)
      | some value =>
          have hnone := eq_none_of_once honce hexpression
          obtain ⟨keyword, rfl⟩ := FurtherClause.exists_default hexpression
          obtain ⟨hkeyword, hplain, halways⟩ := hclause
          have hhalts : Text.Halts Text.isWord (writtenWithoutComment clauses ++ mark) :=
            halts_joined_append _ (halts_mark hmark)
          have hnever := alwaysExpression_eq_none hplain.isClauseText halways hhalts
          -- The expression ends where the clauses behind it stop it.
          obtain ⟨blanks, rest, hsplit, hblanks, hstops⟩ := exists_stop hmark hclauses hnone
          rw [hsplit] at hhalts hnever
          rw [← List.append_assoc] at hnever
          have hvalue := expression_clause hplain.isClauseText hblanks hhalts (hstops value)
          have htext : (front ++ ' ' :: (FurtherClause.default keyword value).withoutComment) ++
              writtenWithoutComment clauses ++ mark =
                front ++ ' ' :: (keyword.toList ++ ' ' :: (value ++ blanks ++ rest)) := by
            rw [List.append_assoc, hsplit]
            simp only [FurtherClause.withoutComment, FurtherClause.text, FurtherClause.keyword,
              FurtherClause.behind, List.append_assoc, List.cons_append]
          rw [htext]
          exact search_defaultWord hkeyword hfront hvalue hnever

end Defaults

/-! ## Types in front of clauses -/

/-- The type of a field as it is written, with the marker of an optional field if it is one. -/
def writtenType (type : List Char) (isOptional : Bool) : List Char :=
  ' ' :: ("TYPE".toList ++ ' ' :: type) ++ if isOptional then ' ' :: "OPTIONAL".toList else []

theorem writtenType_true (type : List Char) :
    writtenType type true = (' ' :: ("TYPE".toList ++ ' ' :: type)) ++ ' ' :: "OPTIONAL".toList :=
  rfl

theorem writtenType_false (type : List Char) :
    writtenType type false = ' ' :: ("TYPE".toList ++ ' ' :: type) :=
  List.append_nil _

/-- A word that is missing in all clauses is missing in all of them together. -/
theorem lacks_joined {read : Text.Reader (List Char)} (hreads : Text.ReadsWord read)
    {parts : List (List Char)} (h : ∀ part ∈ parts, Text.Lacks read part) :
    Text.Lacks read (joined parts) := by
  induction parts with
  | nil => exact hreads.lacks_nil
  | cons part parts ih =>
      obtain ⟨hpart, hparts⟩ := List.forall_mem_cons.mp h
      have hhalts := halts_joined_append parts (Text.halts_nil Text.isWord)
      rw [List.append_nil] at hhalts
      rw [joined_cons]
      exact hreads.lacks_cons (by decide) (hreads.lacks_append hpart hhalts (ih hparts))

section Types

variable {type : List Char} (htype : IsPlainText type)
include htype

theorem valid_typed (isOptional : Bool) :
    (⟨type, isOptional, none, none⟩ : TypedClauses).Valid where
  type := htype.isClauseText
  value := fun _ h => absurd h (Option.not_mem_none _)
  comment := fun _ h => absurd h (Option.not_mem_none _)

theorem lacks_typeText {word : String} (hword : word ∈ typeEnds) :
    Text.Lacks (Text.keyword? word) (' ' :: ("TYPE".toList ++ ' ' :: type)) :=
  (valid_typed htype false).free_typeText.keywords word hword

theorem lacks_writtenType {word : String} (hword : word ∈ ["DEFAULT", "VALUE"])
    (isOptional : Bool) : Text.Lacks (Text.keyword? word) (writtenType type isOptional) := by
  have hsub : ∀ word ∈ ["DEFAULT", "VALUE"], word ∈ typeEnds := by decide
  have hmarker : ∀ word ∈ ["DEFAULT", "VALUE"],
      Text.Lacks (Text.keyword? word) "OPTIONAL".toList := by decide
  have htext := lacks_typeText htype (hsub word hword)
  cases isOptional with
  | false =>
      rw [writtenType_false]
      exact htext
  | true =>
      exact (readsWord_of_mem_typeEnds (hsub word hword)).lacks_append_space htext
        (hmarker word hword)

theorem not_infix_writtenType (isOptional : Bool) :
    ¬ "COMMENT".toList <:+: writtenType type isOptional := by
  have htext := (valid_typed htype false).free_typeText.comment
  cases isOptional with
  | false =>
      rw [writtenType_false]
      exact htext
  | true => exact not_infix_append_space htext (by decide)

variable {kept : List FurtherClause} (hkept : ∀ clause ∈ kept, clause.Valid) {tail : List Char}
  (htail : TypedClauses.IsTail tail)
include hkept htail

/-- **The type is found in front of clauses in any order.** -/
theorem declaredType_written (isOptional : Bool) :
    declaredType (writtenType type isOptional ++ written kept ++ tail) = type := by
  have hvalid := valid_typed htype false
  have hkeyword := fun {word : String} (hword : word ∈ typeEnds) (rest : List Char)
    (hrest : Text.startsWord rest = false) => hvalid.declaredType_keyword hword rest hrest
  have htailHalts := TypedClauses.isTail_halts htail
  cases isOptional with
  | true =>
      have hread := hkeyword (by decide : "OPTIONAL" ∈ typeEnds) (written kept ++ tail)
        (Text.startsWord_of_halts (halts_joined_append _ htailHalts))
      rw [List.append_assoc, writtenType_true, List.append_assoc, List.cons_append]
      exact hread
  | false =>
      rw [writtenType_false]
      cases kept with
      | nil =>
          obtain ⟨blanks, rest, rfl, hblanks, hrest⟩ := htail
          have hread := declaredType_clause htype.isClauseText hblanks htailHalts
            (stops_of_end rfl hrest)
          rw [List.append_assoc] at hread
          rw [written, List.map_nil, joined, List.flatMap_nil, List.append_nil]
          exact hread
      | cons clause kept =>
          obtain ⟨hclause, -⟩ := List.forall_mem_cons.mp hkept
          have hrest := halts_joined_append (kept.map FurtherClause.text) htailHalts
          have hread := hkeyword hclause.keyword_mem_typeEnds.1
            (clause.behind ++ (written kept ++ tail)) (clause.startsWord_behind hrest)
          rw [append_written_keyword]
          exact hread

/-- The marker of an optional field is found exactly when it is there. -/
theorem hasOptionalMarker_written (hcomments : ∀ clause ∈ kept, clause.payload? = none)
    (isOptional : Bool) :
    hasOptionalMarker (writtenType type isOptional ++ written kept ++ tail) = isOptional := by
  have hmarker : "OPTIONAL" ∈ typeEnds := by decide
  have hreads := readsWord_of_mem_typeEnds hmarker
  have htext := lacks_typeText htype hmarker
  have htailHalts := TypedClauses.isTail_halts htail
  cases isOptional with
  | true =>
      rw [List.append_assoc, writtenType_true, List.append_assoc, List.cons_append]
      exact hasOptionalMarker_clause htext (halts_joined_append _ htailHalts)
  | false =>
      have hclauses : Text.Lacks (Text.keyword? "OPTIONAL") (written kept) := by
        apply lacks_joined hreads
        intro text hmem
        obtain ⟨clause, hclause, rfl⟩ := List.mem_map.mp hmem
        have hlacks := (hkept clause hclause).lacks hmarker
          (hkept clause hclause).keyword_mem_typeEnds.2
        rw [FurtherClause.withoutComment_eq_text (hcomments clause hclause)] at hlacks
        exact hlacks
      have hhalts := halts_joined_append (kept.map FurtherClause.text) (Text.halts_nil Text.isWord)
      rw [List.append_nil] at hhalts
      rw [writtenType_false]
      exact hasOptionalMarker_eq_false (hreads.lacks_append_marks
        (hreads.lacks_append htext hhalts hclauses) (TypedClauses.isTail_marks htail))

end Types

/-! ## The field that clauses declare -/

/-- The field of a name and a type, with the comment and the default of some clauses. -/
def fieldWith (name : String) (type : List Char) (isOptional : Bool)
    (clauses : List FurtherClause) : Field :=
  { name
    kind := (Descriptor.ofTypeText type).kind
    isOptional := (Descriptor.ofTypeText type).isOptional || isOptional
    description := (clauses.findSome? FurtherClause.payload?).map String.ofList
    defaultValue := (clauses.findSome? FurtherClause.expression?).map String.ofList
    reference := (Descriptor.ofTypeText type).reference }

/-- Whether there are a comment and a default at most among some valid clauses. -/
structure AreFurther (clauses : List FurtherClause) : Prop where
  valid : ∀ clause ∈ clauses, clause.Valid
  comments : (clauses.countP fun clause => clause.payload?.isSome) ≤ 1
  defaults : (clauses.countP fun clause => clause.expression?.isSome) ≤ 1

instance (clauses : List FurtherClause) : Decidable (AreFurther clauses) :=
  decidable_of_iff ((∀ clause ∈ clauses, clause.Valid) ∧
      (clauses.countP fun clause => clause.payload?.isSome) ≤ 1 ∧
        (clauses.countP fun clause => clause.expression?.isSome) ≤ 1)
    ⟨fun h => ⟨h.1, h.2.1, h.2.2⟩, fun h => ⟨h.valid, h.comments, h.defaults⟩⟩

namespace AreFurther

theorem of_sublist {some clauses : List FurtherClause} (h : AreFurther clauses)
    (hsub : some.Sublist clauses) : AreFurther some where
  valid := fun clause hmem => h.valid clause (hsub.subset hmem)
  comments := hsub.countP_le.trans h.comments
  defaults := hsub.countP_le.trans h.defaults

variable {clauses : List FurtherClause} (h : AreFurther clauses) {front mark : List Char}
  (hmark : mark = [] ∨ mark = [';'])
include h hmark

/-- The default is read behind any text without a default and a comment. -/
theorem default_written (hfront : ∀ word ∈ ["DEFAULT", "VALUE"],
      Text.Lacks (Text.keyword? word) front) (hcomment : ¬ "COMMENT".toList <:+: front) :
    default? (front ++ written clauses ++ mark) =
      clauses.findSome? FurtherClause.expression? := by
  unfold default?
  rw [withoutComment_written hcomment hmark h.valid h.comments,
    search_written hmark h.valid hfront h.defaults]
  cases hfound : clauses.findSome? FurtherClause.expression? with
  | none => rfl
  | some value =>
      obtain ⟨clause, hmem, hexpression⟩ := List.exists_of_findSome?_eq_some hfound
      obtain ⟨keyword, rfl⟩ := FurtherClause.exists_default hexpression
      have hne := (h.valid _ hmem).2.1.ne_nil
      simp [hne]

/-- **Clauses in any order are read as what they were written from.** -/
theorem fieldOfClauses_eq {type : List Char} (htype : IsPlainText type) (isOptional : Bool)
    (name : String) :
    fieldOfClauses name (writtenType type isOptional ++ written clauses ++ mark) =
      fieldWith name type isOptional clauses := by
  have hcomment := not_infix_writtenType htype isOptional
  obtain ⟨kept, tail, hkept, htail, hbefore⟩ :=
    beforeComment_written hcomment hmark h.valid
  have hvalid : ∀ clause ∈ kept, clause.Valid :=
    fun clause hmem => h.valid clause (hkept clause hmem).1
  unfold fieldOfClauses fieldWith
  dsimp only
  rw [hbefore, declaredType_written htype hvalid htail,
    hasOptionalMarker_written htype hvalid htail fun clause hmem => (hkept clause hmem).2,
    comment_written hcomment hmark h.valid,
    h.default_written hmark (fun word hword => lacks_writtenType htype hword isOptional) hcomment]

end AreFurther

end Ddl
end SurrealSchema
