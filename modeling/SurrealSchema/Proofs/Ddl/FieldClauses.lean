import SurrealSchema.Proofs.Ddl.Semicolon
import SurrealSchema.Proofs.Ddl.Statements

namespace SurrealSchema
namespace Ddl

/-!
# Clauses of a field

The clauses that the store writes behind the head of a field, in the order in which it writes them.
Only the comment is between quotes, and no other text has a keyword of a clause in it, so nothing
in such clauses is left waiting for an expression.
-/

/-! ## Clauses as they are written -/

/-- The clauses of a field by what stands behind their keywords. -/
structure FieldClauses where
  isFlexible : Bool
  type? : Option (List Char)
  default? : Option (List Char)
  isReadonly : Bool
  value? : Option (List Char)
  assert? : Option (List Char)
  comment? : Option (List Char)
  permissions? : Option (List Char)

/-- The keywords of the clauses. -/
def clauseWords : List String :=
  ["FLEXIBLE", "TYPE", "DEFAULT", "READONLY", "VALUE", "ASSERT", "COMMENT", "PERMISSIONS"]

/-- A clause that is a single word, if it is there. -/
def wordPart (isThere : Bool) (keyword : String) : List (List Char) :=
  if isThere then [keyword.toList] else []

/-- A clause with a text behind its keyword, if it is there. -/
def textPart (keyword : String) : Option (List Char) → List (List Char)
  | none => []
  | some body => [keyword.toList ++ ' ' :: body]

/-- The clauses before the comment. -/
def FieldClauses.front (clauses : FieldClauses) : List (List Char) :=
  wordPart clauses.isFlexible "FLEXIBLE" ++ textPart "TYPE" clauses.type?
    ++ textPart "DEFAULT" clauses.default? ++ wordPart clauses.isReadonly "READONLY"
    ++ textPart "VALUE" clauses.value? ++ textPart "ASSERT" clauses.assert?

/-- The clause of the comment, its text between single quotes. -/
def FieldClauses.comment (clauses : FieldClauses) : List (List Char) :=
  textPart "COMMENT" (clauses.comment?.map fun text => '\'' :: (text ++ ['\'']))

/-- The clause behind the comment. -/
def FieldClauses.rear (clauses : FieldClauses) : List (List Char) :=
  textPart "PERMISSIONS" clauses.permissions?

/-- Clauses with a space before each of them. -/
def joined (parts : List (List Char)) : List Char :=
  parts.flatMap fun part => ' ' :: part

/-- The clauses as they are written. -/
def FieldClauses.text (clauses : FieldClauses) : List Char :=
  joined (clauses.front ++ clauses.comment ++ clauses.rear)

/-- Whether a text may stand behind a keyword: words with single spaces between them, without
quotes, semicolons or keywords. -/
structure IsBody (body : List Char) : Prop where
  spaced : Text.Spaced Text.Solid body
  clear : Clear body
  noKeyword : ∀ word ∈ clauseWords, ¬ word.toList <:+: body

instance (body : List Char) : Decidable (IsBody body) :=
  decidable_of_iff (Text.Spaced Text.Solid body ∧ Clear body ∧
      ∀ word ∈ clauseWords, ¬ word.toList <:+: body)
    ⟨fun h => ⟨h.1, h.2.1, h.2.2⟩, fun h => ⟨h.spaced, h.clear, h.noKeyword⟩⟩

namespace FieldClauses

/-- The texts behind the keywords, without the comment. -/
def bodies (clauses : FieldClauses) : List (List Char) :=
  [clauses.type?, clauses.default?, clauses.value?, clauses.assert?,
    clauses.permissions?].filterMap id

/-- Whether the clauses are written as the store writes them. -/
structure Valid (clauses : FieldClauses) : Prop where
  bodies : ∀ body ∈ clauses.bodies, IsBody body
  notAlways : clauses.default? ≠ some "ALWAYS".toList
  comment : ∀ text ∈ clauses.comment?,
    IsPayload text ∧ Text.Spaced Text.Solid ('\'' :: (text ++ ['\'']))

instance (clauses : FieldClauses) : Decidable clauses.Valid :=
  decidable_of_iff ((∀ body ∈ clauses.bodies, IsBody body) ∧
      clauses.default? ≠ some "ALWAYS".toList ∧ ∀ text ∈ clauses.comment?,
        IsPayload text ∧ Text.Spaced Text.Solid ('\'' :: (text ++ ['\''])))
    ⟨fun h => ⟨h.1, h.2.1, h.2.2⟩, fun h => ⟨h.bodies, h.notAlways, h.comment⟩⟩

end FieldClauses

/-! ## Words of clauses -/

theorem joined_append (parts more : List (List Char)) :
    joined (parts ++ more) = joined parts ++ joined more :=
  List.flatMap_append

theorem joined_cons (part : List Char) (parts : List (List Char)) :
    joined (part :: parts) = ' ' :: (part ++ joined parts) := by
  rw [joined, List.flatMap_cons, List.cons_append]
  rfl

/-- Joined clauses are empty or start with a space. -/
theorem joined_eq (parts : List (List Char)) :
    joined parts = [] ∨ ∃ text, joined parts = ' ' :: text := by
  cases parts with
  | nil => exact Or.inl rfl
  | cons part parts => exact Or.inr ⟨_, joined_cons part parts⟩

/-- The words of joined clauses are the words of the clauses. -/
theorem words_joined (parts : List (List Char)) :
    Text.words (joined parts) = parts.flatMap Text.words := by
  have hspace : Text.isBlank ' ' = true := by decide
  induction parts with
  | nil => rfl
  | cons part parts ih =>
      rw [joined_cons, Text.words_of_blank hspace, List.flatMap_cons]
      rcases joined_eq parts with heq | ⟨text, heq⟩
      · rw [heq] at ih
        rw [heq, ← ih, List.append_nil]
        exact (List.append_nil _).symm
      · rw [heq, Text.words_of_blank hspace] at ih
        rw [heq, Text.words_append_blank hspace, ih]

/-- Joined clauses behind a spaced text are spaced. -/
theorem spaced_append_joined {parts : List (List Char)}
    (hparts : ∀ part ∈ parts, Text.Spaced Text.Solid part) {front : List Char}
    (hfront : Text.Spaced Text.Solid front) : Text.Spaced Text.Solid (front ++ joined parts) := by
  induction parts generalizing front with
  | nil =>
      rw [joined, List.flatMap_nil, List.append_nil]
      exact hfront
  | cons part parts ih =>
      have hpart := hparts part List.mem_cons_self
      have hrest := ih (fun other hmem => hparts other (List.mem_cons_of_mem _ hmem))
        (hfront.append hpart)
      rw [joined_cons, ← List.cons_append, ← List.append_assoc]
      exact hrest

/-! ## Texts that settle a default -/

/-- The words of a spaced text stand in it. -/
theorem infix_of_mem_words {text word : List Char} (h : Text.Spaced Text.Solid text)
    (hword : word ∈ Text.words text) : word <:+: text := by
  have hspace : Text.isBlank ' ' = true := by decide
  induction h with
  | word hsolid =>
      rw [Text.words_of_solid hsolid, List.mem_singleton] at hword
      rw [hword]
  | @cons first rest hsolid _ ih =>
      rw [Text.words_append_blank hspace, Text.words_of_solid hsolid] at hword
      rcases List.mem_append.mp hword with hmem | hmem
      · rw [List.mem_singleton.mp hmem]
        exact (List.prefix_append _ _).isInfix
      · have hsuffix : rest <:+ first ++ ' ' :: rest :=
          (List.suffix_cons ' ' rest).trans (List.suffix_append _ _)
        exact (ih hmem).trans hsuffix.isInfix

/-- Clauses behind which no expression of a default is missing. -/
def SettlesDefault (part : List Char) : Prop :=
  ∃ front last, Text.words part = front ++ [last] ∧ ¬ "DEFAULT".toList <:+ last ∧
    ¬ "VALUE".toList <:+ last ∧ (last = "ALWAYS".toList →
      ∃ others word, front = others ++ [word] ∧ ¬ "DEFAULT".toList <:+ word)

/-- Words of clauses that settle their defaults await none. -/
theorem not_awaitsDefault_of_settles {parts : List (List Char)} {text : List Char}
    (hparts : ∀ part ∈ parts, SettlesDefault part)
    (hwords : Text.words text = parts.flatMap Text.words) :
    ¬ AwaitsDefault text := by
  rintro ⟨front, last, hsplit, hkeyword⟩
  rcases List.eq_nil_or_concat parts with rfl | ⟨others, part, rfl⟩
  · rw [hwords, List.flatMap_nil] at hsplit
    exact absurd hsplit.symm (List.append_ne_nil_of_right_ne_nil _ (List.cons_ne_nil _ _))
  · rw [List.concat_eq_append] at hparts hwords
    obtain ⟨before, word, hpart, hdefault, hvalue, halways⟩ :=
      hparts part (List.mem_append_right _ List.mem_cons_self)
    rw [hwords, List.flatMap_append, List.flatMap_singleton, hpart, ← List.append_assoc] at hsplit
    obtain ⟨hfront, hlast⟩ := List.append_inj' hsplit rfl
    obtain rfl := List.singleton_inj.mp hlast
    rcases hkeyword with h | h | ⟨hword, others', previous, hprevious, h⟩
    · exact hdefault h
    · exact hvalue h
    · obtain ⟨more, previous', hbefore, hno⟩ := halways hword
      rw [hbefore, hprevious, ← List.append_assoc] at hfront
      obtain ⟨-, hsame⟩ := List.append_inj' hfront rfl
      rw [List.singleton_inj.mp hsame] at hno
      exact hno h

/-- A keyword with a text behind it settles its default if the text is not `ALWAYS` alone behind
`DEFAULT`. -/
theorem settlesDefault_clause {keyword body : List Char} (hkeyword : Text.Solid keyword)
    (hbody : IsBody body) (halways : "DEFAULT".toList <:+ keyword → body ≠ "ALWAYS".toList) :
    SettlesDefault (keyword ++ ' ' :: body) := by
  have hspace : Text.isBlank ' ' = true := by decide
  have hfree : ∀ word ∈ Text.words body, ∀ literal ∈ clauseWords, ¬ literal.toList <:+ word := by
    intro word hword literal hliteral hsuffix
    exact hbody.noKeyword literal hliteral
      (hsuffix.isInfix.trans (infix_of_mem_words hbody.spaced hword))
  obtain ⟨hne, hbodyWords⟩ := Text.intercalate_words_of_spaced hbody.spaced
  rcases List.eq_nil_or_concat (Text.words body) with hnil | ⟨front, last, hsplit⟩
  · exact absurd hnil hne
  · rw [List.concat_eq_append] at hsplit
    have hlast : last ∈ Text.words body := by
      rw [hsplit]
      exact List.mem_append_right _ List.mem_cons_self
    refine ⟨keyword :: front, last, ?_, hfree last hlast "DEFAULT" (by decide),
      hfree last hlast "VALUE" (by decide), ?_⟩
    · rw [Text.words_append_blank hspace, Text.words_of_solid hkeyword, hsplit]
      rfl
    · intro hword
      rcases List.eq_nil_or_concat front with rfl | ⟨others, word, rfl⟩
      · refine ⟨[], keyword, rfl, fun hsuffix => halways hsuffix ?_⟩
        rw [← hbodyWords, hsplit, hword]
        rfl
      · refine ⟨keyword :: others, word, ?_, hfree word ?_ "DEFAULT" (by decide)⟩
        · rw [List.concat_eq_append]
          rfl
        · rw [hsplit, List.concat_eq_append]
          exact List.mem_append_left _ (List.mem_append_right _ List.mem_cons_self)

/-! ## The clauses around the comment -/

/-- What holds of every clause but the comment. -/
structure IsPart (part : List Char) : Prop where
  spaced : Text.Spaced Text.Solid part
  clear : Clear part
  noComment : ¬ "COMMENT".toList <:+: part
  settles : SettlesDefault part

theorem clear_space : Clear [' '] := by decide

theorem isPart_of_word {keyword : List Char} (hsolid : Text.Solid keyword) (hclear : Clear keyword)
    (hcomment : ¬ "COMMENT".toList <:+: keyword)
    (hdefault : ¬ "DEFAULT".toList <:+ keyword) (hvalue : ¬ "VALUE".toList <:+ keyword)
    (halways : keyword ≠ "ALWAYS".toList) : IsPart keyword where
  spaced := .word hsolid
  clear := hclear
  noComment := hcomment
  settles :=
    ⟨[], keyword, Text.words_of_solid hsolid, hdefault, hvalue, fun h => absurd h halways⟩

theorem isPart_of_body {keyword body : List Char} (hsolid : Text.Solid keyword)
    (hclear : Clear keyword) (hcomment : ¬ "COMMENT".toList <:+: keyword) (hbody : IsBody body)
    (halways : "DEFAULT".toList <:+ keyword → body ≠ "ALWAYS".toList) :
    IsPart (keyword ++ ' ' :: body) where
  spaced := .cons hsolid hbody.spaced
  clear := hclear.append (clear_space.append hbody.clear)
  noComment := by
    intro hstands
    rcases Text.infix_append_mark (by decide) hstands with h | h
    · exact hcomment h
    · exact hbody.noKeyword "COMMENT" (by decide) h
  settles := settlesDefault_clause hsolid hbody halways

theorem mem_wordPart {isThere : Bool} {keyword : String} {part : List Char}
    (h : part ∈ wordPart isThere keyword) : part = keyword.toList := by
  unfold wordPart at h
  split at h
  · exact List.mem_singleton.mp h
  · contradiction

theorem mem_textPart {keyword : String} {body? : Option (List Char)} {part : List Char}
    (h : part ∈ textPart keyword body?) :
    ∃ body, body? = some body ∧ part = keyword.toList ++ ' ' :: body := by
  cases body? with
  | none => contradiction
  | some body => exact ⟨body, rfl, List.mem_singleton.mp h⟩

namespace FieldClauses

theorem Valid.isBody {clauses : FieldClauses} (h : clauses.Valid) {body : List Char}
    (hmem : some body ∈ [clauses.type?, clauses.default?, clauses.value?, clauses.assert?,
      clauses.permissions?]) : IsBody body :=
  h.bodies body (List.mem_filterMap.mpr ⟨some body, hmem, rfl⟩)

theorem Valid.isPart_of_mem_front {clauses : FieldClauses} (h : clauses.Valid) {part : List Char}
    (hmem : part ∈ clauses.front) : IsPart part := by
  have hnever : ∀ {keyword : String} {body : List Char}, ¬ "DEFAULT".toList <:+ keyword.toList →
      "DEFAULT".toList <:+ keyword.toList → body ≠ "ALWAYS".toList := by
    intro keyword body hno hyes
    exact absurd hyes hno
  unfold front at hmem
  simp only [List.mem_append] at hmem
  rcases hmem with ((((hmem | hmem) | hmem) | hmem) | hmem) | hmem
  · rw [mem_wordPart hmem]
    exact isPart_of_word (by decide) (by decide) (by decide) (by decide) (by decide) (by decide)
  · obtain ⟨body, hbody, rfl⟩ := mem_textPart hmem
    exact isPart_of_body (by decide) (by decide) (by decide) (h.isBody (by simp [hbody]))
      (hnever (by decide))
  · obtain ⟨body, hbody, rfl⟩ := mem_textPart hmem
    refine isPart_of_body (by decide) (by decide) (by decide) (h.isBody (by simp [hbody])) ?_
    rintro - rfl
    exact h.notAlways hbody
  · rw [mem_wordPart hmem]
    exact isPart_of_word (by decide) (by decide) (by decide) (by decide) (by decide) (by decide)
  · obtain ⟨body, hbody, rfl⟩ := mem_textPart hmem
    exact isPart_of_body (by decide) (by decide) (by decide) (h.isBody (by simp [hbody]))
      (hnever (by decide))
  · obtain ⟨body, hbody, rfl⟩ := mem_textPart hmem
    exact isPart_of_body (by decide) (by decide) (by decide) (h.isBody (by simp [hbody]))
      (hnever (by decide))

theorem Valid.isPart_of_mem_rear {clauses : FieldClauses} (h : clauses.Valid) {part : List Char}
    (hmem : part ∈ clauses.rear) : IsPart part := by
  obtain ⟨body, hbody, rfl⟩ := mem_textPart hmem
  exact isPart_of_body (by decide) (by decide) (by decide) (h.isBody (by simp [hbody]))
    fun hsuffix => absurd hsuffix (by decide)

end FieldClauses

/-! ## Around the comment -/

theorem not_infix_joined {literal : List Char} (hne : literal ≠ []) (hliteral : ' ' ∉ literal)
    {parts : List (List Char)} (hparts : ∀ part ∈ parts, ¬ literal <:+: part) :
    ¬ literal <:+: joined parts := by
  intro hstands
  induction parts with
  | nil => exact hne (List.infix_nil.mp hstands)
  | cons part parts ih =>
      have hrest := ih fun other hmem => hparts other (List.mem_cons_of_mem _ hmem)
      have hpart := hparts part List.mem_cons_self
      have hbehind : literal <:+: part ++ joined parts := by
        rw [joined_cons, ← List.nil_append (' ' :: _)] at hstands
        rcases Text.infix_append_mark hliteral hstands with h | h
        · exact absurd (List.infix_nil.mp h) hne
        · exact h
      rcases joined_eq parts with heq | ⟨text, heq⟩
      · rw [heq, List.append_nil] at hbehind
        exact hpart hbehind
      · rw [heq] at hbehind hrest
        rcases Text.infix_append_mark hliteral hbehind with h | h
        · exact hpart h
        · exact hrest (h.trans (List.suffix_cons ' ' text).isInfix)

/-- The comment is cut out behind a text in which its keyword does not stand. -/
theorem cutAt_comment {front : List Char} (hfront : ¬ "COMMENT".toList <:+: front)
    (rest : List Char) :
    cutAt? "COMMENT".toList (front ++ ' ' :: ("COMMENT".toList ++ rest)) =
      some (front ++ [' '], rest) := by
  have hfirst : ∀ passed, passed ≠ [] → passed <:+ front ++ [' '] →
      ¬ "COMMENT".toList <+: passed ++ ("COMMENT".toList ++ rest) := by
    intro passed hne hsuffix hstarts
    rcases List.suffix_concat_iff.mp hsuffix with rfl | ⟨shorter, rfl, hshorter⟩
    · exact hne rfl
    · rw [List.append_assoc] at hstarts
      have hstart := Text.prefix_append_mark (by decide) hstarts
      exact hfront (hstart.isInfix.trans hshorter.isInfix)
  have hcut := cutAt_of_first hfirst
  rwa [List.append_assoc, List.singleton_append] at hcut

/-- A text without quotes has no comment. -/
theorem comment_of_clear {text : List Char} (h : Clear text) : comment? text = none := by
  unfold comment?
  cases hcut : cutAt? "COMMENT".toList text with
  | none => rfl
  | some cut =>
      have hnone : ∀ {quote : Char}, isClear quote = false → cutAt? [quote] cut.2 = none := by
        intro quote hquote
        apply cutAt_eq_none
        intro hstands
        exact h.not_mem hquote (mem_of_cutAt hcut (hstands.subset List.mem_cons_self))
      dsimp only
      unfold payload?
      rw [hnone (by decide), hnone (by decide)]
      rfl

/-- The payload of a comment is read, or it is not closed. -/
theorem payload_of_quoted {payload rest : List Char} (hpayload : IsPayload payload)
    (hrest : Clear rest) :
    payload? (' ' :: '\'' :: (payload ++ '\'' :: rest)) = none ∨
      payload? (' ' :: '\'' :: (payload ++ '\'' :: rest)) = some (payload, rest) := by
  have hdouble : '"' ∉ ' ' :: '\'' :: (payload ++ '\'' :: rest) := by
    intro hmem
    simp only [List.mem_cons, List.mem_append] at hmem
    rcases hmem with h | h | h | h | h
    · exact absurd h (by decide)
    · exact absurd h (by decide)
    · exact hpayload.not_mem (by decide) h
    · exact absurd h (by decide)
    · exact hrest.not_mem (by decide) h
  have hnone : cutAt? ['"'] (' ' :: '\'' :: (payload ++ '\'' :: rest)) = none := by
    apply cutAt_eq_none
    intro hstands
    exact hdouble (hstands.subset List.mem_cons_self)
  have hsingle : cutAt? ['\''] (' ' :: '\'' :: (payload ++ '\'' :: rest)) =
      some ([' '], payload ++ '\'' :: rest) := rfl
  unfold payload?
  rw [hnone, hsingle]
  exact untilQuote_of_closed (hpayload.not_mem (by decide)) (hrest.not_mem (by decide)) '\''

theorem clear_joined {parts : List (List Char)} (hparts : ∀ part ∈ parts, Clear part) :
    Clear (joined parts) := by
  induction parts with
  | nil =>
      intro c hc
      contradiction
  | cons part parts ih =>
      have hrest := ih fun other hmem => hparts other (List.mem_cons_of_mem _ hmem)
      rw [joined_cons]
      exact clear_space.append ((hparts part List.mem_cons_self).append hrest)

namespace FieldClauses

/-- The clauses are those around the comment with the comment between them. -/
theorem text_of_comment {clauses : FieldClauses} {text : List Char}
    (h : clauses.comment? = some text) :
    clauses.text = joined clauses.front ++ ' ' :: ("COMMENT".toList ++
      ' ' :: '\'' :: (text ++ '\'' :: joined clauses.rear)) := by
  unfold FieldClauses.text comment
  rw [h, joined_append, joined_append, Option.map_some, textPart, joined_cons]
  simp only [joined, List.flatMap_nil, List.append_assoc, List.cons_append, List.nil_append,
    List.append_nil]

theorem text_of_no_comment {clauses : FieldClauses} (h : clauses.comment? = none) :
    clauses.text = joined (clauses.front ++ clauses.rear) := by
  unfold FieldClauses.text comment
  rw [h, Option.map_none, textPart, List.append_nil]

/-- **Without their comment valid clauses await no default.** -/
theorem Valid.not_awaitsDefault {clauses : FieldClauses} (h : clauses.Valid) :
    ¬ AwaitsDefault (withoutComment clauses.text) := by
  have hfront : ∀ part ∈ clauses.front, IsPart part := fun _ => h.isPart_of_mem_front
  have hrear : ∀ part ∈ clauses.rear, IsPart part := fun _ => h.isPart_of_mem_rear
  have hboth : ∀ part ∈ clauses.front ++ clauses.rear, IsPart part := by
    intro part hmem
    rcases List.mem_append.mp hmem with hmem | hmem
    · exact hfront part hmem
    · exact hrear part hmem
  cases hcomment : clauses.comment? with
  | none =>
      have hstands : ¬ "COMMENT".toList <:+: joined (clauses.front ++ clauses.rear) :=
        not_infix_joined (by decide) (by decide) fun part hmem => (hboth part hmem).noComment
      have hsame : withoutComment clauses.text = joined (clauses.front ++ clauses.rear) := by
        unfold withoutComment
        rw [text_of_no_comment hcomment, cutAt_eq_none hstands]
      rw [hsame]
      exact not_awaitsDefault_of_settles (fun part hmem => (hboth part hmem).settles)
        (words_joined _)
  | some text =>
      have hcut := cutAt_comment (not_infix_joined (by decide) (by decide) fun part hmem =>
        (hfront part hmem).noComment) (' ' :: '\'' :: (text ++ '\'' :: joined clauses.rear))
      have hspace : Text.isBlank ' ' = true := by decide
      unfold withoutComment
      rw [text_of_comment hcomment, hcut]
      dsimp only
      rcases payload_of_quoted (h.comment text hcomment).1
        (clear_joined fun part hmem => (hrear part hmem).clear) with hpayload | hpayload
      · -- The quotes are not closed, and nothing is left behind the front.
        rw [hpayload]
        refine not_awaitsDefault_of_settles (fun part hmem => (hfront part hmem).settles) ?_
        rw [Text.words_append_blank hspace, words_joined]
        exact List.append_nil _
      · rw [hpayload]
        refine not_awaitsDefault_of_settles (fun part hmem => (hboth part hmem).settles) ?_
        dsimp only
        rw [List.append_assoc, List.singleton_append, Text.words_append_blank hspace, words_joined,
          words_joined, List.flatMap_append]

/-- Valid clauses are confined. -/
theorem Valid.confined {clauses : FieldClauses} (h : clauses.Valid) : Confined clauses.text := by
  have hfront : Clear (joined clauses.front) :=
    clear_joined fun _ hmem => (h.isPart_of_mem_front hmem).clear
  have hrear : Clear (joined clauses.rear) :=
    clear_joined fun _ hmem => (h.isPart_of_mem_rear hmem).clear
  cases hcomment : clauses.comment? with
  | none =>
      rw [text_of_no_comment hcomment, joined_append]
      exact .clear (hfront.append hrear)
  | some text =>
      have hkeyword : Clear (' ' :: ("COMMENT".toList ++ [' '])) := by decide
      have hsplit : clauses.text = (joined clauses.front ++ ' ' :: ("COMMENT".toList ++ [' '])) ++
          '\'' :: (text ++ '\'' :: joined clauses.rear) := by
        rw [text_of_comment hcomment]
        simp only [List.append_assoc, List.cons_append, List.nil_append]
      rw [hsplit]
      exact .quoted (hfront.append hkeyword) (h.comment text hcomment).1 hrear

/-- Valid clauses behind a spaced text are spaced. -/
theorem Valid.spaced_append {clauses : FieldClauses} (h : clauses.Valid) {head : List Char}
    (hhead : Text.Spaced Text.Solid head) : Text.Spaced Text.Solid (head ++ clauses.text) := by
  refine spaced_append_joined (fun part hmem => ?_) hhead
  simp only [List.mem_append] at hmem
  rcases hmem with (hmem | hmem) | hmem
  · exact (h.isPart_of_mem_front hmem).spaced
  · obtain ⟨body, hbody, rfl⟩ := mem_textPart hmem
    obtain ⟨text, htext, rfl⟩ := Option.map_eq_some_iff.mp hbody
    exact .cons (by decide) (h.comment text htext).2
  · exact (h.isPart_of_mem_rear hmem).spaced

/-- **A semicolon behind valid clauses does not change the field they declare.** -/
theorem Valid.fieldOfClauses_append {clauses : FieldClauses} (h : clauses.Valid) (name : String) :
    fieldOfClauses name (clauses.text ++ [';']) = fieldOfClauses name clauses.text :=
  Ddl.fieldOfClauses_append h.not_awaitsDefault name

end FieldClauses

end Ddl
end SurrealSchema
