import SurrealSchema.Proofs.Ddl.FieldClauses
import SurrealSchema.Proofs.Text.Passing

namespace SurrealSchema
namespace Ddl

/-!
# Fields with a type, a default and a comment

What the clauses `TYPE`, `OPTIONAL`, `DEFAULT` and `COMMENT` of a field are read as when they stand
in this order.  The texts in them may have any form, as long as no keyword of a clause is a word of
them: such a text is `FreeOfClauses`, and every search for a clause passes over it.

Main statement: `TypedClauses.Valid.fieldOfClauses_eq`.  Behind the clauses there may be a
semicolon.
-/

/-! ## Texts without clauses -/

/-- The keywords at which the text of a type ends. -/
def typeEnds : List String :=
  ["DEFAULT", "VALUE", "COMMENT", "PERMISSIONS", "ASSERT", "READONLY", "OPTIONAL", "FLEXIBLE"]

/-- Whether no clause starts or ends in a text.  The keyword of a comment counts even inside a
word. -/
structure FreeOfClauses (text : List Char) : Prop where
  keywords : ∀ word ∈ typeEnds, Text.Lacks (Text.keyword? word) text
  comment : ¬ "COMMENT".toList <:+: text
  semicolon : ';' ∉ text

instance (text : List Char) : Decidable (FreeOfClauses text) :=
  decidable_of_iff ((∀ word ∈ typeEnds, Text.Lacks (Text.keyword? word) text) ∧
      ¬ "COMMENT".toList <:+: text ∧ ';' ∉ text)
    ⟨fun h => ⟨h.1, h.2.1, h.2.2⟩, fun h => ⟨h.keywords, h.comment, h.semicolon⟩⟩

theorem readsWord_of_mem_typeEnds {word : String} (h : word ∈ typeEnds) :
    Text.ReadsWord (Text.keyword? word) := by
  have hall : ∀ word ∈ typeEnds,
      word.toList ≠ [] ∧ (word.toList.all Text.isWord) = true := by decide
  obtain ⟨hne, hword⟩ := hall word h
  exact Text.readsWord_keyword hne (List.all_eq_true.mp hword)

namespace FreeOfClauses

variable {text rest : List Char}

theorem nil : FreeOfClauses [] := by decide

/-- A run of word characters is free if it is no keyword and no comment starts in it. -/
theorem of_run (hrun : ∀ c ∈ text, Text.isWord c = true)
    (hkeyword : ∀ word ∈ typeEnds, text ≠ word.toList) (hcomment : ¬ "COMMENT".toList <:+: text) :
    FreeOfClauses text where
  keywords := by
    have hall : ∀ word ∈ typeEnds,
        word.toList ≠ [] ∧ (word.toList.all Text.isWord) = true := by decide
    intro word hmem
    obtain ⟨hne, hword⟩ := hall word hmem
    exact Text.lacks_keyword_of_run hne (List.all_eq_true.mp hword) hrun (hkeyword word hmem)
  comment := hcomment
  semicolon := by
    intro hmem
    exact absurd (hrun ';' hmem) (by decide)

theorem cons {b : Char} (hb : Text.isWord b = false) (hsemicolon : b ≠ ';')
    (h : FreeOfClauses text) : FreeOfClauses (b :: text) where
  keywords := fun word hmem => (readsWord_of_mem_typeEnds hmem).lacks_cons hb (h.keywords word hmem)
  comment := by
    have hfirst : ∀ letters, 'C' :: letters <+: b :: text → b = 'C' := by
      intro letters hstarts
      exact (List.cons_prefix_cons.mp hstarts).1.symm
    intro hstands
    rcases List.infix_cons_iff.mp hstands with hstarts | hstands
    · rw [hfirst _ hstarts] at hb
      contradiction
    · exact h.comment hstands
  semicolon := by
    simp only [List.mem_cons, not_or]
    exact ⟨Ne.symm hsemicolon, h.semicolon⟩

/-- No clause starts or ends in two texts side by side if no word goes on from one to the other. -/
theorem append (h : FreeOfClauses text) (hhalts : Text.Halts Text.isWord rest)
    (hrest : FreeOfClauses rest) : FreeOfClauses (text ++ rest) where
  keywords := fun word hmem =>
    (readsWord_of_mem_typeEnds hmem).lacks_append (h.keywords word hmem) hhalts
      (hrest.keywords word hmem)
  comment := by
    intro hstands
    cases rest with
    | nil => exact h.comment (by simpa using hstands)
    | cons b rest =>
        have hb : Text.isWord b = false := hhalts b rfl
        have hmem : b ∉ "COMMENT".toList := by
          have hletters : ("COMMENT".toList.all Text.isWord) = true := by decide
          intro hmem
          rw [List.all_eq_true.mp hletters b hmem] at hb
          contradiction
        rcases Text.infix_append_mark hmem hstands with hstands | hstands
        · exact h.comment hstands
        · exact hrest.comment (hstands.trans (List.suffix_cons b rest).isInfix)
  semicolon := by
    simp only [List.mem_append, not_or]
    exact ⟨h.semicolon, hrest.semicolon⟩

theorem append_space (h : FreeOfClauses text) (hrest : FreeOfClauses rest) :
    FreeOfClauses (text ++ ' ' :: rest) := by
  have hspace : Text.isWord ' ' = false := by decide
  exact h.append (Text.halts_cons hspace rest) (.cons hspace (by decide) hrest)

/-- The text of a type goes on through a text without clauses and blanks behind it. -/
theorem passes_endsType (h : FreeOfClauses text) {blanks : List Char}
    (hblanks : ∀ c ∈ blanks, Text.isBlank c = true)
    (hrest : Text.Halts Text.isWord (blanks ++ rest)) (before : Option Char) :
    Text.Passes endsType rest before (text ++ blanks) := by
  have hmarks : ∀ c ∈ blanks, Text.isWord c = false :=
    fun c hc => Text.isWord_of_isBlank (hblanks c hc)
  have hsemicolon : ';' ∉ text ++ blanks := by
    intro hmem
    rcases List.mem_append.mp hmem with hmem | hmem
    · exact h.semicolon hmem
    · exact absurd (hblanks ';' hmem) (by decide)
  have hkeywords : Text.Passes (Text.atKeyword typeEnds) rest before (text ++ blanks) :=
    Text.passes_any fun word hmem =>
      have hreads := readsWord_of_mem_typeEnds hmem
      (hreads.passes (h.keywords word hmem) hrest before).append (hreads.passes_marks hmarks _)
  exact (Text.passes_head hsemicolon).or hkeywords

/-- An expression ends nowhere where the text of a type goes on. -/
theorem passes_endsExpression (h : FreeOfClauses text) {blanks : List Char}
    (hblanks : ∀ c ∈ blanks, Text.isBlank c = true)
    (hrest : Text.Halts Text.isWord (blanks ++ rest)) (before : Option Char) :
    Text.Passes endsExpression rest before (text ++ blanks) := by
  refine (h.passes_endsType hblanks hrest before).imp fun before text hends => ?_
  have hsub : ∀ word ∈ ["COMMENT", "PERMISSIONS", "ASSERT", "READONLY"], word ∈ typeEnds := by
    decide
  simp only [endsExpression, Text.atKeyword, Bool.or_eq_true, List.any_eq_true] at hends
  show (_ || _) = true
  rw [Bool.or_eq_true]
  rcases hends with hsemicolon | ⟨word, hmem, hread⟩
  · exact Or.inl hsemicolon
  · exact Or.inr (List.any_eq_true.mpr ⟨word, hsub word hmem, hread⟩)

end FreeOfClauses

/-- A default clause starts with its keyword as a word of its own. -/
theorem isSome_keyword_of_defaultClause {before : Option Char} {text : List Char}
    (h : (defaultClause? before text).isSome = true) :
    ∃ word ∈ ["DEFAULT", "VALUE"], (Text.keyword? word before text).isSome = true := by
  have hboundary : ∀ {rest : List Char},
      (alwaysExpression? rest).isSome = true ∨ (expression? rest).isSome = true →
        Text.startsWord rest = false := by
    intro rest hrest
    cases hafter : Text.afterBlanks? rest with
    | none => simp [expression?, alwaysExpression?, hafter] at hrest
    | some after => exact Text.startsWord_of_afterBlanks hafter
  unfold defaultClause? at h
  split at h
  · contradiction
  · next hbefore =>
      have hword : Text.afterWord before = false := by
        simp only [Bool.or_eq_true, not_or] at hbefore
        simpa using hbefore.1
      split at h
      · next rest hliteral =>
          have hrest : Text.startsWord rest = false := by
            rw [Option.isSome_or, Bool.or_eq_true] at h
            exact hboundary h
          exact ⟨"DEFAULT", by simp, by rw [Text.keyword_eq_some hword hliteral hrest]; rfl⟩
      · obtain ⟨found, hfound⟩ := Option.isSome_iff_exists.mp h
        obtain ⟨rest, hliteral, hexpression⟩ := Option.bind_eq_some_iff.mp hfound
        have hrest := hboundary (Or.inr (by rw [hexpression]; rfl))
        exact ⟨"VALUE", by simp, by rw [Text.keyword_eq_some hword hliteral hrest]; rfl⟩

/-- Where neither keyword of a default is a word of a text, no default clause is in it. -/
theorem passes_defaultClause {text rest : List Char}
    (h : ∀ word ∈ ["DEFAULT", "VALUE"], Text.Lacks (Text.keyword? word) text)
    (hrest : Text.Halts Text.isWord rest) (before : Option Char) :
    Text.Passes (fun before text => (defaultClause? before text).isSome) rest before text := by
  have hsub : ∀ word ∈ ["DEFAULT", "VALUE"], word ∈ typeEnds := by decide
  refine (Text.passes_any fun word hmem =>
    (readsWord_of_mem_typeEnds (hsub word hmem)).passes (h word hmem) hrest before).imp ?_
  intro before text hread
  exact List.any_eq_true.mpr (isSome_keyword_of_defaultClause hread)

/-! ## One clause -/

/-- Where a text ends: there is nothing more, or a test holds of what follows. -/
def Stops (test : Option Char → List Char → Bool) (before : Option Char) (rest : List Char) :
    Prop :=
  rest = [] ∨ test before rest = true

theorem upTo_of_stops {test : Option Char → List Char → Bool} {before : Option Char}
    {rest : List Char} (h : Stops test before rest) : Text.upTo test before rest = [] := by
  cases rest with
  | nil => rfl
  | cons c rest =>
      have htest := h.resolve_left (List.cons_ne_nil _ _)
      rw [Text.upTo, if_pos htest]

/-- A text ends where nothing but a semicolon follows. -/
theorem stops_of_end {test : Option Char → List Char → Bool} {before : Option Char}
    {rest : List Char} (htest : test before [';'] = true) (hrest : rest = [] ∨ rest = [';']) :
    Stops test before rest := by
  rcases hrest with rfl | rfl
  · exact Or.inl rfl
  · exact Or.inr htest

/-- A text that may stand behind a keyword, without blanks around it. -/
structure IsClauseText (text : List Char) : Prop where
  trimmed : Text.Trimmed text
  ne_nil : text ≠ []
  free : FreeOfClauses text

theorem IsClauseText.halts_append {text : List Char} (h : IsClauseText text) (rest : List Char) :
    Text.Halts Text.isBlank (text ++ rest) := by
  obtain ⟨c, more, rfl⟩ := List.exists_cons_of_ne_nil h.ne_nil
  exact Text.halts_cons (h.trimmed.1 c rfl) _

section Clause

variable {type value blanks rest : List Char}

/-- **The type of a type clause** is its text up to the next clause, without blanks around it. -/
theorem declaredType_clause (htype : IsClauseText type)
    (hblanks : ∀ c ∈ blanks, Text.isBlank c = true)
    (hhalts : Text.Halts Text.isWord (blanks ++ rest))
    (hstops : Stops endsType ((type ++ blanks).getLast?.or (some ' ')) rest) :
    declaredType (' ' :: ("TYPE".toList ++ ' ' :: (type ++ blanks ++ rest))) = type := by
  have hstart : Text.Halts Text.isBlank (type ++ blanks ++ rest) := by
    rw [List.append_assoc]
    exact htype.halts_append _
  have hread : typeClause? (some ' ') ("TYPE".toList ++ ' ' :: (type ++ blanks ++ rest)) =
      some type := by
    have hspace : Text.afterWord (some ' ') = false := by decide
    have hliteral : Text.afterLiteral? "TYPE".toList
        ("TYPE".toList ++ ' ' :: (type ++ blanks ++ rest)) =
          some (' ' :: (type ++ blanks ++ rest)) := List.isPrefixOf?_eq_some_iff_append_eq.mpr rfl
    unfold typeClause?
    rw [if_neg (by rw [hspace]; exact Bool.false_ne_true), hliteral, Option.bind_some,
      Text.afterBlanks_space hstart, Option.map_some,
      Text.upTo_of_passes (htype.free.passes_endsType hblanks hhalts _), upTo_of_stops hstops,
      List.append_nil, Text.trimEnd_append_blanks htype.trimmed hblanks]
  have hsearch : Text.search typeClause? none
      (' ' :: ("TYPE".toList ++ ' ' :: (type ++ blanks ++ rest))) = some ([' '], type) := by
    have hfirst : typeClause? none (' ' :: ("TYPE".toList ++ ' ' :: (type ++ blanks ++ rest))) =
        none := rfl
    have htext : "TYPE".toList ++ ' ' :: (type ++ blanks ++ rest) =
        'T' :: ("YPE".toList ++ ' ' :: (type ++ blanks ++ rest)) := rfl
    rw [Text.search, hfirst]
    rw [htext] at hread ⊢
    rw [Text.search, hread]
    rfl
  unfold declaredType
  rw [hsearch]

/-- The expression behind a keyword goes on through a text without clauses. -/
theorem expression_goesOn (hvalue : IsClauseText value) (hrest : Text.Halts Text.isWord rest) :
    expression? (' ' :: (value ++ rest)) = some (Text.trimEnd
      (value ++ Text.upTo endsExpression (value.getLast?.or (some ' ')) rest)) := by
  have hnone : ∀ c ∈ ([] : List Char), Text.isBlank c = true := fun _ hc =>
    absurd hc List.not_mem_nil
  have hpasses := hvalue.free.passes_endsExpression hnone hrest (some ' ')
  have hstart := hvalue.halts_append rest
  rw [List.append_nil] at hpasses
  have hupTo := Text.upTo_of_passes hpasses
  obtain ⟨c, more, rfl⟩ := List.exists_cons_of_ne_nil hvalue.ne_nil
  -- The first character of an expression is taken whatever it is.
  have htail : c :: Text.upTo endsExpression (some c) (more ++ rest) =
      Text.upTo endsExpression (some ' ') (c :: more ++ rest) := by
    have hfirst : endsExpression (some ' ') (c :: (more ++ rest)) = false := hpasses.1
    rw [List.cons_append, Text.upTo, hfirst]
    rfl
  unfold expression?
  rw [Text.afterBlanks_space hstart]
  show some (Text.trimEnd (c :: Text.upTo endsExpression (some c) (more ++ rest))) = _
  rw [htail, hupTo]

/-- The expression behind a keyword is its text up to the next clause, without blanks around it. -/
theorem expression_clause (hvalue : IsClauseText value)
    (hblanks : ∀ c ∈ blanks, Text.isBlank c = true)
    (hhalts : Text.Halts Text.isWord (blanks ++ rest))
    (hstops : Stops endsExpression ((value ++ blanks).getLast?.or (some ' ')) rest) :
    expression? (' ' :: (value ++ blanks ++ rest)) = some value := by
  have hpasses : Text.Passes endsExpression rest (value.getLast?.or (some ' ')) blanks :=
    FreeOfClauses.nil.passes_endsExpression hblanks hhalts _
  have hlast : blanks.getLast?.or (value.getLast?.or (some ' ')) =
      (value ++ blanks).getLast?.or (some ' ') := by
    rw [List.getLast?_append, Option.or_assoc]
  rw [List.append_assoc, expression_goesOn hvalue hhalts, Text.upTo_of_passes hpasses,
    hlast, upTo_of_stops hstops, List.append_nil,
    Text.trimEnd_append_blanks hvalue.trimmed hblanks]

/-- **The expression of a default clause** is found behind a text without default clauses. -/
theorem search_defaultClause {front : List Char}
    (hfront : ∀ word ∈ ["DEFAULT", "VALUE"], Text.Lacks (Text.keyword? word) front)
    (hvalue : expression? (' ' :: rest) = some value)
    (halways : alwaysExpression? (' ' :: rest) = none) :
    (Text.search defaultClause? none (front ++ ' ' :: ("DEFAULT".toList ++ ' ' :: rest))).map
      Prod.snd = some value := by
  have hspace : ∀ before, defaultClause? before (' ' :: ("DEFAULT".toList ++ ' ' :: rest)) =
      none := by
    intro before
    unfold defaultClause?
    split <;> rfl
  have hread : defaultClause? (some ' ') ("DEFAULT".toList ++ ' ' :: rest) = some value := by
    have hliteral : Text.afterLiteral? "DEFAULT".toList ("DEFAULT".toList ++ ' ' :: rest) =
        some (' ' :: rest) := List.isPrefixOf?_eq_some_iff_append_eq.mpr rfl
    unfold defaultClause?
    rw [if_neg (by decide), hliteral]
    simp only [halways, hvalue, Option.none_or]
  have htext : "DEFAULT".toList ++ ' ' :: rest = 'D' :: ("EFAULT".toList ++ ' ' :: rest) := rfl
  rw [Text.search_of_passes (passes_defaultClause hfront (Text.halts_cons (by decide) _) none),
    Text.search, hspace]
  rw [htext] at hread ⊢
  rw [Text.search, hread]
  rfl

/-- Where neither keyword of a default is a word of a text, it has no default. -/
theorem search_defaultClause_eq_none
    (h : ∀ word ∈ ["DEFAULT", "VALUE"], Text.Lacks (Text.keyword? word) rest) :
    Text.search defaultClause? none rest = none := by
  have hpasses := passes_defaultClause h (Text.halts_nil _) none
  have hsearch := Text.search_of_passes hpasses
  have hnil : ∀ before, defaultClause? before [] = none := by
    intro before
    unfold defaultClause?
    split <;> rfl
  rw [List.append_nil, Text.search, hnil] at hsearch
  exact hsearch

/-- The marker of an optional field is found behind a text that lacks it. -/
theorem hasOptionalMarker_clause {front : List Char}
    (hfront : Text.Lacks (Text.keyword? "OPTIONAL") front) (hrest : Text.Halts Text.isWord rest) :
    hasOptionalMarker (front ++ ' ' :: ("OPTIONAL".toList ++ rest)) = true := by
  have hreads : Text.ReadsWord (Text.keyword? "OPTIONAL") := readsWord_of_mem_typeEnds (by decide)
  have hspace : ∀ text, Text.Halts Text.isWord (' ' :: text) := Text.halts_cons (by decide)
  have hboundary := Text.startsWord_of_halts hrest
  have hread : Text.keyword? "OPTIONAL" (some ' ') ("OPTIONAL".toList ++ rest) = some rest :=
    Text.keyword_eq_some (by decide) (List.isPrefixOf?_eq_some_iff_append_eq.mpr rfl) hboundary
  have htext : "OPTIONAL".toList ++ rest = 'O' :: ("PTIONAL".toList ++ rest) := rfl
  unfold hasOptionalMarker
  rw [Text.search_of_passes (hreads.passes hfront (hspace _) none), Text.search,
    hreads.halted _ _ (hspace _)]
  rw [htext] at hread ⊢
  rw [Text.search, hread]
  rfl

theorem hasOptionalMarker_eq_false (h : Text.Lacks (Text.keyword? "OPTIONAL") rest) :
    hasOptionalMarker rest = false := by
  unfold hasOptionalMarker
  rw [h]
  rfl

end Clause

/-! ## The clauses together -/

/-- The clauses of a field with a type, by what stands behind their keywords. -/
structure TypedClauses where
  type : List Char
  isOptional : Bool
  default? : Option (List Char)
  comment? : Option (List Char)

namespace TypedClauses

/-- The clause of the type. -/
def typeText (clauses : TypedClauses) : List Char :=
  ' ' :: ("TYPE".toList ++ ' ' :: clauses.type)

/-- The marker of an optional field, if it is there. -/
def markerText (clauses : TypedClauses) : List Char :=
  if clauses.isOptional then ' ' :: "OPTIONAL".toList else []

/-- The clause of the default, if there is one. -/
def defaultText (clauses : TypedClauses) : List Char :=
  match clauses.default? with
  | none => []
  | some value => ' ' :: ("DEFAULT".toList ++ ' ' :: value)

/-- The clause of the comment between double quotes, if there is one. -/
def commentText (clauses : TypedClauses) : List Char :=
  match clauses.comment? with
  | none => []
  | some comment => ' ' :: ("COMMENT".toList ++ ' ' :: '"' :: (comment ++ ['"']))

/-- The clauses before the comment. -/
def front (clauses : TypedClauses) : List Char :=
  clauses.typeText ++ clauses.markerText ++ clauses.defaultText

/-- The clauses as they are written. -/
def text (clauses : TypedClauses) : List Char :=
  clauses.front ++ clauses.commentText

/-- Whether the clauses can be told apart: their texts have no clauses in them, the default is not
one that holds always, and the comment is between the only quotes. -/
structure Valid (clauses : TypedClauses) : Prop where
  type : IsClauseText clauses.type
  value : ∀ value ∈ clauses.default?, IsClauseText value ∧ ¬ "ALWAYS".toList <+: value
  comment : ∀ comment ∈ clauses.comment?, comment ≠ [] ∧ '"' ∉ comment ∧ '\\' ∉ comment

/-- What may stand behind the clauses: blanks, and a semicolon behind them. -/
def IsTail (tail : List Char) : Prop :=
  ∃ blanks rest, tail = blanks ++ rest ∧ (∀ c ∈ blanks, Text.isBlank c = true) ∧
    (rest = [] ∨ rest = [';'])

variable {clauses : TypedClauses} {tail : List Char}

theorem isTail_marks (h : IsTail tail) : ∀ c ∈ tail, Text.isWord c = false := by
  obtain ⟨blanks, rest, rfl, hblanks, hrest⟩ := h
  intro c hc
  rcases List.mem_append.mp hc with hc | hc
  · exact Text.isWord_of_isBlank (hblanks c hc)
  · rcases hrest with rfl | rfl
    · contradiction
    · rw [List.mem_singleton.mp hc]
      decide

theorem isTail_halts (h : IsTail tail) : Text.Halts Text.isWord tail := by
  intro c hc
  exact isTail_marks h c (List.mem_of_mem_head? hc)

theorem Valid.free_typeText (h : clauses.Valid) : FreeOfClauses clauses.typeText := by
  have hkeyword : FreeOfClauses (' ' :: "TYPE".toList) := by decide
  exact hkeyword.append_space h.type.free

/-- In front of another clause the type is found. -/
theorem Valid.declaredType_keyword (h : clauses.Valid) {word : String} (hword : word ∈ typeEnds)
    (rest : List Char) (hrest : Text.startsWord rest = false) :
    declaredType (clauses.typeText ++ ' ' :: (word.toList ++ rest)) = clauses.type := by
  have hspace : ∀ c ∈ [' '], Text.isBlank c = true := List.forall_mem_singleton.mpr rfl
  have hlast : (clauses.type ++ [' ']).getLast?.or (some ' ') = some ' ' := by simp
  have hstops : Stops endsType ((clauses.type ++ [' ']).getLast?.or (some ' '))
      (word.toList ++ rest) := by
    have hliteral : Text.afterLiteral? word.toList (word.toList ++ rest) = some rest :=
      List.isPrefixOf?_eq_some_iff_append_eq.mpr rfl
    have hblank : Text.afterWord (some ' ') = false := by decide
    have hread := Text.keyword_eq_some hblank hliteral hrest
    rw [hlast]
    refine Or.inr (Bool.or_eq_true _ _ ▸ Or.inr (List.any_eq_true.mpr ⟨word, hword, ?_⟩))
    rw [hread]
    rfl
  have hclause := declaredType_clause h.type hspace (Text.halts_cons (by decide) _) hstops
  unfold typeText
  simpa using hclause

/-- The type is found in front of the other clauses. -/
theorem Valid.declaredType_eq (h : clauses.Valid) (htail : IsTail tail) :
    declaredType (clauses.front ++ tail) = clauses.type := by
  -- What follows the type is the marker, the default or the tail.
  unfold front markerText defaultText
  split
  · cases hdefault : clauses.default? with
    | none =>
        have hrest := Text.startsWord_of_halts (isTail_halts htail)
        have hclause := h.declaredType_keyword (by decide : "OPTIONAL" ∈ typeEnds) tail hrest
        simpa using hclause
    | some value =>
        have hclause := h.declaredType_keyword (by decide : "OPTIONAL" ∈ typeEnds)
          (' ' :: ("DEFAULT".toList ++ ' ' :: value) ++ tail) rfl
        simpa using hclause
  · cases hdefault : clauses.default? with
    | none =>
        obtain ⟨blanks, rest, rfl, hblanks, hrest⟩ := htail
        have hhalts : Text.Halts Text.isWord (blanks ++ rest) :=
          isTail_halts ⟨blanks, rest, rfl, hblanks, hrest⟩
        have hclause := declaredType_clause h.type hblanks hhalts (stops_of_end rfl hrest)
        unfold typeText
        simpa using hclause
    | some value =>
        have hclause := h.declaredType_keyword (by decide : "DEFAULT" ∈ typeEnds)
          (' ' :: value ++ tail) rfl
        simpa using hclause

/-- The marker is found exactly when it is there. -/
theorem Valid.hasOptionalMarker_eq (h : clauses.Valid) (htail : IsTail tail) :
    hasOptionalMarker (clauses.front ++ tail) = clauses.isOptional := by
  have hreads : Text.ReadsWord (Text.keyword? "OPTIONAL") := readsWord_of_mem_typeEnds (by decide)
  have htype := h.free_typeText.keywords "OPTIONAL" (by decide)
  have hdefault : Text.Lacks (Text.keyword? "OPTIONAL") clauses.defaultText := by
    unfold defaultText
    cases hvalue : clauses.default? with
    | none => exact hreads.lacks_nil
    | some value =>
        have hkeyword : Text.Lacks (Text.keyword? "OPTIONAL") (' ' :: "DEFAULT".toList) := by decide
        exact hreads.lacks_append_space hkeyword
          ((h.value value hvalue).1.free.keywords "OPTIONAL" (by decide))
  have hhalts : ∀ rest, Text.Halts Text.isWord rest →
      Text.Halts Text.isWord (clauses.defaultText ++ rest) := by
    intro rest hrest
    unfold defaultText
    split
    · exact hrest
    · exact Text.halts_cons (by decide) _
  cases hoptional : clauses.isOptional with
  | true =>
      have hfound := hasOptionalMarker_clause htype (hhalts tail (isTail_halts htail))
      unfold front markerText
      rw [hoptional]
      simpa using hfound
  | false =>
      -- The word is neither in the type nor in the default, and what is behind them is no word.
      apply hasOptionalMarker_eq_false
      apply hreads.lacks_append_marks _ (isTail_marks htail)
      unfold front markerText
      rw [hoptional]
      simp only [Bool.false_eq_true, if_false, List.append_nil]
      have hend := hhalts [] (Text.halts_nil _)
      rw [List.append_nil] at hend
      exact hreads.lacks_append htype hend hdefault

/-- The default is found where it is written. -/
theorem Valid.search_default_eq (h : clauses.Valid) (htail : IsTail tail) :
    (Text.search defaultClause? none (clauses.front ++ tail)).map Prod.snd = clauses.default? := by
  have hsub : ∀ word ∈ ["DEFAULT", "VALUE"], word ∈ typeEnds ∧ word ≠ "OPTIONAL" := by decide
  have hfront : ∀ word ∈ ["DEFAULT", "VALUE"],
      Text.Lacks (Text.keyword? word) (clauses.typeText ++ clauses.markerText) := by
    intro word hword
    obtain ⟨hmem, hne⟩ := hsub word hword
    have hreads := readsWord_of_mem_typeEnds hmem
    have htype := h.free_typeText.keywords word hmem
    unfold markerText
    split
    · have hmarker : ∀ word ∈ ["DEFAULT", "VALUE"],
          Text.Lacks (Text.keyword? word) "OPTIONAL".toList := by decide
      exact hreads.lacks_append_space htype (hmarker word hword)
    · simpa using htype
  unfold front defaultText
  cases hvalue : clauses.default? with
  | none =>
      have hlacks : ∀ word ∈ ["DEFAULT", "VALUE"],
          Text.Lacks (Text.keyword? word) (clauses.typeText ++ clauses.markerText ++ tail) :=
        fun word hword => (readsWord_of_mem_typeEnds (hsub word hword).1).lacks_append_marks
          (hfront word hword) (isTail_marks htail)
      rw [List.append_nil, search_defaultClause_eq_none hlacks]
      rfl
  | some value =>
      obtain ⟨hvalid, halways⟩ := h.value value hvalue
      have hword : ("ALWAYS".toList.all Text.isWord) = true := by decide
      have hnever : alwaysExpression? (' ' :: (value ++ tail)) = none := by
        unfold alwaysExpression?
        rw [Text.afterBlanks_space (hvalid.halts_append tail), Option.bind_some,
          Text.afterLiteral_append_of_halts (List.all_eq_true.mp hword) (isTail_halts htail),
          afterLiteral_eq_none halways]
        rfl
      -- The expression ends in front of the blanks, and the semicolon ends the clause.
      obtain ⟨blanks, rest, rfl, hblanks, hrest⟩ := htail
      have hhalts : Text.Halts Text.isWord (blanks ++ rest) :=
        isTail_halts ⟨blanks, rest, rfl, hblanks, hrest⟩
      have hexpression := expression_clause hvalid hblanks hhalts (stops_of_end rfl hrest)
      rw [List.append_assoc] at hexpression
      have hfound := search_defaultClause hfront hexpression hnever
      simpa using hfound

/-- The keyword of a comment stands nowhere before the comment. -/
theorem Valid.not_infix_front (h : clauses.Valid) : ¬ "COMMENT".toList <:+: clauses.front := by
  have hspace : ' ' ∉ "COMMENT".toList := by decide
  have htype : ¬ "COMMENT".toList <:+: clauses.typeText := h.free_typeText.comment
  have hmarker : ¬ "COMMENT".toList <:+: clauses.typeText ++ clauses.markerText := by
    unfold markerText
    split
    · intro hstands
      rcases Text.infix_append_mark hspace hstands with hstands | hstands
      · exact htype hstands
      · exact absurd hstands (by decide)
    · simpa using htype
  unfold front defaultText
  cases hvalue : clauses.default? with
  | none => simpa using hmarker
  | some value =>
      intro hstands
      rcases Text.infix_append_mark hspace hstands with hstands | hstands
      · exact hmarker hstands
      · rcases Text.infix_append_mark hspace hstands with hstands | hstands
        · exact absurd hstands (by decide)
        · exact (h.value value hvalue).1.free.comment hstands

/-- Quotes that are not between the quotes end at the first one. -/
theorem untilQuote_closed {quote before : Char} {content rest : List Char}
    (hquote : quote ∉ content) (hbackslash : '\\' ∉ content) (hbefore : before ≠ '\\') :
    untilQuote? quote before (content ++ quote :: rest) = some (content, rest) := by
  induction content generalizing before with
  | nil => simp [untilQuote?, hbefore]
  | cons c content ih =>
      simp only [List.mem_cons, not_or] at hquote hbackslash
      have hc : ¬ (c = quote ∧ before ≠ '\\') := fun hboth => hquote.1 hboth.1.symm
      rw [List.cons_append, untilQuote?, if_neg hc,
        ih hquote.2 hbackslash.2 (Ne.symm hbackslash.1)]
      rfl

/-- The comment is cut off behind the other clauses. -/
theorem Valid.comment_eq (h : clauses.Valid) {mark : List Char} (hmark : mark = [] ∨ mark = [';']) :
    Ddl.comment? (clauses.text ++ mark) = clauses.comment? ∧
      (∃ tail, IsTail tail ∧ beforeComment (clauses.text ++ mark) = clauses.front ++ tail) ∧
      ∃ tail, IsTail tail ∧ withoutComment (clauses.text ++ mark) = clauses.front ++ tail := by
  have hend : IsTail mark := ⟨[], mark, rfl, by simp, hmark⟩
  cases hcomment : clauses.comment? with
  | none =>
      have hcut : cutAt? "COMMENT".toList (clauses.front ++ mark) = none := by
        apply cutAt_eq_none
        intro hstands
        rcases hmark with rfl | rfl
        · rw [List.append_nil] at hstands
          exact h.not_infix_front hstands
        · rcases Text.infix_append_mark (by decide) hstands with hstands | hstands
          · exact h.not_infix_front hstands
          · exact absurd hstands (by decide)
      have htext : clauses.text = clauses.front := by
        unfold text commentText
        rw [hcomment, List.append_nil]
      unfold Ddl.comment? beforeComment withoutComment
      rw [htext, hcut]
      exact ⟨rfl, ⟨mark, hend, rfl⟩, ⟨mark, hend, rfl⟩⟩
  | some comment =>
      obtain ⟨hne, hquote, hbackslash⟩ := h.comment comment hcomment
      have hcut := cutAt_comment h.not_infix_front (' ' :: '"' :: (comment ++ '"' :: mark))
      have htext : clauses.text ++ mark = clauses.front ++ ' ' :: ("COMMENT".toList ++
          (' ' :: '"' :: (comment ++ '"' :: mark))) := by
        unfold text commentText
        rw [hcomment]
        simp
      -- The quotes of the comment are the first ones behind its keyword.
      have hpayload : payload? (' ' :: '"' :: (comment ++ '"' :: mark)) = some (comment, mark) :=
        untilQuote_closed hquote hbackslash (by decide)
      unfold Ddl.comment? beforeComment withoutComment
      rw [htext, hcut]
      dsimp only
      rw [hpayload]
      have hspace : ∀ c ∈ [' '], Text.isBlank c = true := List.forall_mem_singleton.mpr rfl
      refine ⟨by simp [hne], ⟨[' '], ⟨[' '], [], rfl, hspace, Or.inl rfl⟩, rfl⟩, ?_⟩
      exact ⟨' ' :: mark, ⟨[' '], mark, rfl, hspace, hmark⟩, by simp⟩

/-- **The clauses are read as what they were written from**, with or without a semicolon behind
them. -/
theorem Valid.fieldOfClauses_eq (h : clauses.Valid) {mark : List Char}
    (hmark : mark = [] ∨ mark = [';']) (name : String) :
    fieldOfClauses name (clauses.text ++ mark) =
      { name
        kind := (Descriptor.ofTypeText clauses.type).kind
        isOptional := (Descriptor.ofTypeText clauses.type).isOptional || clauses.isOptional
        description := clauses.comment?.map String.ofList
        defaultValue := clauses.default?.map String.ofList
        reference := (Descriptor.ofTypeText clauses.type).reference } := by
  obtain ⟨hcomment, ⟨before, hbefore, hdeclared⟩, ⟨without, hwithout, hdefaults⟩⟩ :=
    h.comment_eq hmark
  have hdefault : Ddl.default? (clauses.text ++ mark) = clauses.default? := by
    unfold Ddl.default?
    rw [hdefaults, h.search_default_eq hwithout]
    cases hvalue : clauses.default? with
    | none => rfl
    | some value =>
        have hne := (h.value value hvalue).1.ne_nil
        simp [hne]
  unfold fieldOfClauses
  dsimp only
  rw [hcomment, hdefault, hdeclared, h.declaredType_eq hbefore, h.hasOptionalMarker_eq hbefore]

end TypedClauses

end Ddl
end SurrealSchema
