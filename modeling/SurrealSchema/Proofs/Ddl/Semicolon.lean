import SurrealSchema.Ddl.Definition
import SurrealSchema.Proofs.Text.Append
import SurrealSchema.Proofs.Text.Spaced

namespace SurrealSchema
namespace Ddl

/-!
# Clauses in front of a semicolon

A definition is written with a semicolon behind it.  The semicolon changes no clause, with one
exception: a keyword of a default that has only blanks behind it takes the semicolon for its
expression.  `AwaitsDefault` describes the texts that end so.
-/

/-! ## Comments -/

theorem afterLiteral_eq_none {literal text : List Char} (h : ¬ literal <+: text) :
    Text.afterLiteral? literal text = none := by
  rw [Option.eq_none_iff_forall_ne_some]
  intro rest hrest
  exact h ⟨rest, List.append_eq_of_isPrefixOf?_eq_some hrest⟩

/-- A text is cut nowhere at a literal that does not stand in it. -/
theorem cutAt_eq_none {literal text : List Char} (h : ¬ literal <:+: text) :
    cutAt? literal text = none := by
  rw [Option.eq_none_iff_forall_ne_some]
  rintro ⟨before, rest⟩ hcut
  obtain ⟨behind, rfl, hread⟩ := Text.read_of_search hcut
  rw [← List.append_eq_of_isPrefixOf?_eq_some hread] at h
  exact h ⟨before, rest, List.append_assoc _ _ _⟩

/-- A text that is cut at a literal is what stands before it, the literal and the rest. -/
theorem eq_of_cutAt {literal text before rest : List Char}
    (h : cutAt? literal text = some (before, rest)) : text = before ++ (literal ++ rest) := by
  obtain ⟨behind, rfl, hread⟩ := Text.read_of_search h
  rw [List.append_eq_of_isPrefixOf?_eq_some hread]

/-- A text is cut at every literal that stands in it. -/
theorem exists_cutAt_of_infix {literal text : List Char} (hne : literal ≠ [])
    (h : literal <:+: text) : ∃ before rest, cutAt? literal text = some (before, rest) := by
  have hsearch : ∀ previous, (Text.search (fun _ text => Text.afterLiteral? literal text) previous
      text).isSome = true := by
    induction text with
    | nil => exact absurd (List.infix_nil.mp h) hne
    | cons c text ih =>
        intro previous
        rw [Text.search]
        split
        · rfl
        · next hnone =>
            rcases List.infix_cons_iff.mp h with ⟨rest, hrest⟩ | hlater
            · have hread : Text.afterLiteral? literal (c :: text) = some rest :=
                List.isPrefixOf?_eq_some_iff_append_eq.mpr hrest
              rw [hread] at hnone
              contradiction
            · simpa using ih hlater (some c)
  obtain ⟨⟨before, rest⟩, hcut⟩ := Option.isSome_iff_exists.mp (hsearch none)
  exact ⟨before, rest, hcut⟩

/-- What is left behind a literal is part of the text. -/
theorem mem_of_cutAt {literal text before rest : List Char}
    (h : cutAt? literal text = some (before, rest)) {c : Char} (hc : c ∈ rest) : c ∈ text := by
  rw [eq_of_cutAt h]
  exact List.mem_append_right _ (List.mem_append_right _ hc)

/-- A text is cut at the first place of a literal. -/
theorem cutAt_of_first {literal front rest : List Char}
    (h : ∀ passed, passed ≠ [] → passed <:+ front → ¬ literal <+: passed ++ (literal ++ rest)) :
    cutAt? literal (front ++ (literal ++ rest)) = some (front, rest) := by
  have hliteral : Text.afterLiteral? literal (literal ++ rest) = some rest :=
    List.isPrefixOf?_eq_some_iff_append_eq.mpr rfl
  have hsearch : ∀ before, Text.search (fun _ text => Text.afterLiteral? literal text) before
      (front ++ (literal ++ rest)) = some (front, rest) := by
    induction front with
    | nil =>
        intro before
        rw [List.nil_append]
        cases htext : literal ++ rest with
        | nil =>
            rw [htext] at hliteral
            simp [Text.search, hliteral]
        | cons c text =>
            rw [htext] at hliteral
            simp [Text.search, hliteral]
    | cons c front ih =>
        intro before
        have hfirst := afterLiteral_eq_none (h (c :: front) (List.cons_ne_nil _ _)
          (List.suffix_refl _))
        have hrest := ih fun passed hne hsuffix =>
          h passed hne (hsuffix.trans (List.suffix_cons c front))
        rw [List.cons_append] at hfirst ⊢
        rw [Text.search, hfirst, hrest]
        rfl
  exact hsearch none

/-- A text is cut alike in front of a mark that has no character of the literal. -/
theorem cutAt_append {literal mark : List Char} (hne : literal ≠ [])
    (hmark : ∀ c ∈ mark, c ∉ literal) (text : List Char) :
    cutAt? literal (text ++ mark) =
      (cutAt? literal text).map fun cut => (cut.1, cut.2 ++ mark) := by
  have hnil : Text.afterLiteral? literal [] = none := by
    obtain ⟨letter, letters, rfl⟩ := List.exists_cons_of_ne_nil hne
    rfl
  have hnothing : ∀ before, Text.search (fun _ rest => Text.afterLiteral? literal rest) before
      mark = none := by
    induction mark with
    | nil =>
        intro before
        simp [Text.search, hnil]
    | cons c mark ih =>
        intro before
        have hfirst := Text.afterLiteral_append hmark []
        rw [List.nil_append, hnil, Option.map_none] at hfirst
        rw [Text.search, hfirst, ih fun d hd => hmark d (List.mem_cons_of_mem _ hd)]
        rfl
  exact Text.search_append (fun _ => hnil) hnothing
    (fun _ rest _ _ => Text.afterLiteral_append hmark rest) none

/-- Whether a text has neither quotes nor a character of the keyword of a comment. -/
def Foreign (mark : List Char) : Prop :=
  ∀ c ∈ mark, c ≠ '"' ∧ c ≠ '\'' ∧ c ∉ "COMMENT".toList

theorem foreign_semicolon : Foreign [';'] := by
  intro c hc
  rw [List.mem_singleton.mp hc]
  decide

/-- Blanks are no part of a comment clause. -/
theorem foreign_of_blanks {blanks : List Char} (h : ∀ c ∈ blanks, Text.isBlank c = true) :
    Foreign blanks := by
  have hsolid : Text.Solid "COMMENT".toList := by decide
  intro c hc
  have hblank := h c hc
  refine ⟨?_, ?_, fun hmem => ?_⟩
  · rintro rfl
    exact absurd hblank (by decide)
  · rintro rfl
    exact absurd hblank (by decide)
  · rw [hsolid.2 c hmem] at hblank
    contradiction

theorem untilQuote_append {quote : Char} {mark : List Char} (hmark : ∀ c ∈ mark, c ≠ quote)
    (before : Char) (text : List Char) :
    untilQuote? quote before (text ++ mark) =
      (untilQuote? quote before text).map fun cut => (cut.1, cut.2 ++ mark) := by
  induction text generalizing before with
  | nil =>
      rw [List.nil_append, untilQuote?, Option.map_none]
      induction mark generalizing before with
      | nil => rfl
      | cons c mark ih =>
          have hc : ¬ (c = quote ∧ before ≠ '\\') := by
            rintro ⟨rfl, -⟩
            exact hmark c List.mem_cons_self rfl
          rw [untilQuote?, if_neg hc, ih fun d hd => hmark d (List.mem_cons_of_mem _ hd)]
          rfl
  | cons c text ih =>
      rw [List.cons_append, untilQuote?, untilQuote?]
      split
      · rfl
      · rw [ih]
        simp only [Option.map_map]
        rfl

theorem untilQuote_eq_none {quote : Char} {text : List Char} (h : quote ∉ text) (before : Char) :
    untilQuote? quote before text = none := by
  have hne : ∀ c ∈ text, c ≠ quote := by
    intro c hc heq
    exact h (heq ▸ hc)
  have happend := untilQuote_append hne before []
  rwa [List.nil_append, untilQuote?, Option.map_none] at happend

/-- Quotes that may be closed at one place are closed there, unless a backslash stands before it. -/
theorem untilQuote_of_closed {quote : Char} {payload rest : List Char} (hpayload : quote ∉ payload)
    (hrest : quote ∉ rest) (before : Char) :
    untilQuote? quote before (payload ++ quote :: rest) = none ∨
      untilQuote? quote before (payload ++ quote :: rest) = some (payload, rest) := by
  induction payload generalizing before with
  | nil =>
      rw [List.nil_append, untilQuote?]
      split
      · exact Or.inr rfl
      · exact Or.inl (by rw [untilQuote_eq_none hrest]; rfl)
  | cons c payload ih =>
      have hc : ¬ (c = quote ∧ before ≠ '\\') := by
        rintro ⟨rfl, -⟩
        exact hpayload List.mem_cons_self
      rw [List.cons_append, untilQuote?, if_neg hc]
      rcases ih (fun hmem => hpayload (List.mem_cons_of_mem _ hmem)) c with heq | heq
      · exact Or.inl (by rw [heq]; rfl)
      · exact Or.inr (by rw [heq]; rfl)

/-- A payload is read alike in front of a mark without quotes. -/
theorem payload_append {mark : List Char} (hmark : Foreign mark) (text : List Char) :
    payload? (text ++ mark) = (payload? text).map fun cut => (cut.1, cut.2 ++ mark) := by
  have hdouble : ∀ c ∈ mark, c ∉ ['"'] := by
    intro c hc
    rw [List.mem_singleton]
    exact (hmark c hc).1
  have hsingle : ∀ c ∈ mark, c ∉ ['\''] := by
    intro c hc
    rw [List.mem_singleton]
    exact (hmark c hc).2.1
  unfold payload?
  rw [cutAt_append (List.cons_ne_nil _ _) hdouble, cutAt_append (List.cons_ne_nil _ _) hsingle]
  cases cutAt? ['"'] text with
  | some cut => exact untilQuote_append (fun c hc => (hmark c hc).1) _ _
  | none =>
      cases cutAt? ['\''] text with
      | some cut => exact untilQuote_append (fun c hc => (hmark c hc).2.1) _ _
      | none => rfl

theorem cutAt_comment_append {mark : List Char} (hmark : Foreign mark) (text : List Char) :
    cutAt? "COMMENT".toList (text ++ mark) =
      (cutAt? "COMMENT".toList text).map fun cut => (cut.1, cut.2 ++ mark) :=
  cutAt_append (by decide) (fun c hc => (hmark c hc).2.2) text

/-- A mark behind a line does not change its comment. -/
theorem comment_append {mark : List Char} (hmark : Foreign mark) (line : List Char) :
    comment? (line ++ mark) = comment? line := by
  unfold comment?
  rw [cutAt_comment_append hmark]
  cases cutAt? "COMMENT".toList line with
  | none => rfl
  | some cut =>
      simp only [Option.map_some, payload_append hmark, Option.map_map]
      rfl

/-- What stands before the comment has the mark behind it only if there is no comment. -/
theorem beforeComment_append {mark : List Char} (hmark : Foreign mark) (line : List Char) :
    beforeComment (line ++ mark) = beforeComment line ++ mark ∨
      beforeComment (line ++ mark) = beforeComment line := by
  unfold beforeComment
  rw [cutAt_comment_append hmark]
  cases cutAt? "COMMENT".toList line with
  | none => exact Or.inl rfl
  | some cut => exact Or.inr rfl

/-- A line without its comment keeps the mark behind it unless the comment is open. -/
theorem withoutComment_append {mark : List Char} (hmark : Foreign mark) (line : List Char) :
    withoutComment (line ++ mark) = withoutComment line ++ mark ∨
      withoutComment (line ++ mark) = withoutComment line := by
  unfold withoutComment
  rw [cutAt_comment_append hmark]
  cases cutAt? "COMMENT".toList line with
  | none => exact Or.inl rfl
  | some cut =>
      simp only [Option.map_some, payload_append hmark]
      cases payload? cut.2 with
      | none => exact Or.inr rfl
      | some payload => exact Or.inl (List.append_assoc _ _ _).symm

/-! ## Types and markers -/

/-- No keyword at which an expression or a type ends has a semicolon. -/
theorem semicolon_not_mem_keyword {word : String}
    (hword : word ∈ ["DEFAULT", "VALUE", "COMMENT", "PERMISSIONS", "ASSERT", "READONLY", "OPTIONAL",
      "FLEXIBLE"]) : ∀ c ∈ [';'], c ∉ word.toList := by
  have hall : ∀ word ∈ ["DEFAULT", "VALUE", "COMMENT", "PERMISSIONS", "ASSERT", "READONLY",
      "OPTIONAL", "FLEXIBLE"], ';' ∉ word.toList := by decide
  intro c hc
  rw [List.mem_singleton.mp hc]
  exact hall word hword

/-- A semicolon behind a line does not change whether the marker of an optional field is there. -/
theorem hasOptionalMarker_append (line : List Char) :
    hasOptionalMarker (line ++ [';']) = hasOptionalMarker line := by
  have hread : ∀ before rest, Text.keyword? "OPTIONAL" before (rest ++ [';']) =
      (Text.keyword? "OPTIONAL" before rest).map (· ++ [';']) :=
    Text.keyword_append (semicolon_not_mem_keyword (by decide)) rfl
  have hnil : ∀ before, Text.keyword? "OPTIONAL" before [] = none := by
    intro before
    unfold Text.keyword?
    split <;> rfl
  have hmark : ∀ before, Text.keyword? "OPTIONAL" before [';'] = none := by
    intro before
    rw [← List.nil_append [';'], hread, hnil]
    rfl
  unfold hasOptionalMarker
  rw [Text.search_append hnil (Text.search_singleton hnil hmark) fun before rest _ _ =>
    hread before rest, Option.isSome_map]

theorem endsType_append (before : Option Char) (c : Char) (text : List Char) :
    endsType before (c :: text ++ [';']) = endsType before (c :: text) := by
  have hkeywords : ["DEFAULT", "VALUE", "COMMENT", "PERMISSIONS", "ASSERT", "READONLY", "OPTIONAL",
      "FLEXIBLE"] ⊆ ["DEFAULT", "VALUE", "COMMENT", "PERMISSIONS", "ASSERT", "READONLY", "OPTIONAL",
      "FLEXIBLE"] := List.Subset.refl _
  unfold endsType
  rw [Text.atKeyword_append (fun word hword => semicolon_not_mem_keyword (hkeywords hword)) rfl]
  rfl

/-- Where a type clause starts it is read alike in front of a semicolon. -/
theorem typeClause_append (before : Option Char) (text : List Char) :
    typeClause? before (text ++ [';']) = typeClause? before text := by
  have hliteral : ∀ c ∈ [';'], c ∉ "TYPE".toList := by
    intro c hc
    rw [List.mem_singleton.mp hc]
    decide
  have hstop : ∀ before, endsType before [';'] = true := fun _ => rfl
  unfold typeClause?
  rw [Text.afterLiteral_append hliteral]
  cases Text.afterLiteral? "TYPE".toList text with
  | none => rfl
  | some rest =>
      rw [Option.map_some, Option.bind_some, Option.bind_some,
        Text.afterBlanks_append (Text.halts_cons (by decide) [])]
      cases Text.afterBlanks? rest with
      | none => rfl
      | some rest =>
          rw [Option.map_some, Option.map_some, Option.map_some,
            Text.upTo_append_mark hstop endsType_append]

/-- A semicolon behind clauses does not change the type in them. -/
theorem declaredType_append (clauses : List Char) :
    declaredType (clauses ++ [';']) = declaredType clauses := by
  have hnil : ∀ before, typeClause? before [] = none := by
    intro before
    unfold typeClause?
    split <;> rfl
  have hmark : ∀ before, typeClause? before [';'] = none := by
    intro before
    rw [← List.nil_append [';'], typeClause_append, hnil]
  have hread : ∀ before rest, typeClause? before (rest ++ [';']) =
      (typeClause? before rest).map id := by
    intro before rest
    rw [typeClause_append, Option.map_id]
    rfl
  unfold declaredType
  rw [Text.search_append hnil (Text.search_singleton hnil hmark) fun before rest _ _ =>
    hread before rest]
  cases Text.search typeClause? none clauses with
  | none => rfl
  | some found => rfl

/-! ## Defaults -/

theorem endsExpression_append (before : Option Char) (c : Char) (text : List Char) :
    endsExpression before (c :: text ++ [';']) = endsExpression before (c :: text) := by
  have hkeywords : ["COMMENT", "PERMISSIONS", "ASSERT", "READONLY"] ⊆ ["DEFAULT", "VALUE",
      "COMMENT", "PERMISSIONS", "ASSERT", "READONLY", "OPTIONAL", "FLEXIBLE"] := by decide
  unfold endsExpression
  rw [Text.atKeyword_append (fun word hword => semicolon_not_mem_keyword (hkeywords hword)) rfl]
  rfl

/-- An expression is read alike in front of a semicolon, unless there are only blanks. -/
theorem expression_append {text : List Char} (hblanks : Text.afterBlanks? text ≠ some []) :
    expression? (text ++ [';']) = expression? text := by
  have hstop : ∀ before, endsExpression before [';'] = true := fun _ => rfl
  unfold expression?
  rw [Text.afterBlanks_append (Text.halts_cons (by decide) [])]
  cases hafter : Text.afterBlanks? text with
  | none => rfl
  | some rest =>
      cases rest with
      | nil => exact absurd hafter hblanks
      | cons c rest =>
          simp only [Option.map_some, List.cons_append,
            Text.upTo_append_mark hstop endsExpression_append]

/-- What stands behind the blanks and the word that makes a default hold always. -/
def afterAlways? (text : List Char) : Option (List Char) :=
  (Text.afterBlanks? text).bind (Text.afterLiteral? "ALWAYS".toList)

theorem afterAlways_append (text : List Char) :
    afterAlways? (text ++ [';']) = (afterAlways? text).map (· ++ [';']) := by
  have hliteral : ∀ c ∈ [';'], c ∉ "ALWAYS".toList := by
    intro c hc
    rw [List.mem_singleton.mp hc]
    decide
  unfold afterAlways?
  rw [Text.afterBlanks_append (Text.halts_cons (by decide) [])]
  cases Text.afterBlanks? text with
  | none => rfl
  | some rest => exact Text.afterLiteral_append hliteral rest

/-- Whether a text starts with a keyword of a default that has only blanks behind it. -/
def AwaitsExpression (text : List Char) : Prop :=
  ∃ behind, (Text.afterLiteral? "DEFAULT".toList text = some behind ∨
      Text.afterLiteral? "VALUE".toList text = some behind ∨
      ∃ rest, Text.afterLiteral? "DEFAULT".toList text = some rest ∧
        afterAlways? rest = some behind) ∧
    Text.afterBlanks? behind = some []

/-- Where a default clause starts it is read alike in front of a semicolon, unless its expression is
missing. -/
theorem defaultClause_append (before : Option Char) {text : List Char}
    (h : ¬ AwaitsExpression text) :
    defaultClause? before (text ++ [';']) = defaultClause? before text := by
  have hdefault : ∀ c ∈ [';'], c ∉ "DEFAULT".toList := semicolon_not_mem_keyword (by decide)
  have hvalue : ∀ c ∈ [';'], c ∉ "VALUE".toList := semicolon_not_mem_keyword (by decide)
  unfold defaultClause?
  rw [Text.afterLiteral_append hdefault, Text.afterLiteral_append hvalue]
  split
  · rfl
  · cases hrest : Text.afterLiteral? "DEFAULT".toList text with
    | some rest =>
        have hexpression : Text.afterBlanks? rest ≠ some [] := by
          intro hblanks
          exact h ⟨rest, Or.inl hrest, hblanks⟩
        have halways : alwaysExpression? (rest ++ [';']) = alwaysExpression? rest := by
          change (afterAlways? (rest ++ [';'])).bind expression? =
            (afterAlways? rest).bind expression?
          rw [afterAlways_append]
          cases hbehind : afterAlways? rest with
          | none => rfl
          | some behind =>
              apply expression_append
              intro hblanks
              exact h ⟨behind, Or.inr (Or.inr ⟨rest, hrest, hbehind⟩), hblanks⟩
        simp only [Option.map_some, halways, expression_append hexpression]
    | none =>
        simp only [Option.map_none]
        cases hrest : Text.afterLiteral? "VALUE".toList text with
        | none => rfl
        | some rest =>
            apply expression_append
            intro hblanks
            exact h ⟨rest, Or.inr (Or.inl hrest), hblanks⟩

/-- Whether the words of a text end in a keyword of a default, or in such a keyword and the word
that makes a default hold always. -/
def AwaitsDefault (text : List Char) : Prop :=
  ∃ front last, Text.words text = front ++ [last] ∧
    ("DEFAULT".toList <:+ last ∨ "VALUE".toList <:+ last ∨
      last = "ALWAYS".toList ∧ ∃ others word, front = others ++ [word] ∧ "DEFAULT".toList <:+ word)

/-- The words of a text with a solid text and then blanks at its end. -/
theorem words_append_solid_blanks {word blanks : List Char} (hword : Text.Solid word)
    (hblanks : ∀ c ∈ blanks, Text.isBlank c = true) (text : List Char) :
    ∃ front last, Text.words (text ++ (word ++ blanks)) = front ++ [last] ∧ word <:+ last := by
  rw [← List.append_assoc, Text.words_append_blanks hblanks]
  exact Text.words_append_solid hword text

/-- A text that somewhere awaits an expression up to its end awaits one by its last words. -/
theorem awaitsDefault_of_suffix {text rest : List Char} (hsuffix : rest <:+ text)
    (h : AwaitsExpression rest) : AwaitsDefault text := by
  have hdefault : Text.Solid "DEFAULT".toList := by decide
  have hvalue : Text.Solid "VALUE".toList := by decide
  have halways : Text.Solid "ALWAYS".toList := by decide
  obtain ⟨before, rfl⟩ := hsuffix
  obtain ⟨behind, hkeyword, hbehind⟩ := h
  obtain ⟨b, blanks, rfl, hb, hblanks⟩ := Text.blanks_of_afterBlanks hbehind
  rw [List.append_nil] at hkeyword
  have hall : ∀ c ∈ b :: blanks, Text.isBlank c = true := by
    intro c hc
    rcases List.mem_cons.mp hc with rfl | hc
    · exact hb
    · exact hblanks c hc
  rcases hkeyword with hliteral | hliteral | ⟨after, hliteral, hafter⟩
  · rw [← List.append_eq_of_isPrefixOf?_eq_some hliteral]
    obtain ⟨front, last, hwords, hlast⟩ := words_append_solid_blanks hdefault hall before
    exact ⟨front, last, hwords, Or.inl hlast⟩
  · rw [← List.append_eq_of_isPrefixOf?_eq_some hliteral]
    obtain ⟨front, last, hwords, hlast⟩ := words_append_solid_blanks hvalue hall before
    exact ⟨front, last, hwords, Or.inr (Or.inl hlast)⟩
  · obtain ⟨further, hfurther, halwaysLiteral⟩ := Option.bind_eq_some_iff.mp hafter
    obtain ⟨d, between, rfl, hd, hbetween⟩ := Text.blanks_of_afterBlanks hfurther
    rw [← List.append_eq_of_isPrefixOf?_eq_some hliteral,
      ← List.append_eq_of_isPrefixOf?_eq_some halwaysLiteral]
    obtain ⟨others, word, hwords, hword⟩ := Text.words_append_solid hdefault before
    refine ⟨others ++ [word], "ALWAYS".toList, ?_, Or.inr (Or.inr ⟨rfl, others, word, rfl, hword⟩)⟩
    rw [← List.append_assoc, Text.words_append_blank hd, hwords,
      Text.words_blanks_append hbetween, Text.words_append_blanks hall, Text.words_of_solid halways]

/-- A semicolon behind a line does not change its default, unless the line awaits one. -/
theorem default_append {line : List Char} (h : ¬ AwaitsDefault (withoutComment line)) :
    default? (line ++ [';']) = default? line := by
  have hnil : ∀ before, defaultClause? before [] = none := by
    intro before
    unfold defaultClause?
    split <;> rfl
  have hmark : ∀ before, defaultClause? before [';'] = none := by
    intro before
    unfold defaultClause?
    split <;> rfl
  unfold default?
  rcases withoutComment_append foreign_semicolon line with heq | heq
  · rw [heq, Text.search_append hnil (Text.search_singleton hnil hmark)
      (fun before rest _ hsuffix => by
        rw [defaultClause_append before fun hawaits => h (awaitsDefault_of_suffix hsuffix hawaits)]
        exact Option.map_id'.symm)]
    simp only [Option.map_map]
    rfl
  · rw [heq]

/-- **A semicolon behind clauses does not change the field they declare**, unless they await the
expression of a default. -/
theorem fieldOfClauses_append {clauses : List Char}
    (h : ¬ AwaitsDefault (withoutComment clauses)) (name : String) :
    fieldOfClauses name (clauses ++ [';']) = fieldOfClauses name clauses := by
  have htype : declaredType (beforeComment (clauses ++ [';'])) =
      declaredType (beforeComment clauses) := by
    rcases beforeComment_append foreign_semicolon clauses with heq | heq
    · rw [heq, declaredType_append]
    · rw [heq]
  have hmarker : hasOptionalMarker (beforeComment (clauses ++ [';'])) =
      hasOptionalMarker (beforeComment clauses) := by
    rcases beforeComment_append foreign_semicolon clauses with heq | heq
    · rw [heq, hasOptionalMarker_append]
    · rw [heq]
  unfold fieldOfClauses
  dsimp only
  rw [htype, hmarker, comment_append foreign_semicolon, default_append h]

end Ddl
end SurrealSchema
