import SurrealSchema.Proofs.Ddl.Splitting
import SurrealSchema.Proofs.Ddl.TableLayouts

namespace SurrealSchema
namespace Ddl

/-!
# Where a string ends

The statements of a line and the comment in a line are found by two scanners that read strings.  The
one that cuts statements takes a backslash together with the character behind it; the one that reads
comments looks at the character before a quote.  They pass over the same texts between quotes: the
quotes in such a text are escaped, so a backslash stands before each of them.  They differ at the
quote that closes the string, if the text ends in a backslash that is itself escaped.
-/

/-! ## Texts between quotes -/

/-- Whether the quotes before a text stay open up to its end and are closed by a quote behind it. -/
structure StaysInside (quote : Char) (text : List Char) : Prop where
  stays : ∀ front, front <+: text → quoteBehind (some quote) front = some quote
  closes : quoteBehind (some quote) (text ++ [quote]) = none

-- Only the beginnings of the text are looked at.
instance (quote : Char) (text : List Char) : Decidable (StaysInside quote text) :=
  decidable_of_iff ((∀ front ∈ text.inits, quoteBehind (some quote) front = some quote) ∧
      quoteBehind (some quote) (text ++ [quote]) = none)
    ⟨fun h => ⟨fun front hfront => h.1 front ((List.mem_inits _ _).mpr hfront), h.2⟩,
      fun h => ⟨fun front hfront => h.stays front ((List.mem_inits _ _).mp hfront), h.closes⟩⟩

theorem quoteBehind_escape (quote d : Char) (text : List Char) :
    quoteBehind (some quote) ('\\' :: d :: text) = quoteBehind (some quote) text := by
  rw [quoteBehind, if_pos rfl]

theorem quoteBehind_closing {quote : Char} (hescape : quote ≠ '\\') (text : List Char) :
    quoteBehind (some quote) (quote :: text) = quoteBehind none text := by
  rw [quoteBehind.eq_def]
  simp only [if_neg hescape, if_pos]

theorem quoteBehind_between {quote c : Char} (hescape : c ≠ '\\') (hquote : c ≠ quote)
    (text : List Char) : quoteBehind (some quote) (c :: text) = quoteBehind (some quote) text := by
  rw [quoteBehind.eq_def]
  simp only [if_neg hescape, if_neg hquote]

/-- Texts made of escapes and of characters that neither escape nor close. -/
inductive Enclosed (quote : Char) : List Char → Prop
  | nil : Enclosed quote []
  | escape {d : Char} {text : List Char} (h : Enclosed quote text) :
    Enclosed quote ('\\' :: d :: text)
  | between {c : Char} {text : List Char} (hescape : c ≠ '\\') (hquote : c ≠ quote)
    (h : Enclosed quote text) : Enclosed quote (c :: text)

section Enclosed

variable {quote : Char} {text : List Char}

/-- A text between quotes stays between quotes behind its start. -/
theorem StaysInside.behind (start : List Char) (h : StaysInside quote (start ++ text))
    (hstart : ∀ front, quoteBehind (some quote) (start ++ front) =
      quoteBehind (some quote) front) : StaysInside quote text where
  stays := by
    intro front hfront
    rw [← hstart]
    exact h.stays _ ((List.prefix_append_right_inj start).mpr hfront)
  closes := by
    rw [← hstart, ← List.append_assoc]
    exact h.closes

/-- The start of a text between quotes is an escape or a character of its own. -/
theorem StaysInside.cases_cons {c : Char} (hescape : quote ≠ '\\')
    (h : StaysInside quote (c :: text)) :
    (∃ d rest, c = '\\' ∧ text = d :: rest ∧ StaysInside quote rest) ∨
      (c ≠ '\\' ∧ c ≠ quote ∧ StaysInside quote text) := by
  by_cases hc : c = '\\'
  · subst hc
    cases text with
    | nil =>
        have hcloses := h.closes
        rw [List.singleton_append, quoteBehind_escape] at hcloses
        contradiction
    | cons d rest =>
        exact Or.inl ⟨d, rest, rfl, rfl, h.behind ['\\', d] (quoteBehind_escape quote d)⟩
  · have hquote : c ≠ quote := by
      rintro rfl
      have hstays := h.stays [c] (List.prefix_append [c] text)
      rw [quoteBehind_closing hescape] at hstays
      contradiction
    exact Or.inr ⟨hc, hquote, h.behind [c] (quoteBehind_between hc hquote)⟩

theorem StaysInside.enclosed (hescape : quote ≠ '\\') (h : StaysInside quote text) :
    Enclosed quote text := by
  induction text using List.twoStepInduction with
  | nil => exact .nil
  | singleton c =>
      rcases h.cases_cons hescape with ⟨d, rest, -, htext, -⟩ | ⟨hc, hquote, -⟩
      · contradiction
      · exact .between hc hquote .nil
  | cons_cons c d text ih ihd =>
      rcases h.cases_cons hescape with ⟨d', rest, rfl, htext, hrest⟩ | ⟨hc, hquote, hrest⟩
      · obtain ⟨rfl, rfl⟩ := List.cons.inj htext
        exact .escape (ih hrest)
      · exact .between hc hquote (ihd d hrest)

theorem Enclosed.staysInside (hescape : quote ≠ '\\') (h : Enclosed quote text) :
    StaysInside quote text := by
  induction h with
  | nil => exact ⟨fun front hfront => by rw [List.prefix_nil.mp hfront]; rfl,
      quoteBehind_closing hescape []⟩
  | @escape d text _ ih =>
      refine ⟨fun front hfront => ?_, (quoteBehind_escape quote d _).trans ih.closes⟩
      match front with
      | [] => rfl
      | [c] =>
          rw [(List.cons_prefix_cons.mp hfront).1]
          rfl
      | c :: e :: front =>
          obtain ⟨rfl, hbehind⟩ := List.cons_prefix_cons.mp hfront
          rw [quoteBehind_escape]
          exact ih.stays front (List.cons_prefix_cons.mp hbehind).2
  | @between c text hc hquote _ ih =>
      refine ⟨fun front hfront => ?_, (quoteBehind_between hc hquote _).trans ih.closes⟩
      cases front with
      | nil => rfl
      | cons e front =>
          obtain ⟨rfl, hbehind⟩ := List.cons_prefix_cons.mp hfront
          rw [quoteBehind_between hc hquote]
          exact ih.stays front hbehind

/-- A text with neither backslashes nor quotes may stand between quotes. -/
theorem Enclosed.of_plain (hbackslash : '\\' ∉ text) (hquote : quote ∉ text) :
    Enclosed quote text := by
  induction text with
  | nil => exact .nil
  | cons c text ih =>
      simp only [List.mem_cons, not_or] at hbackslash hquote
      exact .between (Ne.symm hbackslash.1) (Ne.symm hquote.1) (ih hbackslash.2 hquote.2)

/-- **The quotes before a text stay open up to the quote behind it exactly when it is made of
escapes and of other characters.** -/
theorem staysInside_iff_enclosed (hescape : quote ≠ '\\') :
    StaysInside quote text ↔ Enclosed quote text :=
  ⟨StaysInside.enclosed hescape, Enclosed.staysInside hescape⟩

end Enclosed

/-! ## The two scanners -/

/-- Where no quote of a text closes, the quotes stay open behind it. -/
theorem untilQuote_append_of_none {quote before : Char} {text : List Char}
    (h : untilQuote? quote before text = none) (rest : List Char) :
    untilQuote? quote before (text ++ rest) =
      (untilQuote? quote (text.getLast?.getD before) rest).map fun cut =>
        (text ++ cut.1, cut.2) := by
  induction text generalizing before with
  | nil => exact Option.map_id'.symm
  | cons c text ih =>
      rw [untilQuote?] at h
      split at h
      · contradiction
      · next hopen =>
          have hlast : (c :: text).getLast?.getD before = text.getLast?.getD c := by
            rw [List.getLast?_cons, Option.getD_some]
          rw [List.cons_append, untilQuote?, if_neg hopen, ih (Option.map_eq_none_iff.mp h), hlast,
            Option.map_map]
          rfl

/-- A quote closes unless it stands directly behind a backslash. -/
theorem untilQuote_quote (quote before : Char) (rest : List Char) :
    untilQuote? quote before (quote :: rest) =
      if before = '\\' then (untilQuote? quote quote rest).map fun cut => (quote :: cut.1, cut.2)
      else some ([], rest) := by
  rw [untilQuote?]
  by_cases hbefore : before = '\\' <;> simp [hbefore]

section Scanners

variable {quote : Char} {payload : List Char} (hescape : quote ≠ '\\')
  (hpayload : Enclosed quote payload)
include hescape hpayload

/-- Between quotes no statement ends, and the quote behind a text between quotes closes them. -/
theorem pieces_enclosed (rest : List Char) :
    pieces (some quote) (payload ++ quote :: rest) =
      (payload ++ [quote]).foldr Text.consFirst (pieces none rest) := by
  induction hpayload with
  | nil =>
      rw [List.nil_append, pieces_closing hescape]
      rfl
  | escape _ ih =>
      rw [List.cons_append, List.cons_append, pieces, if_pos rfl, ih]
      rfl
  | between hc hquote _ ih =>
      rw [List.cons_append, pieces_between hc hquote, ih]
      rfl

/-- A text between quotes does not cut what stands behind the quotes. -/
theorem Enclosed.uncut {rest : List Char} (hrest : Uncut none rest) :
    Uncut (some quote) (payload ++ quote :: rest) := by
  induction hpayload with
  | nil => exact hrest.cons (pieces_closing hescape rest)
  | @escape d text _ ih => exact ih.escape d
  | between hc hquote _ ih => exact ih.between hc hquote

/-- No quote of a text between quotes closes: what is escaped stands behind a backslash. -/
theorem untilQuote_enclosed (before : Char) : untilQuote? quote before payload = none := by
  induction hpayload generalizing before with
  | nil => rfl
  | @escape d text _ ih =>
      have hfirst : ¬ ('\\' = quote ∧ before ≠ '\\') := fun hboth => hescape hboth.1.symm
      have hsecond : ¬ (d = quote ∧ '\\' ≠ '\\') := fun hboth => hboth.2 rfl
      rw [untilQuote?, if_neg hfirst, untilQuote?, if_neg hsecond, ih d]
      rfl
  | @between c text _ hquote _ ih =>
      have hfirst : ¬ (c = quote ∧ before ≠ '\\') := fun hboth => hquote hboth.1
      rw [untilQuote?, if_neg hfirst, ih c]
      rfl

end Scanners

/-! ## Comments -/

/-- A text is cut at the first place of a literal whose first letter is no other letter of it, so
that the literal cannot start in front of itself. -/
theorem cutAt_of_absent {letter : Char} {letters front : List Char} (hletter : letter ∉ letters)
    (hfront : ¬ letter :: letters <:+: front) (rest : List Char) :
    cutAt? (letter :: letters) (front ++ (letter :: letters ++ rest)) = some (front, rest) := by
  refine cutAt_of_first fun passed hne hsuffix hstarts => ?_
  rcases List.prefix_or_prefix_of_prefix hstarts (List.prefix_append passed _) with
    h | ⟨more, hmore⟩
  · exact hfront (h.isInfix.trans hsuffix.isInfix)
  · obtain ⟨first, passed, rfl⟩ := List.exists_cons_of_ne_nil hne
    obtain ⟨rfl, hletters⟩ := List.cons.inj hmore
    cases more with
    | nil =>
        rw [List.append_nil] at hmore
        exact hfront (hmore ▸ hsuffix.isInfix)
    | cons c more =>
        rw [← hmore, List.append_assoc, List.prefix_append_right_inj] at hstarts
        have hc := (List.cons_prefix_cons.mp hstarts).1
        rw [← hletters, hc] at hletter
        exact hletter (List.mem_append_right _ List.mem_cons_self)

section Clause

variable {before payload after : List Char}

/-- The payload behind a keyword ends at the quote behind a text in which no quote closes, unless
that text ends in a backslash. -/
theorem payload_of_none (h : untilQuote? '"' '"' payload = none) (after : List Char) :
    payload? (' ' :: '"' :: (payload ++ '"' :: after)) =
      if payload.getLast? = some '\\' then
        (untilQuote? '"' '"' after).map fun cut => (payload ++ '"' :: cut.1, cut.2)
      else some (payload, after) := by
  have hread := untilQuote_append_of_none h ('"' :: after)
  have hlast : payload.getLast?.getD '"' = '\\' ↔ payload.getLast? = some '\\' := by
    cases payload.getLast? <;> simp
  rw [untilQuote_quote] at hread
  refine Eq.trans hread ?_
  by_cases hends : payload.getLast? = some '\\'
  · rw [if_pos (hlast.mpr hends), if_pos hends, Option.map_map]
    rfl
  · rw [if_neg fun h => hends (hlast.mp h), if_neg hends, Option.map_some, List.append_nil]

variable (hbefore : ¬ "COMMENT".toList <:+: before) (hne : payload ≠ [])
  (hpayload : StaysInside '"' payload) (hafter : '"' ∉ after)

include hbefore in
theorem cutAt_commentClause_of_absent (payload after : List Char) :
    cutAt? "COMMENT".toList (before ++ (commentClause payload ++ after)) =
      some (before, ' ' :: '"' :: (payload ++ '"' :: after)) := by
  have hletter : 'C' ∉ "OMMENT".toList := by decide
  have htext : commentClause payload ++ after =
      "COMMENT".toList ++ ' ' :: '"' :: (payload ++ '"' :: after) := by
    unfold commentClause
    generalize "COMMENT".toList = keyword
    simp
  rw [htext]
  exact cutAt_of_absent hletter hbefore _

include hpayload hafter

/-- The payload behind a keyword is the text between the quotes, unless that ends in a backslash. -/
theorem payload_staysInside :
    payload? (' ' :: '"' :: (payload ++ '"' :: after)) =
      if payload.getLast? = some '\\' then none else some (payload, after) := by
  have hescape : '"' ≠ '\\' := by decide
  rw [payload_of_none (untilQuote_enclosed hescape (hpayload.enclosed hescape) '"'),
    untilQuote_eq_none hafter, Option.map_none]

include hbefore

theorem withoutComment_staysInside :
    withoutComment (before ++ (commentClause payload ++ after)) =
      if payload.getLast? = some '\\' then before else before ++ after := by
  unfold withoutComment
  rw [cutAt_commentClause_of_absent hbefore]
  dsimp only
  rw [payload_staysInside hpayload hafter]
  by_cases hends : payload.getLast? = some '\\' <;> simp [hends]

include hne

theorem comment_staysInside :
    comment? (before ++ (commentClause payload ++ after)) =
      if payload.getLast? = some '\\' then none else some payload := by
  unfold comment?
  rw [cutAt_commentClause_of_absent hbefore]
  dsimp only
  rw [payload_staysInside hpayload hafter]
  by_cases hends : payload.getLast? = some '\\' <;> simp [hends, hne]

/-- **The string of a comment clause ends for the comment where it ends for the statements, unless
a backslash is the last character of it.**  Such a string is never closed for the comment: no
comment is read, and nothing is left of the line from the keyword on. -/
theorem commentClause_ends_iff :
    (∀ rest, pieces (some '"') (payload ++ '"' :: rest) =
        (payload ++ ['"']).foldr Text.consFirst (pieces none rest)) ∧
      ((comment? (before ++ (commentClause payload ++ after)) = some payload ∧
          withoutComment (before ++ (commentClause payload ++ after)) = before ++ after) ↔
        payload.getLast? ≠ some '\\') ∧
      (payload.getLast? = some '\\' →
        comment? (before ++ (commentClause payload ++ after)) = none ∧
          withoutComment (before ++ (commentClause payload ++ after)) = before) := by
  have hescape : '"' ≠ '\\' := by decide
  rw [comment_staysInside hbefore hne hpayload hafter,
    withoutComment_staysInside hbefore hpayload hafter]
  refine ⟨pieces_enclosed hescape (hpayload.enclosed hescape), ?_, fun hends => ?_⟩
  · by_cases hends : payload.getLast? = some '\\' <;> simp [hends]
  · rw [if_pos hends, if_pos hends]
    exact ⟨rfl, rfl⟩

end Clause

/-- Escaped quotes in a comment are part of it for both. -/
theorem commentClause_ends_escapedQuotes :
    ¬ "COMMENT".toList <:+: "TYPE string ".toList ∧ "a \\\"b\\\" c".toList ≠ [] ∧
      StaysInside '"' "a \\\"b\\\" c".toList ∧ '"' ∉ [';'] ∧
      "a \\\"b\\\" c".toList.getLast? ≠ some '\\' ∧
      comment? ("TYPE string ".toList ++ (commentClause "a \\\"b\\\" c".toList ++ [';'])) =
        some "a \\\"b\\\" c".toList ∧
      withoutComment ("TYPE string ".toList ++ (commentClause "a \\\"b\\\" c".toList ++ [';'])) =
        "TYPE string ".toList ++ [';'] := by
  have hbefore : ¬ "COMMENT".toList <:+: "TYPE string ".toList := by decide
  have hne : "a \\\"b\\\" c".toList ≠ [] := by decide
  have hpayload : StaysInside '"' "a \\\"b\\\" c".toList := by decide +kernel
  have hafter : '"' ∉ [';'] := by decide
  have hlast : "a \\\"b\\\" c".toList.getLast? ≠ some '\\' := by decide
  obtain ⟨-, hagree, -⟩ := commentClause_ends_iff hbefore hne hpayload hafter
  exact ⟨hbefore, hne, hpayload, hafter, hlast, hagree.mpr hlast⟩

/-- A backslash that is escaped ends a string for the statements, but not for the comment. -/
theorem not_commentClause_ends_backslashes :
    StaysInside '"' "a\\\\".toList ∧
      pieces none (commentClause "a\\\\".toList ++ [';']) =
        [commentClause "a\\\\".toList ++ [';'], []] ∧
      ¬ (comment? (commentClause "a\\\\".toList ++ [';']) = some "a\\\\".toList ∧
        withoutComment (commentClause "a\\\\".toList ++ [';']) = [';']) := by
  decide

end Ddl
end SurrealSchema
