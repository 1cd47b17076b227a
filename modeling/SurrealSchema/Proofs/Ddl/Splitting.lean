import SurrealSchema.Proofs.Ddl.InlineComments
import SurrealSchema.Proofs.Ddl.Items

namespace SurrealSchema
namespace Ddl

/-!
# Cutting a line into statements

A line is cut behind every semicolon outside quotes and nowhere else.  What the cut leaves out are
blanks between the statements and a comment behind the last one, and only behind a statement that
is complete.  A statement is never cut again, and complete statements on one line are read like
complete statements on lines of their own.

The cut is described by `Cut`, which names the semicolons by the quotes before them; everything
about the statements follows from it by induction.
-/

/-! ## Semicolons outside quotes -/

/-- Whether no semicolon of a text stands outside quotes, if `quote` is open before the text. -/
def Unended (quote : Option Char) (text : List Char) : Prop :=
  ∀ front, front ++ [';'] <+: text → quoteBehind quote front ≠ none

-- A semicolon of the text has a beginning of the text before it.
instance (quote : Option Char) (text : List Char) : Decidable (Unended quote text) :=
  decidable_of_iff
    (∀ front ∈ text.inits, front ++ [';'] <+: text → quoteBehind quote front ≠ none)
    ⟨fun h front hfront =>
      h front ((List.mem_inits _ _).mpr ((List.prefix_append _ _).trans hfront)) hfront,
      fun h front _ hfront => h front hfront⟩

/-- Whether a text ends in a semicolon outside quotes and has no other one. -/
def EndsOnce (text : List Char) : Prop :=
  ∃ front, text = front ++ [';'] ∧ quoteBehind none front = none ∧ Unended none front

instance (text : List Char) : Decidable (EndsOnce text) :=
  decidable_of_iff (text = text.dropLast ++ [';'] ∧ quoteBehind none text.dropLast = none ∧
      Unended none text.dropLast) (by
    constructor
    · intro h
      exact ⟨_, h⟩
    · rintro ⟨front, rfl, hclosed, hfront⟩
      rw [List.dropLast_concat]
      exact ⟨rfl, hclosed, hfront⟩)

/-- A text has no semicolon outside quotes behind its start, if it has none at all. -/
theorem Unended.behind {quote quote' : Option Char} (start : List Char) {text : List Char}
    (h : Unended quote (start ++ text))
    (hstart : ∀ front, quoteBehind quote (start ++ front) = quoteBehind quote' front) :
    Unended quote' text := by
  intro front hfront
  rw [← hstart]
  apply h
  rw [List.append_assoc]
  exact (List.prefix_append_right_inj start).mpr hfront

/-- A text that starts outside quotes does not start with a semicolon, if none stands outside
quotes. -/
theorem Unended.ne_semicolon {c : Char} {text : List Char} (h : Unended none (c :: text)) :
    c ≠ ';' := by
  rintro rfl
  exact h [] (List.prefix_append [';'] text) rfl

section Steps

variable {quote c : Char} {text : List Char}

theorem Unended.of_opening (hquote : c = '"' ∨ c = '\'') (h : Unended none (c :: text)) :
    Unended (some c) text :=
  h.behind [c] fun _ => by rw [List.singleton_append, quoteBehind, if_pos hquote]

theorem Unended.of_outside (hquote : ¬ (c = '"' ∨ c = '\'')) (h : Unended none (c :: text)) :
    Unended none text :=
  h.behind [c] fun _ => by rw [List.singleton_append, quoteBehind, if_neg hquote]

theorem Unended.of_escape {d : Char} (h : Unended (some quote) ('\\' :: d :: text)) :
    Unended (some quote) text :=
  h.behind ['\\', d] fun _ => by
    rw [List.cons_append, List.singleton_append, quoteBehind, if_pos rfl]

theorem Unended.of_closing (hescape : quote ≠ '\\') (h : Unended (some quote) (quote :: text)) :
    Unended none text :=
  h.behind [quote] fun _ => by
    rw [List.singleton_append, quoteBehind.eq_def]
    simp only [if_neg hescape, if_pos]

theorem Unended.of_between (hescape : c ≠ '\\') (hquote : c ≠ quote)
    (h : Unended (some quote) (c :: text)) : Unended (some quote) text :=
  h.behind [c] fun _ => by
    rw [List.singleton_append, quoteBehind.eq_def]
    simp only [if_neg hescape, if_neg hquote]

theorem pieces_closing (hescape : quote ≠ '\\') (text : List Char) :
    pieces (some quote) (quote :: text) = Text.consFirst quote (pieces none text) := by
  rw [pieces.eq_def]
  simp only [if_neg hescape, if_pos]

theorem pieces_between (hescape : c ≠ '\\') (hquote : c ≠ quote) (text : List Char) :
    pieces (some quote) (c :: text) = Text.consFirst c (pieces (some quote) text) := by
  rw [pieces.eq_def]
  simp only [if_neg hescape, if_neg hquote]

end Steps

/-! ## Pieces of a text -/

/-- **A text is cut behind its first semicolon outside quotes.** -/
theorem pieces_append_semicolon {quote : Option Char} {front : List Char}
    (hclosed : quoteBehind quote front = none) (h : Unended quote front) (rest : List Char) :
    pieces quote (front ++ ';' :: rest) = (front ++ [';']) :: pieces none rest := by
  fun_induction quoteBehind quote front with
  | case1 quote =>
      rw [hclosed, List.nil_append, pieces, if_pos rfl]
      rfl
  | case2 c front hquote ih =>
      rw [List.cons_append, pieces, if_neg h.ne_semicolon, if_pos hquote,
        ih hclosed (h.of_opening hquote)]
      rfl
  | case3 c front hquote ih =>
      rw [List.cons_append, pieces, if_neg h.ne_semicolon, if_neg hquote,
        ih hclosed (h.of_outside hquote)]
      rfl
  | case4 => contradiction
  | case5 quote d front ih =>
      rw [List.cons_append, List.cons_append, pieces, if_pos rfl, ih hclosed h.of_escape]
      rfl
  | case6 quote front hescape ih =>
      rw [List.cons_append, pieces_closing hescape, ih hclosed (h.of_closing hescape)]
      rfl
  | case7 quote c front hescape hquote ih =>
      rw [List.cons_append, pieces_between hescape hquote,
        ih hclosed (h.of_between hescape hquote)]
      rfl

/-- A text without semicolons outside quotes is not cut. -/
theorem pieces_of_unended {quote : Option Char} {text : List Char} (h : Unended quote text) :
    pieces quote text = [text] := by
  fun_induction pieces quote text with
  | case1 => rfl
  | case2 text => exact absurd rfl h.ne_semicolon
  | case3 c text _ hquote ih =>
      rw [ih (h.of_opening hquote)]
      rfl
  | case4 c text _ hquote ih =>
      rw [ih (h.of_outside hquote)]
      rfl
  | case5 => rfl
  | case6 quote d text ih =>
      rw [ih h.of_escape]
      rfl
  | case7 quote text hescape ih =>
      rw [ih (h.of_closing hescape)]
      rfl
  | case8 quote c text hescape hquote ih =>
      rw [ih (h.of_between hescape hquote)]
      rfl

/-- A semicolon outside quotes has a first one before it, or is the first itself. -/
theorem exists_unended_front {text front : List Char} (hfront : front ++ [';'] <+: text)
    (hclosed : quoteBehind none front = none) :
    ∃ first, first ++ [';'] <+: text ∧ quoteBehind none first = none ∧ Unended none first := by
  by_cases h : Unended none front
  · exact ⟨front, hfront, hclosed, h⟩
  · simp only [Unended, not_forall, not_not] at h
    obtain ⟨shorter, hshorter, hclosed'⟩ := h
    have hlength : shorter.length < front.length := by
      have hle := hshorter.length_le
      rw [List.length_append, List.length_singleton] at hle
      omega
    exact exists_unended_front (hshorter.trans ((List.prefix_append front _).trans hfront)) hclosed'
termination_by front.length

/-- How a text is cut behind its semicolons outside quotes. -/
inductive Cut : List Char → List (List Char) → Prop
  | last {text : List Char} (h : Unended none text) : Cut text [text]
  | semicolon {front rest : List Char} {others : List (List Char)}
      (hclosed : quoteBehind none front = none) (hfront : Unended none front)
      (h : Cut rest others) : Cut (front ++ ';' :: rest) ((front ++ [';']) :: others)

/-- The pieces of a text are cut that way. -/
theorem cut_pieces (text : List Char) : Cut text (pieces none text) := by
  by_cases h : Unended none text
  · rw [pieces_of_unended h]
    exact .last h
  · simp only [Unended, not_forall, not_not] at h
    obtain ⟨front, hprefix, hclosed⟩ := h
    obtain ⟨first, ⟨rest, rfl⟩, hclosed', hfirst⟩ := exists_unended_front hprefix hclosed
    rw [List.append_assoc, List.singleton_append, pieces_append_semicolon hclosed' hfirst]
    exact .semicolon hclosed' hfirst (cut_pieces rest)
termination_by text.length

/-! ## Statements of pieces -/

/-- The statements that some pieces hold, up to a comment and without the blanks around them. -/
def statementsOf (pieces : List (List Char)) : List (List Char) :=
  ((pieces.takeWhile fun piece => !startsComment (Text.trimStart piece)).map Text.trim).filter
    fun statement => !statement.isEmpty

theorem statementsOf_of_comment {piece : List Char}
    (h : startsComment (Text.trimStart piece) = true) (others : List (List Char)) :
    statementsOf (piece :: others) = [] := by
  rw [statementsOf, List.takeWhile_cons_of_neg (by simp [h])]
  rfl

theorem statementsOf_cons {piece : List Char}
    (h : startsComment (Text.trimStart piece) = false) (others : List (List Char)) :
    statementsOf (piece :: others) =
      if (Text.trim piece).isEmpty then statementsOf others
      else Text.trim piece :: statementsOf others := by
  rw [statementsOf, List.takeWhile_cons_of_pos (by simp [h]), List.map_cons, List.filter_cons]
  cases (Text.trim piece).isEmpty <;> rfl

/-- The statements of a line that is neither blank nor a comment are those of its pieces. -/
theorem statements_eq {line : List Char} (hne : Text.trim line ≠ [])
    (hcomment : startsComment (Text.trim line) = false) :
    statements line = statementsOf (pieces none (Text.trim line)) := by
  obtain ⟨first, others, hcut⟩ := List.exists_cons_of_ne_nil (pieces_ne_nil none (Text.trim line))
  have hflat := flatten_pieces none (Text.trim line)
  rw [hcut, List.flatten_cons] at hflat
  -- The first piece starts as the line does, so it is no comment.
  have hstart : Text.trimStart first = first := by
    apply Text.trimStart_eq_self
    intro c hc
    apply (Text.trimmed_trim line).1
    rw [← hflat, List.head?_append, hc]
    rfl
  have hread : startsComment (Text.trimStart first) = false := by
    rw [hstart, Bool.eq_false_iff]
    intro hstarts
    have hprefix := ((startsComment_iff _).mp hstarts).trans (List.prefix_append _ others.flatten)
    rw [hflat, ← startsComment_iff, hcomment] at hprefix
    contradiction
  rw [statements_of_pieces hne hcomment (hcut : _ = [first] ++ others) (List.cons_ne_nil _ _)
    (List.forall_mem_singleton.mpr hread), hcut, statementsOf,
    List.takeWhile_cons_of_pos (by simp [hread])]
  rfl

/-- A statement that is complete or has no end is a line by itself. -/
theorem statements_eq_self {text : List Char} (hne : text ≠ []) (htrimmed : Text.Trimmed text)
    (hcomment : startsComment text = false) (h : EndsOnce text ∨ Unended none text) :
    statements text = [text] := by
  apply statements_of_uncut hne htrimmed hcomment
  rcases h with ⟨front, rfl, hclosed, hfront⟩ | h
  · exact Or.inr (pieces_append_semicolon hclosed hfront [])
  · exact Or.inl (pieces_of_unended h)

/-! ## Blanks at the front of a piece -/

/-- Blanks open no quotes. -/
theorem quoteBehind_blanks {blanks : List Char} (hblanks : ∀ c ∈ blanks, Text.isBlank c = true)
    (text : List Char) : quoteBehind none (blanks ++ text) = quoteBehind none text := by
  induction blanks with
  | nil => rfl
  | cons c blanks ih =>
      have hc := hblanks c List.mem_cons_self
      have hquote : ¬ (c = '"' ∨ c = '\'') := by
        rintro (rfl | rfl) <;> exact absurd hc (by decide)
      rw [List.cons_append, quoteBehind, if_neg hquote,
        ih fun d hd => hblanks d (List.mem_cons_of_mem _ hd)]

theorem exists_blanks (text : List Char) :
    ∃ blanks, (∀ c ∈ blanks, Text.isBlank c = true) ∧ text = blanks ++ Text.trimStart text :=
  ⟨_, fun _ hc => List.mem_takeWhile_imp hc, List.takeWhile_append_dropWhile.symm⟩

theorem Unended.trimStart {text : List Char} (h : Unended none text) :
    Unended none (Text.trimStart text) := by
  obtain ⟨blanks, hblanks, htext⟩ := exists_blanks text
  rw [htext] at h
  exact h.behind blanks (quoteBehind_blanks hblanks)

theorem EndsOnce.trimStart {text : List Char} (h : EndsOnce text) :
    EndsOnce (Text.trimStart text) := by
  obtain ⟨front, rfl, hclosed, hfront⟩ := h
  refine ⟨Text.trimStart front, Text.dropWhile_blanks_append (Text.halts_cons (by decide) _) front,
    ?_, hfront.trimStart⟩
  obtain ⟨blanks, hblanks, htext⟩ := exists_blanks front
  rw [htext, quoteBehind_blanks hblanks] at hclosed
  exact hclosed

/-- A text that does not end in a blank has blanks at its front only. -/
theorem trim_eq_trimStart {text : List Char}
    (h : ∀ c, text.getLast? = some c → Text.isBlank c = false) :
    Text.trim text = Text.trimStart text := by
  apply Text.dropTrailing_eq_self
  intro c hc
  obtain ⟨blanks, -, htext⟩ := exists_blanks text
  apply h
  rw [htext, List.getLast?_append, hc]
  rfl

theorem EndsOnce.ne_nil {text : List Char} (h : EndsOnce text) : text ≠ [] := by
  obtain ⟨front, rfl, -⟩ := h
  exact List.append_ne_nil_of_right_ne_nil _ (List.cons_ne_nil _ _)

theorem EndsOnce.getLast {text : List Char} (h : EndsOnce text) : text.getLast? = some ';' := by
  obtain ⟨front, rfl, -⟩ := h
  exact List.getLast?_concat

theorem EndsOnce.trim {text : List Char} (h : EndsOnce text) :
    Text.trim text = Text.trimStart text := by
  apply trim_eq_trimStart
  intro c hc
  rw [h.getLast] at hc
  rw [← Option.some.inj hc]
  decide

/-! ## What a cut keeps -/

/-- Whether a text is made up of statements with blanks behind them, up to a comment that may only
follow complete statements. -/
def Covers (text : List Char) (statements : List (List Char)) : Prop :=
  ∃ gaps tail, gaps.length = statements.length ∧
    (∀ gap ∈ gaps, ∀ c ∈ gap, Text.isBlank c = true) ∧
    text = (List.zipWith (· ++ ·) statements gaps).flatten ++ tail ∧
    (tail = [] ∨ startsComment tail = true ∧ ∀ statement ∈ statements, EndsOnce statement)

theorem covers_nil : Covers [] [] :=
  ⟨[], [], rfl, fun _ hgap => absurd hgap List.not_mem_nil, rfl, Or.inl rfl⟩

theorem covers_of_comment {text : List Char} (h : startsComment text = true) : Covers text [] :=
  ⟨[], text, rfl, fun _ hgap => absurd hgap List.not_mem_nil, rfl,
    Or.inr ⟨h, fun _ hstatement => absurd hstatement List.not_mem_nil⟩⟩

theorem covers_singleton (text : List Char) : Covers text [text] := by
  refine ⟨[[]], [], rfl, ?_, ?_, Or.inl rfl⟩
  · intro gap hgap c hc
    rw [List.mem_singleton.mp hgap] at hc
    exact absurd hc List.not_mem_nil
  · simp only [List.zipWith_cons_cons, List.zipWith_nil_left, List.flatten_cons, List.flatten_nil,
      List.append_nil]

theorem Covers.cons {statement gap text : List Char} {statements : List (List Char)}
    (hstatement : EndsOnce statement) (hgap : ∀ c ∈ gap, Text.isBlank c = true)
    (h : Covers text statements) :
    Covers (statement ++ (gap ++ text)) (statement :: statements) := by
  obtain ⟨gaps, tail, hlength, hgaps, rfl, htail⟩ := h
  refine ⟨gap :: gaps, tail, ?_, List.forall_mem_cons.mpr ⟨hgap, hgaps⟩, ?_, ?_⟩
  · rw [List.length_cons, List.length_cons, hlength]
  · rw [List.zipWith_cons_cons, List.flatten_cons, List.append_assoc, List.append_assoc]
  · exact htail.imp_right fun ⟨hcomment, hall⟩ =>
      ⟨hcomment, List.forall_mem_cons.mpr ⟨hstatement, hall⟩⟩

theorem startsComment_append {text : List Char} (h : startsComment text = true)
    (more : List Char) : startsComment (text ++ more) = true :=
  (startsComment_iff _).mpr (((startsComment_iff _).mp h).trans (List.prefix_append text more))

/-- What is left of a text that ends in no blank ends in no blank. -/
theorem getLast?_of_append (front : List Char) {rest : List Char}
    (h : ∀ c, (front ++ rest).getLast? = some c → Text.isBlank c = false) :
    ∀ c, rest.getLast? = some c → Text.isBlank c = false := by
  intro c hc
  apply h
  rw [List.getLast?_append, hc]
  rfl

/-- The first piece without the blanks at its front, and the rest of the text behind it. -/
theorem trimStart_append_semicolon (front rest : List Char) :
    Text.trimStart (front ++ ';' :: rest) = Text.trimStart (front ++ [';']) ++ rest := by
  rw [Text.trimStart, Text.trimStart,
    Text.dropWhile_blanks_append (Text.halts_cons (by decide) _) front,
    Text.dropWhile_blanks_append (Text.halts_cons (by decide) _) front, List.append_assoc,
    List.singleton_append]

/-- **Nothing but blanks and the comment at the end is lost when a text is cut.** -/
theorem Cut.covers {text : List Char} {pieces : List (List Char)} (h : Cut text pieces)
    (hlast : ∀ c, text.getLast? = some c → Text.isBlank c = false) :
    Covers (Text.trimStart text) (statementsOf pieces) := by
  induction h with
  | @last text hopen =>
      cases hcomment : startsComment (Text.trimStart text) with
      | true =>
          rw [statementsOf_of_comment hcomment]
          exact covers_of_comment hcomment
      | false =>
          rw [statementsOf_cons hcomment, trim_eq_trimStart hlast]
          split
          · next hempty =>
              rw [List.isEmpty_iff.mp hempty]
              exact covers_nil
          · exact covers_singleton _
  | @semicolon front rest others hclosed hfront _ ih =>
      have hends : EndsOnce (front ++ [';']) := ⟨front, rfl, hclosed, hfront⟩
      rw [trimStart_append_semicolon]
      cases hcomment : startsComment (Text.trimStart (front ++ [';'])) with
      | true =>
          rw [statementsOf_of_comment hcomment]
          exact covers_of_comment (startsComment_append hcomment rest)
      | false =>
          have hne := hends.trimStart.ne_nil
          rw [statementsOf_cons hcomment, hends.trim, if_neg (by simpa using hne)]
          obtain ⟨blanks, hblanks, hrest⟩ := exists_blanks rest
          have hcovers := (ih (getLast?_of_append (front ++ [';'])
            (by simpa using hlast))).cons hends.trimStart hblanks
          rw [← hrest] at hcovers
          exact hcovers

/-! ## The statements of a cut -/

/-- The statements of a cut are complete up to the last one, which may have no end. -/
theorem Cut.ended {text : List Char} {pieces : List (List Char)} (h : Cut text pieces)
    (hlast : ∀ c, text.getLast? = some c → Text.isBlank c = false) :
    (∀ statement ∈ (statementsOf pieces).dropLast, EndsOnce statement) ∧
      ∀ statement ∈ statementsOf pieces, EndsOnce statement ∨ Unended none statement := by
  induction h with
  | @last text hopen =>
      cases hcomment : startsComment (Text.trimStart text) with
      | true => simp [statementsOf_of_comment hcomment]
      | false =>
          rw [statementsOf_cons hcomment, trim_eq_trimStart hlast]
          split
          · simp [statementsOf]
          · exact ⟨by simp [statementsOf], List.forall_mem_singleton.mpr (Or.inr hopen.trimStart)⟩
  | @semicolon front rest others hclosed hfront _ ih =>
      have hends : EndsOnce (front ++ [';']) := ⟨front, rfl, hclosed, hfront⟩
      cases hcomment : startsComment (Text.trimStart (front ++ [';'])) with
      | true => simp [statementsOf_of_comment hcomment]
      | false =>
          have hne := hends.trimStart.ne_nil
          obtain ⟨hcomplete, hall⟩ :=
            ih (getLast?_of_append (front ++ [';']) (by simpa using hlast))
          rw [statementsOf_cons hcomment, hends.trim, if_neg (by simpa using hne)]
          refine ⟨?_, List.forall_mem_cons.mpr ⟨Or.inl hends.trimStart, hall⟩⟩
          cases hothers : statementsOf others with
          | nil => simp
          | cons second more =>
              rw [List.dropLast_cons_cons]
              rw [hothers] at hcomplete
              exact List.forall_mem_cons.mpr ⟨hends.trimStart, hcomplete⟩

/-- The statements of pieces have no blanks around them, are not empty and are no comments. -/
theorem plain_of_mem_statementsOf {pieces : List (List Char)} {statement : List Char}
    (h : statement ∈ statementsOf pieces) :
    statement ≠ [] ∧ Text.Trimmed statement ∧ startsComment statement = false := by
  obtain ⟨hmem, hne⟩ := List.mem_filter.mp h
  obtain ⟨piece, hpiece, rfl⟩ := List.mem_map.mp hmem
  refine ⟨by simpa using hne, Text.trimmed_trim piece, ?_⟩
  have hcomment := List.mem_takeWhile_imp hpiece
  rw [Bool.not_eq_true', Bool.eq_false_iff] at hcomment
  rw [Bool.eq_false_iff]
  intro hstarts
  -- The text without the blanks at its end starts the text that has them.
  obtain ⟨blanks, hblanks, -⟩ := Text.dropTrailing_append Text.isBlank (Text.trimStart piece)
  have hprefix : Text.trim piece <+: Text.trimStart piece := ⟨blanks, hblanks.symm⟩
  exact hcomment ((startsComment_iff _).mpr (((startsComment_iff _).mp hstarts).trans hprefix))

/-- What the statements of a line are. -/
structure IsSplit (line : List Char) (parts : List (List Char)) : Prop where
  covers : Covers (Text.trim line) parts
  ne_nil : parts ≠ []
  ended : ∀ part ∈ parts.dropLast, EndsOnce part
  last : ∀ part ∈ parts, EndsOnce part ∨ Unended none part
  whole : ∀ part ∈ parts, statements part = [part]

/-- **A line is cut losslessly, exactly behind its semicolons outside quotes, and once for all.** -/
theorem isSplit_statements {line : List Char} (hne : Text.trim line ≠ [])
    (hcomment : startsComment (Text.trim line) = false) : IsSplit line (statements line) := by
  have hcut := cut_pieces (Text.trim line)
  have htrimmed := Text.trimmed_trim line
  rw [statements_eq hne hcomment]
  have hcovers := hcut.covers htrimmed.2
  rw [Text.trimStart_eq_self htrimmed.1] at hcovers
  obtain ⟨hended, hall⟩ := hcut.ended htrimmed.2
  refine ⟨hcovers, ?_, hended, hall, ?_⟩
  · intro hnil
    rw [hnil] at hcovers
    obtain ⟨gaps, tail, -, -, htext, rfl | ⟨htail, -⟩⟩ := hcovers
    · exact hne htext
    · rw [htext, List.zipWith_nil_left, List.flatten_nil, List.nil_append, htail] at hcomment
      contradiction
  · intro part hpart
    obtain ⟨hpartne, hparttrimmed, hpartcomment⟩ := plain_of_mem_statementsOf hpart
    exact statements_eq_self hpartne hparttrimmed hpartcomment (hall part hpart)

/-! ## Statements joined by spaces -/

/-- Whether a text is a complete statement without blanks around it. -/
structure IsWhole (text : List Char) : Prop where
  trimmed : Text.Trimmed text
  not_comment : startsComment text = false
  ends : EndsOnce text

instance (text : List Char) : Decidable (IsWhole text) :=
  decidable_of_iff (Text.trim text = text ∧ startsComment text = false ∧ EndsOnce text) (by
    constructor
    · rintro ⟨htrim, hcomment, hends⟩
      exact ⟨htrim ▸ Text.trimmed_trim text, hcomment, hends⟩
    · intro h
      exact ⟨Text.trim_eq_self h.trimmed, h.not_comment, h.ends⟩)

namespace IsWhole

variable {first : List Char} {others : List (List Char)}

theorem pieces_append {text : List Char} (h : IsWhole text) (rest : List Char) :
    pieces none (text ++ rest) = text :: pieces none rest := by
  obtain ⟨front, rfl, hclosed, hfront⟩ := h.ends
  rw [List.append_assoc, List.singleton_append, pieces_append_semicolon hclosed hfront]

/-- Complete statements with a space before each are cut in front of the spaces. -/
theorem pieces_spaced (h : ∀ text ∈ others, IsWhole text) :
    pieces none (others.flatMap fun other => [' '] ++ other) =
      others.map (' ' :: ·) ++ [[]] := by
  induction others with
  | nil => rfl
  | cons next others ih =>
      obtain ⟨hnext, hothers⟩ := List.forall_mem_cons.mp h
      have hblank : ∀ c ∈ [' '], Text.isBlank c = true :=
        List.forall_mem_singleton.mpr (by decide)
      rw [List.flatMap_cons, List.append_assoc,
        pieces_blanks_append hblank (hnext.pieces_append _), ih hothers]
      rfl

theorem statementsOf_spaced (h : ∀ text ∈ others, IsWhole text) :
    statementsOf (others.map (' ' :: ·) ++ [[]]) = others := by
  induction others with
  | nil => rfl
  | cons next others ih =>
      obtain ⟨hnext, hothers⟩ := List.forall_mem_cons.mp h
      have hstart : Text.trimStart (' ' :: next) = next := Text.trimStart_eq_self hnext.trimmed.1
      have htrim : Text.trim (' ' :: next) = next := Text.trim_eq_self hnext.trimmed
      have hne := hnext.ends.ne_nil
      have hcomment : startsComment (Text.trimStart (' ' :: next)) = false := by
        rw [hstart]
        exact hnext.not_comment
      rw [List.map_cons, List.cons_append, statementsOf_cons hcomment, htrim,
        if_neg (by simpa using hne), ih hothers]

theorem getLast?_spaced (hfirst : IsWhole first) (h : ∀ text ∈ others, IsWhole text) :
    (first ++ others.flatMap fun other => [' '] ++ other).getLast? = some ';' := by
  induction others generalizing first with
  | nil => rw [List.flatMap_nil, List.append_nil, hfirst.ends.getLast]
  | cons next others ih =>
      obtain ⟨hnext, hothers⟩ := List.forall_mem_cons.mp h
      rw [List.flatMap_cons, List.append_assoc, ← List.append_assoc, List.getLast?_append,
        ih hnext hothers]
      rfl

theorem trimmed_spaced (hfirst : IsWhole first) (h : ∀ text ∈ others, IsWhole text) :
    Text.Trimmed (first ++ others.flatMap fun other => [' '] ++ other) := by
  constructor
  · intro c hc
    rw [List.head?_append_of_ne_nil _ hfirst.ends.ne_nil] at hc
    exact hfirst.trimmed.1 c hc
  · intro c hc
    rw [getLast?_spaced hfirst h] at hc
    rw [← Option.some.inj hc]
    decide

theorem not_comment_spaced (hfirst : IsWhole first) :
    startsComment (first ++ others.flatMap fun other => [' '] ++ other) = false := by
  cases others with
  | nil => rw [List.flatMap_nil, List.append_nil, hfirst.not_comment]
  | cons next others =>
      rw [List.flatMap_cons, List.singleton_append, List.cons_append,
        startsComment_append_blank hfirst.ends.ne_nil (by decide), hfirst.not_comment]

end IsWhole

/-- **Complete statements joined by spaces are cut into the statements again.** -/
theorem statements_intercalate {list : List (List Char)} (hne : list ≠ [])
    (h : ∀ text ∈ list, IsWhole text) : statements ([' '].intercalate list) = list := by
  obtain ⟨first, others, rfl⟩ := List.exists_cons_of_ne_nil hne
  obtain ⟨hfirst, hothers⟩ := List.forall_mem_cons.mp h
  have htrim := Text.trim_eq_self (hfirst.trimmed_spaced hothers)
  rw [Text.intercalate_cons, statements_eq, htrim, hfirst.pieces_append,
    IsWhole.pieces_spaced hothers, statementsOf_cons, Text.trim_eq_self hfirst.trimmed,
    IsWhole.statementsOf_spaced hothers, if_neg]
  · simpa using hfirst.ends.ne_nil
  · rw [Text.trimStart_eq_self hfirst.trimmed.1]
    exact hfirst.not_comment
  · rw [htrim]
    exact List.append_ne_nil_of_left_ne_nil hfirst.ends.ne_nil _
  · rw [htrim]
    exact hfirst.not_comment_spaced

theorem unbroken_intercalate {list : List (List Char)} (h : ∀ text ∈ list, Text.Unbroken text) :
    Text.Unbroken ([' '].intercalate list) := by
  have hspace : Text.Unbroken [' '] := by decide
  cases list with
  | nil => exact fun c hc => absurd hc List.not_mem_nil
  | cons first others =>
      obtain ⟨hfirst, hothers⟩ := List.forall_mem_cons.mp h
      rw [Text.intercalate_cons]
      refine hfirst.append fun c hc => ?_
      obtain ⟨other, hother, hc⟩ := List.mem_flatMap.mp hc
      exact (hspace.append (hothers other hother)) c hc

/-- Complete statements on one line are read like complete statements on lines of their own. -/
theorem parse_intercalate_space {list : List (List Char)} (hne : list ≠ [])
    (h : ∀ text ∈ list, IsWhole text) (hunbroken : ∀ text ∈ list, Text.Unbroken text) :
    parse (String.ofList ([' '].intercalate list)) =
      parse (String.ofList (['\n'].intercalate list)) := by
  have hitem : ∀ text ∈ list, itemStatements text = [text] := by
    intro text htext
    have hwhole := h text htext
    rw [itemStatements, Text.itemLines_of_unbroken (hunbroken text htext), List.flatMap_singleton]
    exact statements_eq_self hwhole.ends.ne_nil hwhole.trimmed hwhole.not_comment
      (Or.inl hwhole.ends)
  have hread : list.flatMap itemStatements = list := by
    rw [List.flatMap_congr hitem, List.flatMap_singleton']
  have hline : Text.Unbroken ([' '].intercalate list) := unbroken_intercalate hunbroken
  have hfilled : [' '].intercalate list ≠ [] := by
    intro hnil
    have hstatements := statements_intercalate hne h
    rw [hnil] at hstatements
    have hempty : [] ∈ list := by
      rw [← hstatements]
      exact List.mem_singleton.mpr rfl
    exact (h [] hempty).ends.ne_nil rfl
  rw [parse_intercalate fun text htext => (hunbroken text htext).endsInLine, State.read, hread,
    parse, logicalLines, String.toList_ofList, Text.lines_of_unbroken hfilled hline,
    List.flatMap_singleton, statements_intercalate hne h]

/-- **A line is cut losslessly and exactly at the ends of its statements, and joining complete
statements by spaces is undone by the cut**: such statements are read alike on one line and on a
line each. -/
theorem statements_split :
    (∀ line, Text.trim line ≠ [] → startsComment (Text.trim line) = false →
      IsSplit line (statements line)) ∧
    ∀ list : List (List Char), list ≠ [] → (∀ text ∈ list, IsWhole text) →
      statements ([' '].intercalate list) = list ∧
        ((∀ text ∈ list, Text.Unbroken text) →
          parse (String.ofList ([' '].intercalate list)) =
            parse (String.ofList (['\n'].intercalate list))) :=
  ⟨fun _ => isSplit_statements, fun _ hne h =>
    ⟨statements_intercalate hne h, parse_intercalate_space hne h⟩⟩

/-- Semicolons in quotes cut nothing, and the comment behind the last statement is left out. -/
theorem statements_split_quoted :
    IsSplit " DEFINE FIELD a ON t DEFAULT ';\\'';  DEFINE FIELD b ON t; -- c; d".toList
      ["DEFINE FIELD a ON t DEFAULT ';\\'';".toList, "DEFINE FIELD b ON t;".toList] ∧
    parse (String.ofList ([' '].intercalate ["DEFINE TABLE t;".toList, "INFO ';';".toList])) =
      parse (String.ofList (['\n'].intercalate ["DEFINE TABLE t;".toList, "INFO ';';".toList])) := by
  have hline := statements_split.1
    " DEFINE FIELD a ON t DEFAULT ';\\'';  DEFINE FIELD b ON t; -- c; d".toList
    (by decide +kernel) (by decide +kernel)
  have hparts : statements
      " DEFINE FIELD a ON t DEFAULT ';\\'';  DEFINE FIELD b ON t; -- c; d".toList =
        ["DEFINE FIELD a ON t DEFAULT ';\\'';".toList, "DEFINE FIELD b ON t;".toList] := by
    decide +kernel
  rw [hparts] at hline
  obtain ⟨-, hparse⟩ := statements_split.2 ["DEFINE TABLE t;".toList, "INFO ';';".toList]
    (List.cons_ne_nil _ _) (by decide +kernel)
  exact ⟨hline, hparse (by decide +kernel)⟩

end Ddl
end SurrealSchema
