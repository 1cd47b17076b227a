import SurrealSchema.Proofs.Ddl.Composition
import SurrealSchema.Proofs.Ddl.Heads

namespace SurrealSchema

/-!
# Comments behind statements

A comment behind a statement on one line.  Where the line ends its statement, the comment is the
beginning of a further piece of the line, and the reading of the line stops there: the document is
read as it is without the comment.  Where the line leaves its statement open, the comment is part of
the last piece, and a semicolon in it ends the statement, so that whatever follows is read as
further statements.
-/

/-! ## Lines of a document -/

namespace Text

-- Only the characters of the text are looked at, not all characters there are.
instance (text : List Char) : Decidable (Unbroken text) :=
  decidable_of_iff (text.all (fun c => !isLineBreak c) = true) (by simp [Unbroken])

theorem Unbroken.append {text more : List Char} (h : Unbroken text) (hmore : Unbroken more) :
    Unbroken (text ++ more) := by
  intro c hc
  rcases List.mem_append.mp hc with hc | hc
  · exact h c hc
  · exact hmore c hc

/-- Where a text ends with a break, what follows starts a new line, unless it makes one break with
the last character of the text. -/
theorem lines_append_of_ended {before rest : List Char}
    (hbefore : before.getLast?.all isLineBreak = true)
    (hrest : before.getLast? = some '\r' → rest.head? ≠ some '\n') :
    lines (before ++ rest) = lines before ++ lines rest := by
  have htail : ∀ {c : Char} {text : List Char}, (c :: text).getLast?.all isLineBreak = true →
      text.getLast?.all isLineBreak = true := by
    intro c text h
    cases text with
    | nil => rfl
    | cons d text =>
        rw [List.getLast?_cons_cons] at h
        exact h
  have hnext : ∀ {c : Char} {text : List Char},
      ((c :: text).getLast? = some '\r' → rest.head? ≠ some '\n') →
        text.getLast? = some '\r' → rest.head? ≠ some '\n' := by
    intro c text h hlast
    apply h
    rw [List.getLast?_cons, hlast]
    rfl
  fun_induction lines before with
  | case1 => rfl
  | case2 text ih =>
      have hstep : lines ('\r' :: '\n' :: (text ++ rest)) = [] :: lines (text ++ rest) := by
        rw [lines]
      rw [List.cons_append, List.cons_append, hstep, ih (htail (htail hbefore)) (hnext (hnext hrest))]
      rfl
  | case3 c text hhalf hbreak ih =>
      have hhead : c = '\r' → (text ++ rest).head? ≠ some '\n' := by
        intro hc
        cases text with
        | nil => exact hrest (by rw [hc]; rfl)
        | cons d more =>
            intro hd
            exact hhalf more hc (by rw [Option.some.inj hd])
      rw [List.cons_append, lines_cons_of_break hbreak hhead, ih (htail hbefore) (hnext hrest)]
      rfl
  | case4 c text hhalf hbreak ih =>
      have hc : isLineBreak c = false := by simpa using hbreak
      rw [List.cons_append, lines_cons_of_not_break hc, ih (htail hbefore) (hnext hrest)]
      cases text with
      | nil =>
          have hlast : isLineBreak c = true := hbefore
          rw [hc] at hlast
          contradiction
      | cons d text =>
          cases hlines : lines (d :: text) with
          | nil => exact absurd hlines (lines_ne_nil (List.cons_ne_nil _ _))
          | cons line more => rfl

/-- A text without breaks is the first line of what it stands in front of, if a break follows. -/
theorem lines_unbroken_append {line after : List Char} (hne : line ≠ []) (h : Unbroken line)
    (hafter : after.head?.all isLineBreak = true) :
    lines (line ++ after) = line :: (lines after).tail := by
  induction line with
  | nil => contradiction
  | cons c line ih =>
      rw [List.cons_append, lines_cons_of_not_break (h c List.mem_cons_self)]
      cases line with
      | nil =>
          rw [List.nil_append]
          rw [lines.eq_def]
          split
          · rfl
          · rfl
          · next d rest _ =>
              have hd : isLineBreak d = true := hafter
              rw [if_pos hd]
              rfl
      | cons d line =>
          rw [ih (List.cons_ne_nil _ _) fun e he => h e (List.mem_cons_of_mem _ he)]
          rfl

/-- Whether a text is one line of a document, between what stands before and behind it. -/
structure IsLineBetween (before line after : List Char) : Prop where
  unbroken : Unbroken line
  before_ended : before.getLast?.all isLineBreak = true
  after_breaks : after.head?.all isLineBreak = true

theorem IsLineBetween.lines_eq {before line after : List Char} (h : IsLineBetween before line after)
    (hne : line ≠ []) :
    lines (before ++ line ++ after) = lines before ++ line :: (lines after).tail := by
  have hhead : (line ++ after).head? ≠ some '\n' := by
    obtain ⟨c, rest, rfl⟩ := List.exists_cons_of_ne_nil hne
    intro hc
    have hbreak := h.unbroken c List.mem_cons_self
    rw [Option.some.inj hc] at hbreak
    contradiction
  rw [List.append_assoc, lines_append_of_ended h.before_ended fun _ => hhead,
    lines_unbroken_append hne h.unbroken h.after_breaks]

end Text

namespace Ddl

/-! ## Open quotes -/

/-- The quote that is open behind a text, if `quote` is open before it.  Between quotes a backslash
takes the next character with it. -/
def quoteBehind : (quote : Option Char) → List Char → Option Char
  | quote, [] => quote
  | none, c :: text =>
    if c = '"' ∨ c = '\'' then quoteBehind (some c) text else quoteBehind none text
  | some quote, c :: text =>
    if c = '\\' then
      match text with
      | [] => some quote
      | _ :: rest => quoteBehind (some quote) rest
    else if c = quote then quoteBehind none text
    else quoteBehind (some quote) text

/-! ## Pieces of a text that goes on -/

/-- How a text is cut that goes on in different ways: `front` are the pieces that are complete, and
`last` is the beginning of the piece that goes on. -/
structure CutsOpen (cut : List Char → List (List Char)) (front : List (List Char))
    (last : List Char) : Prop where
  goesOn : ∀ {more next : List Char} {others : List (List Char)},
    pieces none more = next :: others → cut more = front ++ (last ++ next) :: others
  complete : ∀ piece ∈ front, piece.getLast? = some ';'
  incomplete : last.getLast? ≠ some ';'

namespace CutsOpen

variable {cut : List Char → List (List Char)} {front : List (List Char)} {last : List Char}

/-- One more character in front is a character of the first piece. -/
theorem cons {c : Char} (h : CutsOpen cut front last) (cut' : List Char → List (List Char))
    (hcut : ∀ more, cut' more = Text.consFirst c (cut more))
    (hc : front = [] → last = [] → c ≠ ';') :
    ∃ front' last', CutsOpen cut' front' last' ∧ (front' = [] → last' ≠ []) := by
  cases front with
  | nil =>
      refine ⟨[], c :: last, ⟨fun hmore => ?_, fun _ hmem => ?_, ?_⟩, fun _ => List.cons_ne_nil _ _⟩
      · rw [hcut, h.goesOn hmore]
        rfl
      · contradiction
      · cases last with
        | nil =>
            intro hlast
            exact hc rfl rfl (Option.some.inj hlast)
        | cons d last =>
            rw [List.getLast?_cons_cons]
            exact h.incomplete
  | cons piece front =>
      obtain ⟨hpiece, hfront⟩ := List.forall_mem_cons.mp h.complete
      refine ⟨(c :: piece) :: front, last, ⟨fun hmore => ?_, ?_, h.incomplete⟩, fun hnil => ?_⟩
      · rw [hcut, h.goesOn hmore]
        rfl
      · refine List.forall_mem_cons.mpr ⟨?_, hfront⟩
        have hne : piece ≠ [] := by
          rintro rfl
          contradiction
        rw [List.getLast?_cons_of_ne_nil hne]
        exact hpiece
      · contradiction

/-- A semicolon in front is a piece of its own. -/
theorem semicolon {cut' : List Char → List (List Char)} (h : CutsOpen cut front last)
    (hcut : ∀ more, cut' more = [';'] :: cut more) :
    CutsOpen cut' ([';'] :: front) last where
  goesOn hmore := by
    rw [hcut, h.goesOn hmore]
    rfl
  complete := List.forall_mem_cons.mpr ⟨rfl, h.complete⟩
  incomplete := h.incomplete

end CutsOpen

/-- A text behind which no quote is open goes on in its last piece. -/
theorem exists_cutsOpen {quote : Option Char} {text : List Char}
    (hmark : quote ≠ some ';') (h : quoteBehind quote text = none) :
    ∃ front last, CutsOpen (fun more => pieces quote (text ++ more)) front last ∧
      (front = [] → last = [] → text = []) := by
  fun_induction quoteBehind quote text with
  | case1 quote =>
      subst h
      exact ⟨[], [], ⟨fun hmore => hmore, fun _ hmem => by contradiction, by simp⟩, fun _ _ => rfl⟩
  | case2 c text hquote ih =>
      have hne : c ≠ ';' := by
        rintro rfl
        exact absurd hquote (by decide)
      obtain ⟨front, last, hcuts, -⟩ := ih (fun hmark => hne (Option.some.inj hmark)) h
      obtain ⟨front', last', hcuts', hsome⟩ := hcuts.cons
        (fun more => pieces none (c :: text ++ more))
        (fun more => by rw [List.cons_append, pieces, if_neg hne, if_pos hquote]) fun _ _ => hne
      exact ⟨front', last', hcuts', fun hnil hlast => absurd hlast (hsome hnil)⟩
  | case3 c text hquote ih =>
      obtain ⟨front, last, hcuts, -⟩ := ih hmark h
      by_cases hsemicolon : c = ';'
      · refine ⟨[';'] :: front, last, hcuts.semicolon fun more => ?_, fun hnil => by contradiction⟩
        rw [hsemicolon, List.cons_append, pieces, if_pos rfl]
      · obtain ⟨front', last', hcuts', hsome⟩ := hcuts.cons
          (fun more => pieces none (c :: text ++ more))
          (fun more => by rw [List.cons_append, pieces, if_neg hsemicolon, if_neg hquote])
          fun _ _ => hsemicolon
        exact ⟨front', last', hcuts', fun hnil hlast => absurd hlast (hsome hnil)⟩
  | case4 => contradiction
  | case5 quote d rest ih =>
      obtain ⟨front, last, hcuts, hnil⟩ := ih hmark h
      have hd : front = [] → last = [] → d ≠ ';' := by
        intro hfront hlast
        rw [hnil hfront hlast] at h
        contradiction
      obtain ⟨front', last', hcuts', -⟩ := hcuts.cons
        (fun more => Text.consFirst d (pieces (some quote) (rest ++ more)))
        (fun _ => rfl) hd
      obtain ⟨front'', last'', hcuts'', hsome⟩ := hcuts'.cons
        (fun more => pieces (some quote) ('\\' :: d :: rest ++ more))
        (fun more => by rw [List.cons_append, List.cons_append, pieces, if_pos rfl])
        fun _ _ => by decide
      exact ⟨front'', last'', hcuts'', fun hnil hlast => absurd hlast (hsome hnil)⟩
  | case6 quote text hescape ih =>
      obtain ⟨front, last, hcuts, -⟩ := ih (by simp) h
      have hne : quote ≠ ';' := fun hquote => hmark (congrArg some hquote)
      obtain ⟨front', last', hcuts', hsome⟩ := hcuts.cons
        (fun more => pieces (some quote) (quote :: text ++ more))
        (fun more => by
          rw [List.cons_append, pieces.eq_def]
          simp only [if_neg hescape, if_pos]) fun _ _ => hne
      exact ⟨front', last', hcuts', fun hnil hlast => absurd hlast (hsome hnil)⟩
  | case7 quote c text hescape hquote ih =>
      obtain ⟨front, last, hcuts, hnil⟩ := ih hmark h
      have hc : front = [] → last = [] → c ≠ ';' := by
        intro hfront hlast
        rw [hnil hfront hlast] at h
        contradiction
      obtain ⟨front', last', hcuts', hsome⟩ := hcuts.cons
        (fun more => pieces (some quote) (c :: text ++ more))
        (fun more => by
          rw [List.cons_append, pieces.eq_def]
          simp only [if_neg hescape, if_neg hquote]) hc
      exact ⟨front', last', hcuts', fun hnil hlast => absurd hlast (hsome hnil)⟩

/-! ## Pieces of a line with a comment -/

theorem pieces_ne_nil (quote : Option Char) (text : List Char) : pieces quote text ≠ [] := by
  have hcons : ∀ (c : Char) (pieces : List (List Char)), Text.consFirst c pieces ≠ [] := by
    intro c pieces
    cases pieces <;> exact List.cons_ne_nil _ _
  fun_induction pieces quote text <;> first | exact hcons _ _ | exact List.cons_ne_nil _ _

/-- Blanks are part of the piece they stand in front of. -/
theorem pieces_blanks_append {blanks more next : List Char} {others : List (List Char)}
    (hblanks : ∀ c ∈ blanks, Text.isBlank c = true) (hmore : pieces none more = next :: others) :
    pieces none (blanks ++ more) = (blanks ++ next) :: others := by
  induction blanks with
  | nil => exact hmore
  | cons c blanks ih =>
      have hc := hblanks c List.mem_cons_self
      have hne : ∀ {mark : Char}, Text.isBlank mark = false → c ≠ mark := by
        rintro mark hmark rfl
        rw [hc] at hmark
        contradiction
      have hquote : ¬ (c = '"' ∨ c = '\'') := by
        rintro (h | h)
        · exact hne (by decide) h
        · exact hne (by decide) h
      rw [List.cons_append, pieces, if_neg (hne (by decide)), if_neg hquote,
        ih fun d hd => hblanks d (List.mem_cons_of_mem _ hd)]
      rfl

/-- Dashes are part of the piece they stand in front of. -/
theorem exists_pieces_dashes (text : List Char) :
    ∃ next others, pieces none text = next :: others ∧
      pieces none ('-' :: '-' :: text) = ('-' :: '-' :: next) :: others := by
  obtain ⟨next, others, hcut⟩ := List.exists_cons_of_ne_nil (pieces_ne_nil none text)
  refine ⟨next, others, hcut, ?_⟩
  rw [pieces, if_neg (by decide), if_neg (by decide), pieces, if_neg (by decide),
    if_neg (by decide), hcut]
  rfl

/-! ## Lines with a comment behind them -/

theorem startsComment_iff (text : List Char) :
    startsComment text = true ↔ ['-', '-'] <+: text := by
  rw [startsComment.eq_def]
  split
  · next rest => exact ⟨fun _ => ⟨rest, rfl⟩, fun _ => rfl⟩
  · next hno =>
      refine ⟨fun h => absurd h (by decide), ?_⟩
      rintro ⟨rest, rfl⟩
      exact absurd rfl (hno rest)

/-- What follows a blank behind a text does not make the text a comment. -/
theorem startsComment_append_blank {text : List Char} {b : Char} (hne : text ≠ [])
    (hb : Text.isBlank b = true) (more : List Char) :
    startsComment (text ++ b :: more) = startsComment text := by
  have hdash : b ≠ '-' := by
    rintro rfl
    exact absurd hb (by decide)
  rw [Bool.eq_iff_iff, startsComment_iff, startsComment_iff]
  match text with
  | [c] => simp [List.prefix_iff_eq_take, hdash.symm]
  | c :: d :: rest => simp [List.prefix_iff_eq_take]

theorem infix_trim (text : List Char) : Text.trim text <:+: text := by
  obtain ⟨blanks, hblanks, -⟩ := Text.dropTrailing_append Text.isBlank (Text.trimStart text)
  have hfront : Text.trim text <+: Text.trimStart text := ⟨blanks, hblanks.symm⟩
  exact hfront.isInfix.trans (List.dropWhile_suffix _).isInfix

/-- A line ends its statement when its last character that is no blank is a semicolon. -/
theorem isTerminated_iff {line : List Char} (hne : Text.trim line ≠ []) :
    isTerminated line = true ↔ (Text.trim line).getLast? = some ';' := by
  obtain ⟨blanks, hblanks, hall⟩ := Text.dropTrailing_append Text.isBlank (Text.trimStart line)
  rcases List.eq_nil_or_concat (Text.trim line) with hnil | ⟨front, c, hcore⟩
  · contradiction
  · rw [List.concat_eq_append] at hcore
    have hc : Text.isBlank c = false := (Text.trimmed_trim line).2 c (by simp [hcore])
    have hline : line = line.takeWhile Text.isBlank ++ front ++ c :: blanks := by
      calc
        line = line.takeWhile Text.isBlank ++ Text.trimStart line :=
            List.takeWhile_append_dropWhile.symm
        _ = line.takeWhile Text.isBlank ++ (Text.trim line ++ blanks) :=
            congrArg (line.takeWhile Text.isBlank ++ ·) hblanks
        _ = line.takeWhile Text.isBlank ++ front ++ c :: blanks := by simp [hcore]
    have hend : Text.trimEnd line = line.takeWhile Text.isBlank ++ front ++ [c] := by
      have hcut : Text.dropTrailing Text.isBlank
          (line.takeWhile Text.isBlank ++ front ++ c :: blanks) = _ :=
        Text.dropTrailing_append_of_last hc blanks
      rw [← hline, Text.dropTrailing_eq_nil hall] at hcut
      exact hcut
    rw [isTerminated, hend, hcore, beq_iff_eq, List.getLast?_concat, List.getLast?_concat]

/-- Whether a comment may be put behind a line: the line is not blank, holds no comment, and leaves
no quote open. -/
structure TakesComment (line : List Char) : Prop where
  not_blank : Text.trim line ≠ []
  no_dashes : ¬ ['-', '-'] <:+: line
  unquoted : quoteBehind none (Text.trim line) = none

/-- A line with a comment behind it. -/
def commented (line text : List Char) : List Char :=
  line ++ ' ' :: '-' :: '-' :: ' ' :: text

/-- Between a line and the comment behind it there are blanks, and the comment loses its own blanks
at the end. -/
theorem trim_commented {line : List Char} (hne : Text.trim line ≠ []) :
    ∃ b blanks, (∀ c ∈ b :: blanks, Text.isBlank c = true) ∧ ∀ text,
      Text.trim (commented line text) =
        Text.trim line ++ (b :: blanks ++ '-' :: '-' :: Text.trimEnd (' ' :: text)) := by
  obtain ⟨dropped, hdropped, hall⟩ := Text.dropTrailing_append Text.isBlank (Text.trimStart line)
  obtain ⟨b, blanks, hgap⟩ := List.exists_cons_of_ne_nil
    (List.append_ne_nil_of_right_ne_nil dropped (List.cons_ne_nil ' ' []))
  refine ⟨b, blanks, ?_, fun text => ?_⟩
  · rw [← hgap]
    intro c hc
    rcases List.mem_append.mp hc with hc | hc
    · exact hall c hc
    · rw [List.mem_singleton.mp hc]
      decide
  · have hstart : (Text.trimStart line).isEmpty = false := by
      rw [List.isEmpty_eq_false_iff]
      intro hnil
      refine hne ?_
      rw [Text.trim, hnil]
      rfl
    have htext : Text.trimStart (commented line text) =
        (Text.trim line ++ (dropped ++ [' ', '-'])) ++ '-' :: ' ' :: text := by
      calc
        Text.trimStart (commented line text)
          = Text.trimStart line ++ ' ' :: '-' :: '-' :: ' ' :: text := by
            unfold commented Text.trimStart
            rw [List.dropWhile_append, if_neg (by rw [Bool.not_eq_true]; exact hstart)]
        _ = Text.trim line ++ dropped ++ ' ' :: '-' :: '-' :: ' ' :: text :=
            congrArg (· ++ ' ' :: '-' :: '-' :: ' ' :: text) hdropped
        _ = _ := by simp
    rw [Text.trim, Text.trimEnd, htext, Text.dropTrailing_append_of_last (by decide), ← hgap]
    simp [Text.trimEnd]

/-- Where the pieces in front start no comment, the statements are those up to the first piece
behind them that starts one. -/
theorem statements_of_pieces {line : List Char} {front others : List (List Char)}
    (hne : Text.trim line ≠ []) (hcomment : startsComment (Text.trim line) = false)
    (hcut : pieces none (Text.trim line) = front ++ others) (hfront : front ≠ [])
    (hread : ∀ piece ∈ front, startsComment (Text.trimStart piece) = false) :
    statements line =
      ((front ++ others.takeWhile fun piece => !startsComment (Text.trimStart piece)).map
        Text.trim).filter fun statement => !statement.isEmpty := by
  obtain ⟨first, rest, rfl⟩ := List.exists_cons_of_ne_nil hfront
  have hempty : (Text.trim line).isEmpty = false := List.isEmpty_eq_false_iff.mpr hne
  unfold statements
  dsimp only
  rw [hempty, hcomment, hcut, Bool.or_false, if_neg (by decide), List.cons_append]
  dsimp only
  rw [List.takeWhile_append_of_pos, List.cons_append]
  intro piece hmem
  rw [hread piece (List.mem_cons_of_mem _ hmem)]
  rfl

theorem CutsOpen.flatten {front : List (List Char)} {text last : List Char}
    (h : CutsOpen (fun more => pieces none (text ++ more)) front last) :
    text = front.flatten ++ last := by
  have hcut : pieces none (text ++ []) = front ++ [last ++ []] := h.goesOn rfl
  have hflat := flatten_pieces none (text ++ [])
  rw [hcut] at hflat
  simpa using hflat.symm

namespace TakesComment

variable {line : List Char}

theorem not_comment (h : TakesComment line) : startsComment (Text.trim line) = false := by
  rw [Bool.eq_false_iff]
  intro hcomment
  exact h.no_dashes (((startsComment_iff _).mp hcomment).isInfix.trans (infix_trim line))

/-- No part of the line starts a comment. -/
theorem part_not_comment (h : TakesComment line) {piece : List Char}
    (hpiece : piece <:+: Text.trim line) : startsComment (Text.trimStart piece) = false := by
  rw [Bool.eq_false_iff]
  intro hcomment
  have hstart : Text.trimStart piece <:+: piece := (List.dropWhile_suffix _).isInfix
  exact h.no_dashes (((startsComment_iff _).mp hcomment).isInfix.trans
    (hstart.trans (hpiece.trans (infix_trim line))))

/-- The pieces of the line, and the pieces of the line with a comment behind it. -/
theorem exists_cut (h : TakesComment line) :
    ∃ front last, CutsOpen (fun more => pieces none (Text.trim line ++ more)) front last ∧
      Text.trim line = front.flatten ++ last ∧
      ∀ piece ∈ front, startsComment (Text.trimStart piece) = false := by
  obtain ⟨front, last, hcuts, -⟩ := exists_cutsOpen (by decide) h.unquoted
  have hflat := hcuts.flatten
  refine ⟨front, last, hcuts, hflat, fun piece hmem => h.part_not_comment ?_⟩
  rw [hflat]
  exact (List.infix_of_mem_flatten hmem).trans (List.prefix_append _ _).isInfix

/-- **Behind a complete statement a comment is not read.** -/
theorem statements_commented (h : TakesComment line) (hend : isTerminated line = true)
    (text : List Char) : statements (commented line text) = statements line := by
  obtain ⟨front, last, hcuts, hflat, hread⟩ := h.exists_cut
  have hlast : last = [] := by
    by_contra hne
    have hend' := (isTerminated_iff h.not_blank).mp hend
    rw [hflat, List.getLast?_append_of_ne_nil _ hne] at hend'
    exact hcuts.incomplete hend'
  have hfront : front ≠ [] := by
    rintro rfl
    exact h.not_blank (by rw [hflat, hlast]; rfl)
  obtain ⟨b, blanks, hblanks, htrim⟩ := trim_commented h.not_blank
  obtain ⟨next, others, -, hdashes⟩ := exists_pieces_dashes (Text.trimEnd (' ' :: text))
  have hcut : pieces none (Text.trim line) = front ++ [[]] := by
    have hgoes : pieces none (Text.trim line ++ []) = front ++ [last ++ []] := hcuts.goesOn rfl
    simpa [hlast] using hgoes
  have hcut' : pieces none (Text.trim (commented line text)) =
      front ++ (b :: blanks ++ '-' :: '-' :: next) :: others := by
    have hgoes := hcuts.goesOn (pieces_blanks_append hblanks hdashes)
    rw [htrim]
    simpa [hlast] using hgoes
  have hcomment : startsComment (Text.trimStart (b :: blanks ++ '-' :: '-' :: next)) = true := by
    rw [Text.trimStart, Text.dropWhile_run hblanks (Text.halts_cons (by decide) _)]
    rfl
  have hne : Text.trim (commented line text) ≠ [] := by
    rw [htrim]
    exact List.append_ne_nil_of_left_ne_nil h.not_blank _
  have hnot : startsComment (Text.trim (commented line text)) = false := by
    rw [htrim, List.cons_append,
      startsComment_append_blank h.not_blank (hblanks b List.mem_cons_self), h.not_comment]
  rw [statements_of_pieces hne hnot hcut' hfront hread,
    statements_of_pieces h.not_blank h.not_comment hcut hfront hread, List.takeWhile_cons,
    hcomment]
  have hnil : Text.trim [] = [] := rfl
  have hfirst : startsComment (Text.trimStart []) = false := rfl
  simp [hnil, hfirst]

/-- The beginning of the last piece of a line that is left open. -/
theorem last_ne_nil {front : List (List Char)} {last : List Char}
    (hcuts : CutsOpen (fun more => pieces none (Text.trim line ++ more)) front last)
    (hflat : Text.trim line = front.flatten ++ last) (h : TakesComment line)
    (hopen : isTerminated line = false) : last ≠ [] := by
  rintro rfl
  rw [List.append_nil] at hflat
  have hend : (Text.trim line).getLast? = some ';' := by
    rcases List.eq_nil_or_concat front with rfl | ⟨init, piece, rfl⟩
    · exact absurd hflat h.not_blank
    · rw [List.concat_eq_append] at hcuts hflat
      have hpiece : piece.getLast? = some ';' := hcuts.complete piece (by simp)
      have hne : piece ≠ [] := by
        rintro rfl
        contradiction
      rw [hflat, List.flatten_append, List.flatten_singleton,
        List.getLast?_append_of_ne_nil _ hne, hpiece]
  rw [(isTerminated_iff h.not_blank).mpr hend] at hopen
  contradiction

/-- **Behind an open statement a comment is read**: a semicolon in it ends the statement, and what
follows the semicolon is a statement of the document. -/
theorem mem_statements_commented (h : TakesComment line) (hopen : isTerminated line = false)
    {text : List Char} (htext : IsOneStatement text) :
    text ++ [';'] ∈ statements (commented line (';' :: ' ' :: (text ++ [';']))) := by
  obtain ⟨front, last, hcuts, hflat, hread⟩ := h.exists_cut
  have hlast := last_ne_nil hcuts hflat h hopen
  obtain ⟨b, blanks, hblanks, htrim⟩ := trim_commented h.not_blank
  -- The comment is one piece up to its semicolon, and the statement is the next one.
  have hkept : Text.trimEnd (' ' :: ';' :: ' ' :: (text ++ [';'])) =
      ' ' :: ';' :: ' ' :: (text ++ [';']) := by
    apply Text.dropTrailing_eq_self
    intro c hc
    rw [← List.cons_append, ← List.cons_append, ← List.cons_append, List.getLast?_concat] at hc
    rw [← Option.some.inj hc]
    decide
  obtain ⟨rest, hstatement⟩ : ∃ rest,
      pieces none (' ' :: (text ++ [';'])) = (' ' :: (text ++ [';'])) :: rest := by
    have hspace : Clear [' '] := List.all_eq_true.mp (by decide)
    rcases (htext.confined.append_left hspace).uncut with hcut | hcut
    · exact ⟨[], hcut⟩
    · exact ⟨[[]], hcut⟩
  have hcomment : pieces none (' ' :: ';' :: ' ' :: (text ++ [';'])) =
      [' ', ';'] :: (' ' :: (text ++ [';'])) :: rest := by
    rw [pieces, if_neg (by decide), if_neg (by decide), pieces, if_pos rfl, hstatement]
    rfl
  obtain ⟨next, others, hnext, hdashes⟩ :=
    exists_pieces_dashes (' ' :: ';' :: ' ' :: (text ++ [';']))
  rw [hcomment] at hnext
  obtain ⟨rfl, rfl⟩ := List.cons.inj hnext
  have hcut : pieces none (Text.trim (commented line (';' :: ' ' :: (text ++ [';'])))) =
      (front ++ [last ++ (b :: blanks ++ "-- ;".toList)]) ++ (' ' :: (text ++ [';'])) :: rest := by
    rw [htrim, hkept, hcuts.goesOn (pieces_blanks_append hblanks hdashes)]
    simp
  -- None of the pieces up to the statement starts a comment.
  have hpiece : startsComment (Text.trimStart (last ++ (b :: blanks ++ "-- ;".toList))) = false := by
    have hstart : Text.trimStart last ≠ [] := by
      intro hnil
      have hall := List.dropWhile_eq_nil_iff.mp hnil
      have hend := (Text.trimmed_trim line).2 (last.getLast hlast)
        (by rw [hflat, List.getLast?_append_of_ne_nil _ hlast, List.getLast?_eq_getLast_of_ne_nil])
      rw [hall _ (List.getLast_mem hlast)] at hend
      contradiction
    have hpart : last <:+: Text.trim line := by
      rw [hflat]
      exact (List.suffix_append _ _).isInfix
    have hsplit : Text.trimStart (last ++ (b :: blanks ++ "-- ;".toList)) =
        Text.trimStart last ++ b :: (blanks ++ "-- ;".toList) := by
      have hsome : (last.dropWhile Text.isBlank).isEmpty = false :=
        List.isEmpty_eq_false_iff.mpr hstart
      rw [Text.trimStart, List.dropWhile_append, if_neg (by rw [Bool.not_eq_true]; exact hsome)]
      rfl
    rw [hsplit, startsComment_append_blank hstart (hblanks b List.mem_cons_self),
      h.part_not_comment hpart]
  have hread' : ∀ piece ∈ front ++ [last ++ (b :: blanks ++ "-- ;".toList)],
      startsComment (Text.trimStart piece) = false := by
    intro piece hmem
    rcases List.mem_append.mp hmem with hmem | hmem
    · exact hread piece hmem
    · rw [List.mem_singleton.mp hmem]
      exact hpiece
  have htrimmed : Text.trim (' ' :: (text ++ [';'])) = text ++ [';'] := by
    have hblank : Text.isBlank ' ' = true := by decide
    rw [Text.trim, Text.trimStart, List.dropWhile_cons_of_pos hblank]
    exact Text.trim_eq_self htext.trimmed_append
  have hstart : startsComment (Text.trimStart (' ' :: (text ++ [';']))) = false := by
    obtain ⟨more, rfl⟩ := htext.define
    rfl
  have hne : Text.trim (commented line (';' :: ' ' :: (text ++ [';']))) ≠ [] := by
    rw [htrim]
    exact List.append_ne_nil_of_left_ne_nil h.not_blank _
  have hnot : startsComment (Text.trim (commented line (';' :: ' ' :: (text ++ [';'])))) =
      false := by
    rw [htrim, List.cons_append,
      startsComment_append_blank h.not_blank (hblanks b List.mem_cons_self), h.not_comment]
  rw [statements_of_pieces hne hnot hcut (by simp) hread', List.takeWhile_cons, hstart]
  simp [htrimmed]

end TakesComment

/-! ## Documents -/

/-- The definition of a table with a name of some length. -/
def tableOfLength (length : Nat) : List Char :=
  definition "TABLE" (List.replicate length 'x')

theorem isOneStatement_tableOfLength {length : Nat} (hpos : length ≠ 0) :
    IsOneStatement (tableOfLength length) := by
  have hname : ∀ c ∈ List.replicate length 'x', c = 'x' := fun _ => List.eq_of_mem_replicate
  have hclear : Clear "DEFINE TABLE ".toList := List.all_eq_true.mp (by decide)
  refine ⟨?_, ⟨?_, ?_⟩, ⟨_, rfl⟩⟩
  · have hxs : Clear (List.replicate length 'x') := by
      intro c hc
      rw [hname c hc]
      decide
    exact .clear (hclear.append hxs)
  · intro c hc
    rw [← Option.some.inj hc]
    decide
  · intro c hc
    have hrest : List.replicate length 'x' ≠ [] := by simpa using hpos
    have hlast : (tableOfLength length).getLast? = (List.replicate length 'x').getLast? :=
      List.getLast?_append_of_ne_nil "DEFINE TABLE ".toList hrest
    rw [hlast] at hc
    rw [hname c (List.mem_of_getLast? hc)]
    decide

theorem definedTable_tableOfLength {length : Nat} (hpos : length ≠ 0) :
    definedTable? (tableOfLength length ++ [';']) =
      some (String.ofList (List.replicate length 'x')) := by
  have hname : IsWordName (List.replicate length 'x') := by
    refine ⟨by simpa using hpos, fun c hc => ?_⟩
    rw [List.eq_of_mem_replicate hc]
    decide
  have hmodifier : ∀ {letter : Char} {word : List Char}, Text.matchesLetter letter 'x' = false →
      ¬ Text.Spells (letter :: word) (List.replicate length 'x') := by
    intro letter word hletter hspells
    obtain ⟨count, rfl⟩ := Nat.exists_eq_succ_of_ne_zero hpos
    rw [List.replicate_succ] at hspells
    cases hspells with
    | cons hmatch _ =>
        rw [hletter] at hmatch
        contradiction
  have hends : EndsName [] := Text.halts_nil _
  have hread := definedTable_definition hname hends (hmodifier (by decide))
    (fun hif => absurd hif (hmodifier (by decide)))
  rw [List.append_nil] at hread
  exact hread

theorem lower_replicate (length : Nat) :
    Text.lower (List.replicate length 'x') = List.replicate length 'x' := by
  have hafter : ∀ afterCased, Text.lowerAfter afterCased (List.replicate length 'x') =
      List.replicate length 'x' := by
    induction length with
    | zero => exact fun _ => rfl
    | succ length ih =>
        intro afterCased
        rw [List.replicate_succ, Text.lowerAfter, ih]
        rfl
  exact hafter false

/-- **Which lines of a document take any comment.**  Whatever the comment says, it is not read
behind a line that ends its statement.  Behind a line that leaves its statement open some comment is
read: one that ends the statement and defines a table that the document does not have. -/
theorem parse_commented_iff {before line after : List Char}
    (hline : Text.IsLineBetween before line after) (h : TakesComment line) :
    (∀ text, Text.Unbroken text →
      parse (String.ofList (before ++ commented line text ++ after)) =
        parse (String.ofList (before ++ line ++ after))) ↔ isTerminated line = true := by
  have hne : line ≠ [] := by
    rintro rfl
    exact h.not_blank rfl
  have hlines : ∀ {text : List Char}, Text.Unbroken text →
      logicalLines (String.ofList (before ++ commented line text ++ after)) =
        (Text.lines before).flatMap statements ++
          (statements (commented line text) ++
            (Text.lines after).tail.flatMap statements) := by
    intro text htext
    have hmark : Text.Unbroken " -- ".toList := by decide
    have hbetween : Text.IsLineBetween before (commented line text) after :=
      ⟨hline.unbroken.append (Text.Unbroken.append hmark htext), hline.before_ended,
        hline.after_breaks⟩
    rw [logicalLines, String.toList_ofList,
      hbetween.lines_eq (List.append_ne_nil_of_left_ne_nil hne _), List.flatMap_append,
      List.flatMap_cons]
  constructor
  · intro hall
    rw [← Bool.not_eq_false]
    intro hopen
    -- The name is longer than every name in the document.
    let lengths := (parse (String.ofList (before ++ line ++ after))).map fun table =>
      (lowerName table.name).toList.length
    have hpos : lengths.sum + 1 ≠ 0 := Nat.succ_ne_zero _
    have hone := isOneStatement_tableOfLength hpos
    have hunbroken :
        Text.Unbroken (';' :: ' ' :: (tableOfLength (lengths.sum + 1) ++ [';'])) := by
      have hopening : Text.Unbroken "; ".toList := by decide
      exact hopening.append (hone.confined.unbroken.append (by decide))
    have hmem := h.mem_statements_commented hopen hone
    obtain ⟨table, htable, hlower⟩ := exists_mem_parse_of_definedTable
      (by
        rw [hlines hunbroken]
        exact List.mem_append_right _ (List.mem_append_left _ hmem))
      (definedTable_tableOfLength hpos)
    rw [hall _ hunbroken] at htable
    have hlength : (lowerName table.name).toList.length = lengths.sum + 1 := by
      rw [hlower, lowerName, String.toList_ofList, String.toList_ofList, lower_replicate,
        List.length_replicate]
    have hle : (lowerName table.name).toList.length ≤ lengths.sum :=
      List.le_sum_of_mem (List.mem_map_of_mem htable)
    omega
  · intro hend text htext
    unfold parse
    rw [hlines htext, h.statements_commented hend, logicalLines, String.toList_ofList,
      hline.lines_eq hne, List.flatMap_append, List.flatMap_cons]

/-- The first line of a field ends its statement, but for the quoted semicolon and apostrophe. -/
theorem parse_commented_iff_note :
    let before := "DEFINE TABLE post;\r\n".toList
    let line := "  DEFINE FIELD note ON post TYPE string COMMENT \"it's; here\"; ".toList
    let after := "\n  DEFAULT 'x' -- open".toList
    (Text.IsLineBetween before line after ∧ TakesComment line) ∧
      ((∀ text, Text.Unbroken text →
        parse (String.ofList (before ++ commented line text ++ after)) =
          parse (String.ofList (before ++ line ++ after))) ↔ isTerminated line = true) := by
  intro before line after
  have hline : Text.IsLineBetween before line after :=
    ⟨by decide +kernel, by decide, by decide⟩
  have htakes : TakesComment line := ⟨by decide +kernel, by decide +kernel, by decide +kernel⟩
  exact ⟨⟨hline, htakes⟩, parse_commented_iff hline htakes⟩

/-- A comment behind the first line of an open statement becomes part of the type of the field. -/
theorem parse_commented_open_line :
    let before := "DEFINE TABLE user;\n".toList
    let line := "DEFINE FIELD age ON user TYPE int".toList
    let text := "years".toList
    Text.IsLineBetween before line [] ∧ TakesComment line ∧ Text.Unbroken text ∧
      parse (String.ofList (before ++ commented line text ++ [])) ≠
        parse (String.ofList (before ++ line ++ [])) :=
  ⟨⟨by decide +kernel, by decide, by decide⟩,
    ⟨by decide +kernel, by decide +kernel, by decide +kernel⟩, by decide +kernel,
    by decide +kernel⟩

end Ddl
end SurrealSchema
