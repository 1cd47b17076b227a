import SurrealSchema.Proofs.Ddl.Alike
import SurrealSchema.Proofs.Ddl.CommentLines
import SurrealSchema.Proofs.Text.Passing

namespace SurrealSchema
namespace Ddl

/-!
# Replacing a phrase of a definition

A phrase is a word or several words with blanks between them.  One that stands between two places at
which no word goes on may be replaced by another one without much of the text being read
differently: a definition is written with the same blanks trimmed off, a document has the same lines
but for the phrase, and a line is cut into statements at the same places, whether or not the phrase
is between quotes.  So a document is read alike if the one statement with the phrase in it is.

The first word of a definition is a phrase that may also stand on a line by itself; such a line
leaves no statement open.
-/

/-! ## Phrases -/

/-- Whether a text consists of words and blanks on one line. -/
def Plain (text : List Char) : Prop :=
  ∀ c ∈ text, Text.isWord c = true ∨ (Text.isBlank c = true ∧ Text.isLineBreak c = false)

/-- Whether a text consists of words and blanks on one line, with words at both ends. -/
structure IsPhrase (phrase : List Char) : Prop where
  plain : Plain phrase
  first : ∃ c rest, phrase = c :: rest ∧ Text.isWord c = true
  last : ∃ front c, phrase = front ++ [c] ∧ Text.isWord c = true

/-- A blank that does not end a line is clear. -/
theorem isClear_of_isBlank {c : Char} (hblank : Text.isBlank c = true)
    (hbreak : Text.isLineBreak c = false) : isClear c = true := by
  have hmark : ∀ {mark : Char}, Text.isBlank mark = false → (c != mark) = true := by
    intro mark hmark
    rw [bne_iff_ne]
    rintro rfl
    rw [hmark] at hblank
    contradiction
  unfold isClear
  rw [hmark (by decide), hmark (by decide), hmark (by decide), hbreak]
  rfl

namespace Plain

variable {text : List Char} (h : Plain text)
include h

theorem clear : Clear text := by
  intro c hc
  rcases h c hc with hword | ⟨hblank, hbreak⟩
  · exact isClear_of_isWord hword
  · exact isClear_of_isBlank hblank hbreak

theorem unbroken : Text.Unbroken text :=
  (Confined.clear h.clear).unbroken

/-- Characters that are neither in words nor blanks are not in the text. -/
theorem not_mem {mark : Char} (hword : Text.isWord mark = false)
    (hblank : Text.isBlank mark = false) : mark ∉ text := by
  intro hmem
  rcases h mark hmem with hmark | ⟨hmark, -⟩
  · rw [hword] at hmark
    contradiction
  · rw [hblank] at hmark
    contradiction

end Plain

/-- A word is a phrase. -/
theorem isPhrase_of_isWord {word : List Char} (hne : word ≠ [])
    (hword : ∀ c ∈ word, Text.isWord c = true) : IsPhrase word where
  plain := fun c hc => Or.inl (hword c hc)
  first := by
    obtain ⟨c, rest, rfl⟩ := List.exists_cons_of_ne_nil hne
    exact ⟨c, rest, rfl, hword c List.mem_cons_self⟩
  last := ⟨word.dropLast, word.getLast hne, (List.dropLast_append_getLast hne).symm,
    hword _ (List.getLast_mem hne)⟩

namespace IsPhrase

variable {phrase : List Char}

/-- Two phrases with blanks between them are a phrase. -/
theorem append {gap other : List Char} (h : IsPhrase phrase) (hother : IsPhrase other)
    (hgap : ∀ c ∈ gap, Text.isBlank c = true ∧ Text.isLineBreak c = false) :
    IsPhrase (phrase ++ (gap ++ other)) where
  plain := by
    intro c hc
    rcases List.mem_append.mp hc with hc | hc
    · exact h.plain c hc
    · rcases List.mem_append.mp hc with hc | hc
      · exact Or.inr (hgap c hc)
      · exact hother.plain c hc
  first := by
    obtain ⟨c, rest, rfl, hc⟩ := h.first
    exact ⟨c, rest ++ (gap ++ other), rfl, hc⟩
  last := by
    obtain ⟨front, c, rfl, hc⟩ := hother.last
    exact ⟨phrase ++ (gap ++ front), c, by simp only [List.append_assoc], hc⟩

theorem ne_nil (h : IsPhrase phrase) : phrase ≠ [] := by
  obtain ⟨c, rest, rfl, -⟩ := h.first
  exact List.cons_ne_nil c rest

theorem startsWord_append (h : IsPhrase phrase) (rest : List Char) :
    Text.startsWord (phrase ++ rest) = true := by
  obtain ⟨c, more, rfl, hc⟩ := h.first
  exact hc

end IsPhrase

/-- What starts with a word does not start with a blank. -/
theorem halts_of_startsWord {text : List Char} (h : Text.startsWord text = true) :
    Text.Halts Text.isBlank text := by
  cases text with
  | nil => exact Text.halts_nil _
  | cons c text => exact Text.halts_cons (Text.isBlank_of_isWord h) text

/-! ## Written definitions -/

theorem unbroken_terminated {definition : List Char} (h : Text.Unbroken definition) :
    Text.Unbroken (terminated definition) := by
  have htrim : Text.Unbroken (Text.trim definition) :=
    fun c hc => h c ((infix_trim definition).subset hc)
  unfold terminated
  dsimp only
  split
  · exact htrim
  · exact htrim.append (List.forall_mem_singleton.mpr (by decide))

theorem isTerminated_terminated (definition : List Char) :
    isTerminated (terminated definition) = true := by
  unfold terminated
  dsimp only
  split
  · assumption
  · exact isTerminated_append _

theorem trimmed_terminated (definition : List Char) : Text.Trimmed (terminated definition) := by
  have htrimmed := Text.trimmed_trim definition
  unfold terminated
  dsimp only
  split
  · exact htrimmed
  · constructor
    · intro c hc
      cases htrim : Text.trim definition with
      | nil =>
          rw [htrim] at hc
          rw [← Option.some.inj hc]
          decide
      | cons d rest =>
          rw [htrim] at hc htrimmed
          exact htrimmed.1 c hc
    · intro c hc
      rw [List.getLast?_concat] at hc
      rw [← Option.some.inj hc]
      decide

/-- The blanks around a text with a phrase in it are outside of the phrase. -/
theorem trim_phrase {phrase : List Char} (h : IsPhrase phrase) (front rear : List Char) :
    Text.trim (front ++ (phrase ++ rear)) =
      Text.trimStart front ++ (phrase ++ Text.trimEnd rear) := by
  obtain ⟨init, c, rfl, hc⟩ := h.last
  have hblank : Text.isBlank c = false := Text.isBlank_of_isWord hc
  have hstart : Text.trimStart (front ++ (init ++ [c] ++ rear)) =
      Text.trimStart front ++ init ++ c :: rear := by
    unfold Text.trimStart
    rw [Text.dropWhile_blanks_append (halts_of_startsWord (h.startsWord_append rear))]
    simp only [List.append_assoc, List.singleton_append]
  rw [Text.trim, Text.trimEnd, hstart, Text.dropTrailing_append_of_last hblank]
  simp only [Text.trimEnd, List.append_assoc, List.singleton_append]

theorem halts_trimEnd {rear : List Char} (h : Text.Halts Text.isWord rear) :
    Text.Halts Text.isWord (Text.trimEnd rear) :=
  fun c hc => h c (Text.head?_dropTrailing hc)

/-- **A definition is written with the phrase in it as it is**, and what is written in front of the
phrase and behind it does not depend on the phrase. -/
theorem exists_terminated (front : List Char) {rear : List Char}
    (hrear : Text.Halts Text.isWord rear) :
    ∃ rear', Text.Halts Text.isWord rear' ∧ ∀ phrase, IsPhrase phrase →
      terminated (front ++ (phrase ++ rear)) = Text.trimStart front ++ (phrase ++ rear') := by
  have hend : ∀ phrase, IsPhrase phrase →
      isTerminated (Text.trimStart front ++ (phrase ++ Text.trimEnd rear)) =
        ((Text.trimEnd rear).getLast? == some ';') := by
    intro phrase hphrase
    have hself : Text.trimEnd (Text.trimStart front ++ (phrase ++ Text.trimEnd rear)) =
        Text.trimStart front ++ (phrase ++ Text.trimEnd rear) := by
      rw [← trim_phrase hphrase]
      exact Text.dropTrailing_eq_self (Text.trimmed_trim _).2
    unfold isTerminated
    rw [hself, List.getLast?_append_of_ne_nil _
      (List.append_ne_nil_of_left_ne_nil hphrase.ne_nil _)]
    by_cases hnil : Text.trimEnd rear = []
    · -- The phrase ends in a word, and so does the definition.
      obtain ⟨init, c, rfl, hc⟩ := hphrase.last
      have hne : c ≠ ';' := by
        rintro rfl
        exact absurd hc (by decide)
      rw [hnil, List.append_nil, List.getLast?_concat]
      simpa using hne
    · rw [List.getLast?_append_of_ne_nil _ hnil]
  have hhalts := halts_trimEnd hrear
  cases hlast : ((Text.trimEnd rear).getLast? == some ';') with
  | true =>
      refine ⟨Text.trimEnd rear, hhalts, fun phrase hphrase => ?_⟩
      rw [terminated, trim_phrase hphrase, if_pos (by rw [hend phrase hphrase, hlast])]
  | false =>
      refine ⟨Text.trimEnd rear ++ [';'], ?_, fun phrase hphrase => ?_⟩
      · cases hrest : Text.trimEnd rear with
        | nil => exact Text.halts_cons (by decide) []
        | cons c rest =>
            rw [hrest] at hhalts
            exact hhalts
      · rw [terminated, trim_phrase hphrase, if_neg (by rw [hend phrase hphrase, hlast]; decide)]
        simp only [List.append_assoc]

/-! ## Lines -/

/-- The rest of the first line of a text and what follows it. -/
theorem exists_first_line (text : List Char) :
    ∃ line after, text = line ++ after ∧ Text.Unbroken line ∧
      after.head?.all Text.isLineBreak = true := by
  refine ⟨text.takeWhile fun c => !Text.isLineBreak c, text.dropWhile fun c => !Text.isLineBreak c,
    List.takeWhile_append_dropWhile.symm, fun c hc => ?_, ?_⟩
  · simpa using List.mem_takeWhile_imp hc
  · have hhead := List.head?_dropWhile_not (fun c => !Text.isLineBreak c) text
    cases hdrop : (text.dropWhile fun c => !Text.isLineBreak c).head? with
    | none => rfl
    | some c =>
        rw [hdrop] at hhead
        simpa using hhead

/-- What stands on the last line of a text and what stands before it. -/
theorem exists_last_line (text : List Char) :
    ∃ before line, text = before ++ line ∧ before.getLast?.all Text.isLineBreak = true ∧
      Text.Unbroken line := by
  obtain ⟨line, after, hsplit, hline, hafter⟩ := exists_first_line text.reverse
  refine ⟨after.reverse, line.reverse, ?_, ?_, fun c hc => hline c (List.mem_reverse.mp hc)⟩
  · rw [← List.reverse_append, ← hsplit, List.reverse_reverse]
  · rw [List.getLast?_reverse]
    exact hafter

/-- A phrase stands on one line of a document, and the lines do not depend on the phrase
otherwise. -/
theorem exists_lines {before start rear : List Char}
    (hbefore : before.getLast?.all Text.isLineBreak = true) (hstart : Text.Unbroken start)
    (hrear : Text.Halts Text.isWord rear) :
    ∃ behind more, Text.Halts Text.isWord behind ∧ ∀ phrase, IsPhrase phrase →
      Text.lines (before ++ (start ++ (phrase ++ rear))) =
        Text.lines before ++ (start ++ (phrase ++ behind)) :: more := by
  obtain ⟨behind, after, rfl, hunbroken, hafter⟩ := exists_first_line rear
  have hbehind : Text.Halts Text.isWord behind := by
    intro c hc
    apply hrear
    rw [List.head?_append, hc]
    rfl
  refine ⟨behind, (Text.lines after).tail, hbehind, fun phrase hphrase => ?_⟩
  have hline : Text.IsLineBetween before (start ++ (phrase ++ behind)) after :=
    ⟨hstart.append (hphrase.plain.unbroken.append hunbroken), hbefore, hafter⟩
  have hne : start ++ (phrase ++ behind) ≠ [] :=
    List.append_ne_nil_of_right_ne_nil _ (List.append_ne_nil_of_left_ne_nil hphrase.ne_nil _)
  rw [← hline.lines_eq hne]
  simp only [List.append_assoc]

/-! ## Pieces -/

/-- How a text with a phrase in it is cut: the phrase is in one piece, and the pieces do not depend
on the phrase otherwise. -/
def CutsAround (cut : List Char → List (List Char)) : Prop :=
  ∃ front last next others, ∀ phrase, IsPhrase phrase →
    cut phrase = front ++ (last ++ (phrase ++ next)) :: others

/-- One more character in front is a character of the first piece. -/
theorem CutsAround.cons {cut cut' : List Char → List (List Char)} (h : CutsAround cut) (c : Char)
    (hcut : ∀ phrase, IsPhrase phrase → cut' phrase = Text.consFirst c (cut phrase)) :
    CutsAround cut' := by
  obtain ⟨front, last, next, others, hall⟩ := h
  cases front with
  | nil =>
      refine ⟨[], c :: last, next, others, fun phrase hphrase => ?_⟩
      rw [hcut phrase hphrase, hall phrase hphrase]
      rfl
  | cons piece front =>
      refine ⟨(c :: piece) :: front, last, next, others, fun phrase hphrase => ?_⟩
      rw [hcut phrase hphrase, hall phrase hphrase]
      rfl

/-- Words and blanks are part of the piece they stand in front of, whatever quote is open. -/
theorem Plain.pieces_append {text : List Char} (h : Plain text) {quote : Option Char}
    (hquote : ∀ q ∈ quote, q = '"' ∨ q = '\'') {rear next : List Char} {others : List (List Char)}
    (hrear : pieces quote rear = next :: others) :
    pieces quote (text ++ rear) = (text ++ next) :: others := by
  induction text with
  | nil => exact hrear
  | cons c text ih =>
      have hclear := h.clear c List.mem_cons_self
      have hescape : c ≠ '\\' := by
        rintro rfl
        exact h.not_mem (by decide) (by decide) List.mem_cons_self
      have hrest := ih fun d hd => h d (List.mem_cons_of_mem _ hd)
      cases quote with
      | none =>
          rw [List.cons_append, pieces_none_of_clear hclear, hrest]
          rfl
      | some q =>
          have hne : c ≠ q := by
            rintro rfl
            rcases hquote c rfl with rfl | rfl <;> exact absurd hclear (by decide)
          rw [List.cons_append, pieces.eq_def]
          simp only [if_neg hescape, if_neg hne, hrest]
          rfl

/-- What starts with a word is no comment. -/
theorem startsComment_of_startsWord {text : List Char} (h : Text.startsWord text = true) :
    startsComment text = false := by
  cases text with
  | nil => contradiction
  | cons c text =>
      have hc : Text.isWord c = true := h
      have hdash : c ≠ '-' := by
        rintro rfl
        exact absurd hc (by decide)
      cases text with
      | nil => simp [startsComment]
      | cons d text => simp [startsComment, hdash]

/-- A phrase at the front of a line, or behind other words there, is part of its first statement,
and the statements do not depend on the phrase otherwise. -/
theorem exists_statements {start rear : List Char} (hplain : Plain start)
    (hstart : ∀ rest, Text.startsWord rest = true →
      Text.startsWord (Text.trimStart start ++ rest) = true)
    (hrear : Text.Halts Text.isWord rear) :
    ∃ next more, Text.Halts Text.isWord next ∧ ∀ phrase, IsPhrase phrase →
      statements (start ++ (phrase ++ rear)) =
        (Text.trimStart start ++ (phrase ++ next)) :: more := by
  obtain ⟨next, others, hcut⟩ := List.exists_cons_of_ne_nil (pieces_ne_nil none (Text.trimEnd rear))
  have hnext : Text.Halts Text.isWord next := by
    intro c hc
    have hflat := flatten_pieces none (Text.trimEnd rear)
    rw [hcut, List.flatten_cons] at hflat
    apply halts_trimEnd hrear
    rw [← hflat, List.head?_append, hc]
    rfl
  refine ⟨Text.trimEnd next, ((others.takeWhile fun piece =>
    !startsComment (Text.trimStart piece)).map Text.trim).filter fun statement =>
      !statement.isEmpty, halts_trimEnd hnext, fun phrase hphrase => ?_⟩
  have htwice : Text.trimStart (Text.trimStart start) = Text.trimStart start := by
    apply Text.trimStart_eq_self
    intro c hc
    have hnot := List.head?_dropWhile_not Text.isBlank start
    have hhead : (start.dropWhile Text.isBlank).head? = some c := hc
    rw [hhead] at hnot
    exact hnot
  have hfirst : Text.trim (Text.trimStart start ++ (phrase ++ next)) =
      Text.trimStart start ++ (phrase ++ Text.trimEnd next) := by
    rw [trim_phrase hphrase, htwice]
  have hwhole : Plain (Text.trimStart start ++ phrase) := by
    intro c hc
    rcases List.mem_append.mp hc with hc | hc
    · exact hplain c ((List.dropWhile_suffix _).subset hc)
    · exact hphrase.plain c hc
  have hpieces : pieces none (Text.trimStart start ++ (phrase ++ Text.trimEnd rear)) =
      (Text.trimStart start ++ (phrase ++ next)) :: others := by
    rw [← List.append_assoc, hwhole.pieces_append (fun _ hnone => by contradiction) hcut,
      List.append_assoc]
  have hne : ∀ rest, (Text.trimStart start ++ (phrase ++ rest)).isEmpty = false := by
    intro rest
    rw [List.isEmpty_eq_false_iff]
    exact List.append_ne_nil_of_right_ne_nil _ (List.append_ne_nil_of_left_ne_nil hphrase.ne_nil _)
  have hcomment := startsComment_of_startsWord (hstart _ (hphrase.startsWord_append
    (Text.trimEnd rear)))
  unfold statements
  dsimp only
  rw [trim_phrase hphrase, hne, hcomment, hpieces]
  simp [hfirst, hne]

/-- **A text is cut around a phrase in it.** -/
theorem cutsAround_pieces {quote : Option Char} (hquote : ∀ q ∈ quote, q = '"' ∨ q = '\'')
    (front rear : List Char) :
    CutsAround fun phrase => pieces quote (front ++ (phrase ++ rear)) := by
  fun_induction pieces quote front with
  | case1 quote =>
      obtain ⟨next, others, hrear⟩ := List.exists_cons_of_ne_nil (pieces_ne_nil quote rear)
      exact ⟨[], [], next, others, fun phrase hphrase =>
        hphrase.plain.pieces_append hquote hrear⟩
  | case2 text ih =>
      obtain ⟨front, last, next, others, hall⟩ := ih hquote
      refine ⟨[';'] :: front, last, next, others, fun phrase hphrase => ?_⟩
      show pieces none (';' :: (text ++ (phrase ++ rear))) = _
      rw [pieces, if_pos rfl]
      exact congrArg ([';'] :: ·) (hall phrase hphrase)
  | case3 c text hsemicolon hopen ih =>
      refine (ih ?_).cons c fun phrase _ => ?_
      · intro q hq
        rw [← Option.some.inj hq]
        exact hopen
      · show pieces none (c :: (text ++ (phrase ++ rear))) = _
        rw [pieces, if_neg hsemicolon, if_pos hopen]
  | case4 c text hsemicolon hopen ih =>
      refine (ih hquote).cons c fun phrase _ => ?_
      show pieces none (c :: (text ++ (phrase ++ rear))) = _
      rw [pieces, if_neg hsemicolon, if_neg hopen]
  | case5 quote =>
      -- The backslash takes the first character of the phrase with it, which makes no difference.
      obtain ⟨next, others, hrear⟩ := List.exists_cons_of_ne_nil (pieces_ne_nil (some quote) rear)
      refine ⟨[], ['\\'], next, others, fun phrase hphrase => ?_⟩
      obtain ⟨d, rest, rfl, -⟩ := hphrase.first
      have hplain : Plain rest := fun c hc => hphrase.plain c (List.mem_cons_of_mem _ hc)
      have hrest := hplain.pieces_append hquote hrear
      show pieces (some quote) ('\\' :: d :: (rest ++ rear)) = _
      rw [pieces, if_pos rfl, hrest]
      rfl
  | case6 quote d rest ih =>
      have hinner : CutsAround fun phrase =>
          Text.consFirst d (pieces (some quote) (rest ++ (phrase ++ rear))) :=
        (ih hquote).cons d fun _ _ => rfl
      refine hinner.cons '\\' fun phrase _ => ?_
      show pieces (some quote) ('\\' :: d :: (rest ++ (phrase ++ rear))) = _
      rw [pieces, if_pos rfl]
  | case7 quote text hescape ih =>
      refine (ih fun _ hnone => by contradiction).cons quote fun phrase _ => ?_
      show pieces (some quote) (quote :: (text ++ (phrase ++ rear))) = _
      rw [pieces.eq_def]
      simp only [if_neg hescape, if_pos]
  | case8 quote c text hescape hclose ih =>
      refine (ih hquote).cons c fun phrase _ => ?_
      show pieces (some quote) (c :: (text ++ (phrase ++ rear))) = _
      rw [pieces.eq_def]
      simp only [if_neg hescape, if_neg hclose]

/-- **A text stays one statement when a phrase in it is replaced.** -/
theorem Uncut.replace {front rear phrase other : List Char} (h : IsPhrase phrase)
    (hother : IsPhrase other) (huncut : Uncut none (front ++ (phrase ++ rear))) :
    Uncut none (front ++ (other ++ rear)) := by
  have hnone : ∀ q ∈ (none : Option Char), q = '"' ∨ q = '\'' := fun _ hopen => by contradiction
  obtain ⟨cut, last, next, others, hall⟩ := cutsAround_pieces hnone front rear
  have hphrase : pieces none (front ++ (phrase ++ rear)) = _ := hall phrase h
  have hreplaced : pieces none (front ++ (other ++ rear)) = _ := hall other hother
  have hpiece : last ++ (phrase ++ next) ≠ [] :=
    List.append_ne_nil_of_right_ne_nil _ (List.append_ne_nil_of_left_ne_nil h.ne_nil _)
  -- No piece stands before the one with the phrase, and only an empty one may stand behind it.
  obtain ⟨rfl, hothers⟩ : cut = [] ∧ (others = [] ∨ others = [[]]) := by
    have hcases : cut ++ (last ++ (phrase ++ next)) :: others = [front ++ (phrase ++ rear)] ∨
        cut ++ (last ++ (phrase ++ next)) :: others = [front ++ (phrase ++ rear), []] := by
      rw [← hphrase]
      exact huncut
    cases cut with
    | nil =>
        refine ⟨rfl, ?_⟩
        rcases hcases with heq | heq
        · exact Or.inl (List.cons.inj heq).2
        · exact Or.inr (List.cons.inj heq).2
    | cons piece cut =>
        rcases hcases with heq | heq
        · exact absurd (List.cons.inj heq).2 (by simp)
        · have htail := (List.cons.inj heq).2
          cases cut with
          | nil => exact absurd (List.cons.inj htail).1 hpiece
          | cons _ cut => exact absurd (List.cons.inj htail).2 (by simp)
  have hflat := flatten_pieces none (front ++ (other ++ rear))
  rw [hreplaced] at hflat
  rcases hothers with rfl | rfl
  · have hwhole : last ++ (other ++ next) = front ++ (other ++ rear) := by simpa using hflat
    exact Or.inl (by rw [hreplaced, hwhole]; rfl)
  · have hwhole : last ++ (other ++ next) = front ++ (other ++ rear) := by simpa using hflat
    exact Or.inr (by rw [hreplaced, hwhole]; rfl)

/-! ## Reading around a phrase -/

/-- A document is read alike with two phrases in the same place if the statements that they start
are. -/
theorem readText_phrase {before start rear phrase other : List Char}
    (hbefore : before.getLast?.all Text.isLineBreak = true) (hplain : Plain start)
    (hstart : ∀ rest, Text.startsWord rest = true →
      Text.startsWord (Text.trimStart start ++ rest) = true)
    (hrear : Text.Halts Text.isWord rear) (hphrase : IsPhrase phrase)
    (hother : IsPhrase other) (state : State)
    (hstep : ∀ next, Text.Halts Text.isWord next →
      Text.Trimmed (Text.trimStart start ++ (phrase ++ next)) →
      Text.Trimmed (Text.trimStart start ++ (other ++ next)) →
      (state.readText before).step (Text.trimStart start ++ (phrase ++ next)) =
        (state.readText before).step (Text.trimStart start ++ (other ++ next))) :
    state.readText (before ++ (start ++ (phrase ++ rear))) =
      state.readText (before ++ (start ++ (other ++ rear))) := by
  obtain ⟨behind, more, hbehind, hlines⟩ := exists_lines hbefore hplain.unbroken hrear
  obtain ⟨next, others, hnext, hstatements⟩ := exists_statements hplain hstart hbehind
  have htrimmed : ∀ {phrase : List Char}, IsPhrase phrase →
      Text.Trimmed (Text.trimStart start ++ (phrase ++ next)) := by
    intro phrase hphrase
    have hmem : Text.trimStart start ++ (phrase ++ next) ∈
        statements (start ++ (phrase ++ behind)) := by
      rw [hstatements phrase hphrase]
      exact List.mem_cons_self
    rw [← trim_of_mem_statements hmem]
    exact Text.trimmed_trim _
  have hread : ∀ {phrase : List Char}, IsPhrase phrase →
      state.readText (before ++ (start ++ (phrase ++ rear))) =
        (others ++ more.flatMap statements).foldl State.step
          ((state.readText before).step (Text.trimStart start ++ (phrase ++ next))) := by
    intro phrase hphrase
    rw [State.readText_of_lines (hlines phrase hphrase), List.flatMap_cons,
      hstatements phrase hphrase]
    rfl
  rw [hread hphrase, hread hother, hstep next hnext (htrimmed hphrase) (htrimmed hother)]

/-! ## The first word of a definition by itself -/

/-- The statements on a line do not depend on the blanks around it. -/
theorem statements_trim (line : List Char) :
    statements (Text.trim line) = statements line := by
  unfold statements
  rw [Text.trim_trim]

/-- A blank line leaves no statement open. -/
theorem ongoing_step_nil (state : State) : (state.step []).ongoing = none := by
  have hstep : state.step [] = { state.close with heading := none } :=
    State.step_of_not_continues state (by decide)
  rw [hstep]
  exact State.close_ongoing state

theorem ongoing_foldl_nil {statements : List (List Char)} (h : ∀ statement ∈ statements,
    statement = []) {state : State} (hclosed : state.ongoing = none) :
    (statements.foldl State.step state).ongoing = none := by
  induction statements generalizing state with
  | nil => exact hclosed
  | cons statement statements ih =>
      obtain ⟨rfl, hmore⟩ := List.forall_mem_cons.mp h
      exact ih hmore (ongoing_step_nil state)

/-- A blank line is an empty statement. -/
theorem statements_of_blank {line : List Char} (h : ∀ c ∈ line, Text.isBlank c = true) :
    statements line = [[]] := by
  have hnil : Text.trim line = [] := by
    have hstart : Text.trimStart line = [] := List.dropWhile_eq_nil_iff.mpr h
    rw [Text.trim, hstart]
    rfl
  rw [statements, hnil]
  rfl

section Define

variable {define : List Char} (hspells : Text.Spells "DEFINE".toList define)
include hspells

theorem isPhrase_define : IsPhrase define :=
  isPhrase_of_isWord (Text.ne_nil_of_spells (by decide) hspells)
    (Text.isWord_of_spells (by decide) hspells)

theorem trimmed_define : Text.Trimmed define := by
  have hword : ∀ c ∈ define, Text.isWord c = true := Text.isWord_of_spells (by decide) hspells
  exact ⟨fun c hc => Text.isBlank_of_isWord (hword c (List.mem_of_head? hc)),
    fun c hc => Text.isBlank_of_isWord (hword c (List.mem_of_getLast? hc))⟩

theorem afterLiteral_define : Text.afterLiteralAnyCase? "DEFINE".toList define = some [] := by
  rw [← List.append_nil define]
  exact Text.afterLiteralAnyCase_of_spells hspells []

theorem startsWith_define : startsWith "DEFINE" define = true := by
  rw [startsWith, Text.keywordAnyCase?, afterLiteral_define hspells]
  rfl

/-- The word alone ends the statement before it and does nothing else. -/
theorem step_define (state : State) : state.step define = state.close := by
  have hbehind : Text.keywordThenBlanks? "DEFINE" define = none := by
    rw [Text.keywordThenBlanks?, afterLiteral_define hspells]
    rfl
  apply State.step_eq_close (trimmed_define hspells) (startsWith_define hspells)
  · rw [definedTable?, afterDefine?, hbehind]
    rfl
  · rw [startsField, hbehind]
    rfl

/-- A line with the word and blanks is one statement. -/
theorem statements_define {blanks : List Char} (hblanks : ∀ c ∈ blanks, Text.isBlank c = true) :
    statements (define ++ blanks) = [define] := by
  have hphrase := isPhrase_define hspells
  have htrim : Text.trim (define ++ blanks) = define := by
    have hstart : Text.trimStart (define ++ blanks) = define ++ blanks :=
      Text.dropWhile_of_halts (halts_of_startsWord (hphrase.startsWord_append blanks))
    rw [Text.trim, hstart]
    exact Text.trimEnd_append_blanks (trimmed_define hspells) hblanks
  have huncut : Uncut none define := by
    rw [← List.append_nil define]
    exact Uncut.append_left hphrase.plain.clear (Or.inl rfl)
  rw [← statements_trim, htrim]
  exact statements_of_uncut hphrase.ne_nil (trimmed_define hspells)
    (not_comment_of_startsWith_define (startsWith_define hspells)).2 huncut

/-- **Lines with nothing but `DEFINE` leave no statement open.** -/
theorem ongoing_readText_define {gap : List Char} (hgap : ∀ c ∈ gap, Text.isBlank c = true)
    (state : State) : (state.readText (define ++ gap)).ongoing = none := by
  have hphrase := isPhrase_define hspells
  -- The word stands on the first line, and the lines behind it are blank.
  obtain ⟨line, after, rfl, hline, hafter⟩ := exists_first_line gap
  have hlines : Text.lines (define ++ (line ++ after)) =
      (define ++ line) :: (Text.lines after).tail := by
    rw [← List.append_assoc]
    exact Text.lines_unbroken_append (List.append_ne_nil_of_left_ne_nil hphrase.ne_nil _)
      (hphrase.plain.unbroken.append hline) hafter
  have hfirst : statements (define ++ line) = [define] :=
    statements_define hspells fun c hc => hgap c (List.mem_append_left _ hc)
  have hmore : ∀ statement ∈ (Text.lines after).tail.flatMap statements, statement = [] := by
    intro statement hmem
    obtain ⟨blank, hblank, hmem⟩ := List.mem_flatMap.mp hmem
    have hall : ∀ c ∈ blank, Text.isBlank c = true := fun c hc =>
      hgap c (List.mem_append_right _ (Text.mem_of_mem_lines (List.mem_of_mem_tail hblank) hc))
    rw [statements_of_blank hall] at hmem
    exact List.mem_singleton.mp hmem
  rw [State.readText, hlines, List.flatMap_cons, hfirst, List.singleton_append,
    List.foldl_cons, step_define hspells]
  exact ongoing_foldl_nil hmore (State.close_ongoing state)

end Define

end Ddl
end SurrealSchema
