import Mathlib
import SurrealSchema.Proofs.Query.Scan
import SurrealSchema.Proofs.Text.Digits
import SurrealSchema.Proofs.Token

namespace SurrealSchema
namespace Query

/-!
# Clauses of canonical queries

Where the words of the expressions are plain, every clause is found at its own keyword and its
expression ends right before the next clause.
-/

/-! ## Plain words -/

/-- A word that no search for a clause stops at: neither does it end in the keyword of a clause nor
does it start with one, and it does not end its clause by a semicolon. -/
structure Plain (word : List Char) : Prop where
  solid : Text.Solid word
  semicolon : ∀ c ∈ word, c ≠ ';'
  ends : ∀ keyword ∈ clauseWords, ¬ Text.Ends keyword.toList word
  starts : ∀ keyword ∈ clauseWords, ¬ Text.Spells keyword.toList (word.takeWhile Text.isWord)

theorem capitals_of_mem_clauseWords : ∀ keyword ∈ clauseWords, Text.Capitals keyword.toList := by
  decide

theorem ne_nil_of_mem_clauseWords : ∀ keyword ∈ clauseWords, keyword.toList ≠ [] := by
  decide

theorem isWord_of_capitals {keyword : List Char} (h : Text.Capitals keyword) :
    ∀ c ∈ keyword, Text.isWord c = true :=
  Text.isWord_of_spells h (Text.spells_self h)

theorem solid_of_capitals {keyword : List Char} (h : Text.Capitals keyword) (hne : keyword ≠ []) :
    Text.Solid keyword := by
  refine ⟨hne, ?_⟩
  intro c hc
  exact Text.isBlank_of_isWord (isWord_of_capitals h c hc)

theorem solid_keyword {keyword : String} (h : keyword ∈ clauseWords) :
    Text.Solid keyword.toList :=
  solid_of_capitals (capitals_of_mem_clauseWords keyword h) (ne_nil_of_mem_clauseWords keyword h)

theorem Plain.avoids {keyword : String} (hkeyword : keyword ∈ clauseWords) {word : List Char}
    (h : Plain word) : Avoids keyword word :=
  ⟨h.solid.2, h.ends keyword hkeyword⟩

/-- A word that consists of word characters and, before or behind them, marks that are none is plain
if the word characters do not spell the keyword of a clause. -/
theorem plain_of_marks (front run back : List Char) (hne : front ++ run ++ back ≠ [])
    (hrun : ∀ c ∈ run, Text.isWord c = true)
    (hspells : ∀ keyword ∈ clauseWords, ¬ Text.Spells keyword.toList run)
    (hfront : ∀ c ∈ front, Text.isWord c = false) (hback : ∀ c ∈ back, Text.isWord c = false)
    (hmarks : ∀ c ∈ front ++ back, Text.isBlank c = false ∧ c ≠ ';') :
    Plain (front ++ run ++ back) where
  solid := by
    refine ⟨hne, ?_⟩
    intro c hc
    rcases List.mem_append.mp hc with hc | hc
    · rcases List.mem_append.mp hc with hc | hc
      · exact (hmarks c (List.mem_append_left _ hc)).1
      · exact Text.isBlank_of_isWord (hrun c hc)
    · exact (hmarks c (List.mem_append_right _ hc)).1
  semicolon := by
    intro c hc
    rcases List.mem_append.mp hc with hc | hc
    · rcases List.mem_append.mp hc with hc | hc
      · exact (hmarks c (List.mem_append_left _ hc)).2
      · rintro rfl
        exact absurd (hrun _ hc) (by decide)
    · exact (hmarks c (List.mem_append_right _ hc)).2
  ends := by
    intro keyword hkeyword hends
    have hcapitals := capitals_of_mem_clauseWords keyword hkeyword
    cases hlast : back.getLast? with
    | none =>
        rw [List.getLast?_eq_none_iff] at hlast
        rw [hlast, List.append_nil] at hends
        have hboundary : Text.afterWord front.getLast? = false := by
          cases hl : front.getLast? with
          | none => rfl
          | some c => exact hfront c (List.mem_of_getLast? hl)
        exact hspells keyword hkeyword (Text.spells_of_ends hcapitals hboundary hrun hends)
    | some c =>
        have hboundary : Text.afterWord (front ++ run ++ back).getLast? = false := by
          rw [List.getLast?_append, hlast]
          exact hback c (List.mem_of_getLast? hlast)
        exact Text.not_ends_of_getLast hcapitals (ne_nil_of_mem_clauseWords keyword hkeyword)
          hboundary hends
  starts := by
    intro keyword hkeyword hstarts
    have hhalts : Text.Halts Text.isWord back := by
      intro c hc
      exact hback c (List.mem_of_head? hc)
    cases front with
    | nil =>
        rw [List.nil_append, Text.takeWhile_run hrun hhalts] at hstarts
        exact hspells keyword hkeyword hstarts
    | cons c front =>
        have hc : Text.isWord c = false := hfront c List.mem_cons_self
        have hnone : ((c :: front) ++ run ++ back).takeWhile Text.isWord = [] :=
          Text.takeWhile_of_halts (Text.halts_cons hc _)
        rw [hnone] at hstarts
        exact Text.ne_nil_of_spells (ne_nil_of_mem_clauseWords keyword hkeyword) hstarts rfl

/-- A word of the query language that is not reserved spells no keyword of a clause. -/
theorem IsPlainWord.not_spells {word : String} (h : IsPlainWord word) :
    ∀ keyword ∈ clauseWords, ¬ Text.Spells keyword.toList word.toList := by
  intro keyword hkeyword hspells
  apply h.not_reserved keyword (List.mem_append_left _ hkeyword)
  have hascii : ∀ c ∈ word.toList, c.toNat < 128 := by
    intro c hc
    exact (Token.isWord_of_continuesName (h.chars c hc)).1
  unfold lowerName
  rw [Text.lower_eq_of_spells (capitals_of_mem_clauseWords keyword hkeyword) hascii hspells]

theorem IsPlainWord.isWord {word : String} (h : IsPlainWord word) :
    ∀ c ∈ word.toList, Text.isWord c = true := by
  intro c hc
  exact (Token.isWord_of_continuesName (h.chars c hc)).2

/-- A text that is one run of word characters and spells no keyword of a clause. -/
structure PlainRun (run : List Char) : Prop where
  ne_nil : run ≠ []
  isWord : ∀ c ∈ run, Text.isWord c = true
  not_spells : ∀ keyword ∈ clauseWords, ¬ Text.Spells keyword.toList run

theorem IsPlainWord.run {word : String} (h : IsPlainWord word) : PlainRun word.toList :=
  ⟨h.ne_empty, h.isWord, h.not_spells⟩

theorem PlainRun.plain {run : List Char} (h : PlainRun run) : Plain run := by
  have hne : [] ++ run ++ [] ≠ [] := by
    rw [List.nil_append, List.append_nil]
    exact h.ne_nil
  have hplain := plain_of_marks [] run [] hne h.isWord h.not_spells (by intro c hc; contradiction)
    (by intro c hc; contradiction) (by intro c hc; contradiction)
  rw [List.nil_append, List.append_nil] at hplain
  exact hplain

theorem PlainRun.plain_comma {run : List Char} (h : PlainRun run) : Plain (run ++ [',']) := by
  have hword : Text.isWord ',' = false := by
    decide
  have hmark : Text.isBlank ',' = false ∧ ',' ≠ ';' := by
    decide
  exact plain_of_marks [] run [','] (by simp) h.isWord h.not_spells
    (by intro c hc; contradiction) (List.forall_mem_singleton.mpr hword)
    (List.forall_mem_singleton.mpr hmark)

theorem PlainRun.plain_quoted {run : List Char} (h : PlainRun run) :
    Plain ('\'' :: run ++ ['\'']) := by
  have hword : Text.isWord '\'' = false := by
    decide
  have hmark : Text.isBlank '\'' = false ∧ '\'' ≠ ';' := by
    decide
  exact plain_of_marks ['\''] run ['\''] (by simp) h.isWord h.not_spells
    (List.forall_mem_singleton.mpr hword) (List.forall_mem_singleton.mpr hword)
    (List.forall_mem_cons.mpr ⟨hmark, List.forall_mem_singleton.mpr hmark⟩)

/-- The characters of operators are marks. -/
theorem isMark_of_isOperator {c : Char} (h : isOperator c = true) :
    Text.isWord c = false ∧ Text.isBlank c = false ∧ c ≠ ';' := by
  have hmem : c ∈ ['=', '<', '>', '!', '~', '?'] := List.contains_iff_mem.mp h
  simp only [List.mem_cons, List.not_mem_nil, or_false] at hmem
  rcases hmem with rfl | rfl | rfl | rfl | rfl | rfl <;> decide

theorem plain_operator {operator : List Char} (hne : operator ≠ [])
    (h : ∀ c ∈ operator, isOperator c = true) : Plain operator := by
  have hne' : operator ++ [] ++ [] ≠ [] := by
    rw [List.append_nil, List.append_nil]
    exact hne
  have hempty : ∀ keyword ∈ clauseWords, ¬ Text.Spells keyword.toList [] := by
    decide
  have hplain := plain_of_marks operator [] [] hne' (by intro c hc; contradiction) hempty
    (fun c hc => (isMark_of_isOperator (h c hc)).1) (by intro c hc; contradiction)
    (by intro c hc; rw [List.append_nil] at hc; exact (isMark_of_isOperator (h c hc)).2)
  rw [List.append_nil, List.append_nil] at hplain
  exact hplain

theorem plainRun_of_capitals {word : List Char} (hcapitals : Text.Capitals word) (hne : word ≠ [])
    (hspells : ∀ keyword ∈ clauseWords, ¬ Text.Spells keyword.toList word) : PlainRun word :=
  ⟨hne, isWord_of_capitals hcapitals, hspells⟩

theorem plainRun_and : PlainRun "AND".toList :=
  plainRun_of_capitals (by decide) (by decide) (by decide)

theorem plainRun_by : PlainRun "BY".toList :=
  plainRun_of_capitals (by decide) (by decide) (by decide)

theorem plainRun_direction (direction : Direction) : PlainRun direction.keyword.toList := by
  cases direction
  · exact plainRun_of_capitals (by decide) (by decide) (by decide)
  · exact plainRun_of_capitals (by decide) (by decide) (by decide)

/-- The decimal digits of a number are a plain run. -/
theorem plainRun_digits (count : Nat) : PlainRun (toString count).toList := by
  rw [Text.toList_toString]
  refine ⟨Nat.toDigits_ne_nil, ?_, ?_⟩
  · intro c hc
    exact Text.isWord_of_isDigit (Text.isDigit_of_mem_toDigits hc)
  · intro keyword hkeyword
    exact Text.not_spells_toDigits (capitals_of_mem_clauseWords keyword hkeyword)
      (ne_nil_of_mem_clauseWords keyword hkeyword) (List.append_nil _).symm

/-! ## Where expressions end -/

/-- Whether some clauses start with words that end the clause before them. -/
def AreClauses (clauses : List Clause) : Prop :=
  ∀ clause ∈ clauses, clause.keyword ∈ clauseWords

theorem clausesText_cons (clause : Clause) (clauses : List Clause) :
    clausesText (clause :: clauses) =
      ' ' :: (clause.keyword.toList ++ ' ' :: (clause.body ++ clausesText clauses)) := by
  simp [clausesText, Clause.text]

/-- There is nothing where the clauses are written, or a space. -/
theorem clausesText_cases (clauses : List Clause) :
    clausesText clauses = [] ∨ ∃ text, clausesText clauses = ' ' :: text := by
  cases clauses with
  | nil => exact Or.inl rfl
  | cons clause clauses => exact Or.inr ⟨_, clausesText_cons clause clauses⟩

theorem halts_clausesText {p : Char → Bool} (hspace : p ' ' = false) (clauses : List Clause) :
    Text.Halts p (clausesText clauses) := by
  rcases clausesText_cases clauses with hnil | ⟨text, hcons⟩
  · rw [hnil]
    exact Text.halts_nil p
  · rw [hcons]
    exact Text.halts_cons hspace text

/-- A word that spells no keyword of a clause starts no clause. -/
theorem startsClause_append {word rest : List Char}
    (hword : ∀ keyword ∈ clauseWords, ¬ Text.Spells keyword.toList (word.takeWhile Text.isWord))
    (hrest : Text.Halts Text.isWord rest) : startsClause (word ++ rest) = false := by
  have hall : ∀ keyword ∈ clauseWords,
      ¬ (Text.keywordAnyCase? keyword none (word ++ rest)).isSome = true := by
    intro keyword hkeyword hsome
    obtain ⟨after, hafter⟩ := Option.isSome_iff_exists.mp hsome
    have hspells :=
      Text.spells_of_keywordAnyCase (capitals_of_mem_clauseWords keyword hkeyword) hafter
    rw [Text.takeWhile_append_of_halts hrest] at hspells
    exact hword keyword hkeyword hspells
  exact List.any_eq_false.mpr hall

/-- A keyword of a clause with a space behind it starts a clause. -/
theorem startsClause_keyword {keyword : String} (hkeyword : keyword ∈ clauseWords)
    (rest : List Char) : startsClause (keyword.toList ++ ' ' :: rest) = true := by
  have hread : Text.keywordAnyCase? keyword none (keyword.toList ++ ' ' :: rest) =
      some (' ' :: rest) := by
    have hspace : Text.startsWord (' ' :: rest) = false := by
      show Text.isWord ' ' = false
      decide
    unfold Text.keywordAnyCase?
    rw [Text.afterLiteralAnyCase_of_spells
      (Text.spells_self (capitals_of_mem_clauseWords keyword hkeyword))]
    simp [Text.afterWord, hspace]
  exact List.any_eq_true.mpr ⟨keyword, hkeyword, by rw [hread]; rfl⟩

theorem upTo_congr (stop : Option Char → List Char → Bool) (before before' : Option Char)
    (text : List Char) (h : stop before text = stop before' text) :
    Text.upTo stop before text = Text.upTo stop before' text := by
  cases text with
  | nil => rfl
  | cons c text => rw [Text.upTo, Text.upTo, h]

/-- Characters that are neither blanks nor semicolons belong to the expression. -/
theorem upTo_word {word : List Char} (hblank : ∀ c ∈ word, Text.isBlank c = false)
    (hsemicolon : ∀ c ∈ word, c ≠ ';') (before : Option Char) (rest : List Char) :
    Text.upTo endsClause before (word ++ rest) = word ++ Text.upTo endsClause before rest := by
  induction word generalizing before with
  | nil => rfl
  | cons c word ih =>
      have hgoes : endsClause before (c :: (word ++ rest)) = false := by
        have hc := hsemicolon c List.mem_cons_self
        unfold endsClause
        rw [Text.afterBlanks_of_halts (Text.halts_cons (hblank c List.mem_cons_self) _)]
        simp [hc]
      have hrest := ih (fun d hd => hblank d (List.mem_cons_of_mem _ hd))
        (fun d hd => hsemicolon d (List.mem_cons_of_mem _ hd)) (some c)
      rw [List.cons_append, Text.upTo, hgoes, hrest, upTo_congr _ (some c) before rest rfl]
      rfl

/-- The clauses that follow end the expression. -/
theorem upTo_clausesText {clauses : List Clause} (h : AreClauses clauses)
    (before : Option Char) : Text.upTo endsClause before (clausesText clauses) = [] := by
  cases clauses with
  | nil => rfl
  | cons clause clauses =>
      have hkeyword := h clause List.mem_cons_self
      have hhalts := (solid_keyword hkeyword).halts_append
        (' ' :: (clause.body ++ clausesText clauses))
      have hends : endsClause before (clausesText (clause :: clauses)) = true := by
        unfold endsClause
        rw [clausesText_cons, Text.afterBlanks_space hhalts]
        simp [startsClause_keyword hkeyword]
      rw [clausesText_cons] at hends ⊢
      rw [Text.upTo, hends]
      rfl

/-- A space with plain words behind it does not end an expression. -/
theorem endsClause_spaced {words : List Char} (hwords : Text.Spaced Plain words)
    (clauses : List Clause) (before : Option Char) :
    endsClause before (' ' :: (words ++ clausesText clauses)) = false := by
  obtain ⟨word, rest, hword, rfl, hrest⟩ := hwords.exists_word
  have hhalts : Text.Halts Text.isWord (rest ++ clausesText clauses) := by
    rcases hrest with rfl | ⟨more, rfl⟩
    · exact halts_clausesText (by decide) clauses
    · exact Text.halts_cons (by decide) _
  have hstarts := startsClause_append hword.starts hhalts
  rw [List.append_assoc]
  unfold endsClause
  rw [Text.afterBlanks_space (hword.solid.halts_append _)]
  obtain ⟨c, more, rfl, -⟩ := hword.solid.exists_cons
  have hc : c ≠ ';' := hword.semicolon c List.mem_cons_self
  simp only [hstarts, Bool.or_false]
  simp [hc]

/-- **The expression of a clause ends where its plain words end.** -/
theorem upTo_spaced {words : List Char} (hwords : Text.Spaced Plain words) {clauses : List Clause}
    (hclauses : AreClauses clauses) (before : Option Char) :
    Text.upTo endsClause before (words ++ clausesText clauses) = words := by
  induction hwords generalizing before with
  | word hword =>
      rw [upTo_word hword.solid.2 hword.semicolon, upTo_clausesText hclauses, List.append_nil]
  | @cons word words hword hrest ih =>
      have hgoes := endsClause_spaced hrest clauses
      rw [List.append_assoc, List.cons_append, upTo_word hword.solid.2 hword.semicolon, Text.upTo,
        hgoes, ih]
      rfl

/-- An expression of plain words is read up to the clauses behind it. -/
theorem expression?_spaced {words : List Char} (hwords : Text.Spaced Plain words)
    {clauses : List Clause} (hclauses : AreClauses clauses) :
    expression? (words ++ clausesText clauses) = some words := by
  have hfull := upTo_spaced hwords hclauses none
  cases hcons : words with
  | nil => exact absurd hcons (hwords.ne_nil fun word hword => hword.solid.1)
  | cons c rest =>
      rw [hcons] at hfull
      rw [List.cons_append, Text.upTo] at hfull
      split at hfull
      · contradiction
      · rw [List.cons_append, expression?]
        rw [hfull]

/-! ## Where clauses are found -/

/-- A clause with a keyword that starts clauses and an expression of plain words. -/
structure Clause.IsPlain (clause : Clause) : Prop where
  keyword : clause.keyword ∈ clauseWords
  expression : Text.Spaced Plain clause.expression

theorem Clause.IsPlain.body {clause : Clause} (h : clause.IsPlain) :
    Text.Spaced Plain clause.body := by
  unfold Clause.body
  split
  · exact .cons plainRun_by.plain h.expression
  · exact h.expression

/-- No keyword of a clause is spelled by another one. -/
theorem not_spells_keyword : ∀ keyword ∈ clauseWords, ∀ other ∈ clauseWords,
    other ≠ keyword → ¬ Text.Spells keyword.toList other.toList := by
  decide

theorem avoids_keyword {keyword other : String} (hkeyword : keyword ∈ clauseWords)
    (hother : other ∈ clauseWords) (hne : other ≠ keyword) : Avoids keyword other.toList := by
  have hword := isWord_of_capitals (capitals_of_mem_clauseWords other hother)
  refine ⟨(solid_keyword hother).2, ?_⟩
  intro hends
  rw [← List.nil_append other.toList] at hends
  have hspells := Text.spells_of_ends (capitals_of_mem_clauseWords keyword hkeyword) rfl hword hends
  exact not_spells_keyword keyword hkeyword other hother hne hspells

/-- Plain clauses of other keywords. -/
def Others (keyword : String) (clauses : List Clause) : Prop :=
  ∀ clause ∈ clauses, clause.IsPlain ∧ clause.keyword ≠ keyword

theorem Others.append {keyword : String} {first second : List Clause}
    (hfirst : Others keyword first) (hsecond : Others keyword second) :
    Others keyword (first ++ second) := by
  intro clause hmem
  rcases List.mem_append.mp hmem with hmem | hmem
  · exact hfirst clause hmem
  · exact hsecond clause hmem

theorem Others.areClauses {keyword : String} {clauses : List Clause}
    (h : Others keyword clauses) : AreClauses clauses := by
  intro clause hmem
  exact (h clause hmem).1.keyword

section Find

variable {α : Type} {keyword : String} {read : List Char → Option α}

/-- A clause of another keyword is passed over. -/
theorem find_clausesText_of_ne (hkeyword : keyword ∈ clauseWords) {clause : Clause}
    (hclause : clause.IsPlain) (hne : clause.keyword ≠ keyword) (clauses : List Clause) :
    find keyword read none (clausesText (clause :: clauses)) =
      find keyword read none (clausesText clauses) := by
  have hcapitals := capitals_of_mem_clauseWords keyword hkeyword
  have hnonempty := ne_nil_of_mem_clauseWords keyword hkeyword
  have hwords : Text.Spaced (Avoids keyword) (clause.keyword.toList ++ ' ' :: clause.body) :=
    .cons (avoids_keyword hkeyword hclause.keyword hne)
      (hclause.body.mono fun word hword => hword.avoids hkeyword)
  rw [clausesText_cons, find_space hcapitals hnonempty]
  cases clauses with
  | nil =>
      rw [show clausesText [] = [] from rfl, List.append_nil,
        find_spaced_end hcapitals hnonempty hwords, find_nil hnonempty]
  | cons next clauses =>
      rw [clausesText_cons, ← List.cons_append, ← List.append_assoc,
        find_spaced hcapitals hnonempty hwords, find_space hcapitals hnonempty]

/-- The clause of a keyword is found among clauses of other keywords, if it is there. -/
theorem find_clausesText (hkeyword : keyword ∈ clauseWords) {before after : List Clause}
    {clause? : Option Clause} {value : Clause → α} (hbefore : Others keyword before)
    (hafter : Others keyword after)
    (hclause : ∀ clause, clause? = some clause → clause.IsPlain ∧ clause.keyword = keyword ∧
      read (clause.body ++ clausesText after) = some (value clause)) :
    find keyword read none (clausesText (before ++ clause?.toList ++ after)) =
      clause?.map value := by
  have hcapitals := capitals_of_mem_clauseWords keyword hkeyword
  have hnonempty := ne_nil_of_mem_clauseWords keyword hkeyword
  have habsent : ∀ clauses : List Clause, Others keyword clauses →
      find keyword read none (clausesText clauses) = none := by
    intro clauses hclauses
    induction clauses with
    | nil => exact find_nil hnonempty none
    | cons other clauses ih =>
        obtain ⟨hplain, hne⟩ := hclauses other List.mem_cons_self
        rw [find_clausesText_of_ne hkeyword hplain hne]
        exact ih fun clause hmem => hclauses clause (List.mem_cons_of_mem _ hmem)
  induction before with
  | nil =>
      cases clause? with
      | none => exact habsent after hafter
      | some clause =>
          obtain ⟨hplain, rfl, hread⟩ := hclause clause rfl
          have hhalts : Text.Halts Text.isBlank (clause.body ++ clausesText after) := by
            obtain ⟨word, rest, hword, hsplit, -⟩ := hplain.body.exists_word
            rw [hsplit, List.append_assoc]
            exact hword.solid.halts_append _
          show find clause.keyword read none (clausesText (clause :: after)) = _
          rw [clausesText_cons, find_space hcapitals hnonempty]
          exact find_keyword hcapitals hnonempty (by decide) hhalts hread
  | cons other before ih =>
      obtain ⟨hplain, hne⟩ := hbefore other List.mem_cons_self
      rw [List.append_assoc, List.cons_append, find_clausesText_of_ne hkeyword hplain hne,
        ← List.append_assoc]
      exact ih fun clause hmem => hbefore clause (List.mem_cons_of_mem _ hmem)

end Find

end Query
end SurrealSchema
