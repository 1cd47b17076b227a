import SurrealSchema.Ddl.Statement
import SurrealSchema.Proofs.Text.Lines
import SurrealSchema.Proofs.Text.Trim

namespace SurrealSchema
namespace Ddl

/-!
# One statement on a line

A line is one statement when its only semicolon outside quotes is the one at its end.  `Confined`
texts have quotes only around one payload and semicolons only inside it; with a semicolon behind it
such a text is one statement.
-/

/-! ## Confined texts -/

/-- Characters that open no quotes and end neither a statement nor a line. -/
def isClear (c : Char) : Bool :=
  c != '\'' && c != '"' && c != ';' && !Text.isLineBreak c

/-- Characters that may stand between quotes. -/
def isPayload (c : Char) : Bool :=
  c != '\'' && c != '"' && !Text.isLineBreak c

/-- Whether a text has neither quotes nor semicolons nor line breaks. -/
def Clear (text : List Char) : Prop :=
  ∀ c ∈ text, isClear c = true

/-- Whether a text has neither quotes nor line breaks. -/
def IsPayload (text : List Char) : Prop :=
  ∀ c ∈ text, isPayload c = true

-- Only the characters of the text are looked at, not all characters there are.
instance (text : List Char) : Decidable (Clear text) :=
  decidable_of_iff (text.all isClear = true) List.all_eq_true

instance (text : List Char) : Decidable (IsPayload text) :=
  decidable_of_iff (text.all isPayload = true) List.all_eq_true

/-- Word characters are clear. -/
theorem isClear_of_isWord {c : Char} (h : Text.isWord c = true) : isClear c = true := by
  have hmark : ∀ {mark : Char}, Text.isWord mark = false → (c != mark) = true := by
    intro mark hmark
    rw [bne_iff_ne]
    rintro rfl
    rw [hmark] at h
    contradiction
  have hbreak : Text.isLineBreak c = false := by
    cases hc : Text.isLineBreak c with
    | false => rfl
    | true =>
        rw [Text.isWord_of_isBlank (Text.isBlank_of_isLineBreak hc)] at h
        contradiction
  unfold isClear
  rw [hmark (by decide), hmark (by decide), hmark (by decide), hbreak]
  rfl

/-- Texts on one line that have at most one payload between quotes, and semicolons only in it. -/
inductive Confined : List Char → Prop
  | clear {text : List Char} (h : Clear text) : Confined text
  | quoted {before payload after : List Char}
      (hbefore : Clear before) (hpayload : IsPayload payload)
      (hafter : Clear after) : Confined (before ++ '\'' :: (payload ++ '\'' :: after))

theorem Clear.append {text more : List Char} (h : Clear text) (hmore : Clear more) :
    Clear (text ++ more) := by
  intro c hc
  rcases List.mem_append.mp hc with hc | hc
  · exact h c hc
  · exact hmore c hc

theorem Confined.append_left {text more : List Char} (h : Clear text) (hmore : Confined more) :
    Confined (text ++ more) := by
  cases hmore with
  | clear hmore => exact .clear (h.append hmore)
  | quoted hbefore hpayload hafter =>
      rw [← List.append_assoc]
      exact .quoted (h.append hbefore) hpayload hafter

/-- Blanks at the end of a confined text are in no payload. -/
theorem Confined.trimEnd {text : List Char} (h : Confined text) : Confined (Text.trimEnd text) := by
  have hclear : ∀ {text : List Char}, Clear text → Clear (Text.trimEnd text) := by
    intro text h c hc
    exact h c (Text.mem_of_mem_dropTrailing hc)
  cases h with
  | clear h => exact .clear (hclear h)
  | @quoted before payload after hbefore hpayload hafter =>
      have hquote : Text.isBlank '\'' = false := by decide
      have hsplit : Text.trimEnd (before ++ '\'' :: (payload ++ '\'' :: after)) =
          before ++ '\'' :: (payload ++ '\'' :: Text.trimEnd after) := by
        unfold Text.trimEnd
        rw [Text.dropTrailing_append_of_last hquote, Text.dropTrailing_append_of_last hquote]
      rw [hsplit]
      exact .quoted hbefore hpayload (hclear hafter)

theorem Confined.unbroken {text : List Char} (h : Confined text) : Text.Unbroken text := by
  have hclear : ∀ {text : List Char}, Clear text → Text.Unbroken text := by
    intro text h c hc
    have := h c hc
    simp only [isClear, Bool.and_eq_true, Bool.not_eq_true'] at this
    exact this.2
  cases h with
  | clear h => exact hclear h
  | quoted hbefore hpayload hafter =>
      intro c hc
      have hquote : Text.isLineBreak '\'' = false := by decide
      rcases List.mem_append.mp hc with hc | hc
      · exact hclear hbefore c hc
      · rcases List.mem_cons.mp hc with rfl | hc
        · exact hquote
        · rcases List.mem_append.mp hc with hc | hc
          · have := hpayload c hc
            simp only [isPayload, Bool.and_eq_true, Bool.not_eq_true'] at this
            exact this.2
          · rcases List.mem_cons.mp hc with rfl | hc
            · exact hquote
            · exact hclear hafter c hc

/-! ## Pieces -/

/-- Whether a text is cut nowhere but at its end. -/
def Uncut (quote : Option Char) (text : List Char) : Prop :=
  pieces quote text = [text] ∨ pieces quote text = [text, []]

instance (quote : Option Char) (text : List Char) : Decidable (Uncut quote text) :=
  inferInstanceAs (Decidable (_ ∨ _))

theorem Uncut.cons {quote quote' : Option Char} {c : Char} {text : List Char}
    (h : Uncut quote' text)
    (hstep : pieces quote (c :: text) = Text.consFirst c (pieces quote' text)) :
    Uncut quote (c :: text) := by
  rcases h with h | h
  · exact Or.inl (by rw [hstep, h]; rfl)
  · exact Or.inr (by rw [hstep, h]; rfl)

theorem pieces_none_of_clear {c : Char} (hc : isClear c = true) (text : List Char) :
    pieces none (c :: text) = Text.consFirst c (pieces none text) := by
  simp only [isClear, Bool.and_eq_true, bne_iff_ne, ne_eq] at hc
  obtain ⟨⟨⟨hsingle, hdouble⟩, hsemicolon⟩, -⟩ := hc
  have hquote : ¬ (c = '"' ∨ c = '\'') := by
    rintro (h | h)
    · exact hdouble h
    · exact hsingle h
  rw [pieces, if_neg hsemicolon, if_neg hquote]

theorem Uncut.append_left {text rest : List Char} (h : Clear text) (hrest : Uncut none rest) :
    Uncut none (text ++ rest) := by
  induction text with
  | nil => exact hrest
  | cons c text ih =>
      have htext := ih fun d hd => h d (List.mem_cons_of_mem _ hd)
      exact htext.cons (pieces_none_of_clear (h c List.mem_cons_self) _)

/-- Between quotes a backslash takes the next character with it. -/
theorem Uncut.escape {quote : Char} {text : List Char} (h : Uncut (some quote) text) (d : Char) :
    Uncut (some quote) ('\\' :: d :: text) := by
  have hstep : pieces (some quote) ('\\' :: d :: text) =
      Text.consFirst '\\' (Text.consFirst d (pieces (some quote) text)) := by
    rw [pieces, if_pos rfl]
  rcases h with h | h
  · exact Or.inl (by rw [hstep, h]; rfl)
  · exact Or.inr (by rw [hstep, h]; rfl)

theorem Uncut.between {quote c : Char} {text : List Char} (h : Uncut (some quote) text)
    (hescape : c ≠ '\\') (hquote : c ≠ quote) : Uncut (some quote) (c :: text) := by
  apply h.cons
  rw [pieces.eq_def]
  simp only [if_neg hescape, if_neg hquote]

/-- Between quotes a text is cut nowhere if the quotes are not closed. -/
theorem uncut_of_open {quote : Char} {text : List Char} (h : quote ∉ text) :
    Uncut (some quote) text := by
  induction text using List.twoStepInduction with
  | nil => exact Or.inl rfl
  | singleton c =>
      by_cases hescape : c = '\\'
      · rw [hescape]
        exact Or.inl rfl
      · have hnil : Uncut (some quote) [] := Or.inl rfl
        exact hnil.between hescape fun hc => h (by rw [hc]; exact List.mem_cons_self)
  | cons_cons c d text ih ihd =>
      have hrest : quote ∉ d :: text := fun hmem => h (List.mem_cons_of_mem _ hmem)
      by_cases hescape : c = '\\'
      · rw [hescape]
        exact (ih fun hmem => hrest (List.mem_cons_of_mem _ hmem)).escape d
      · exact (ihd d hrest).between hescape fun hc => h (by rw [hc]; exact List.mem_cons_self)

/-- Where the quotes may only be closed at one place a text is cut nowhere if what follows is not;
a backslash before that place leaves them open. -/
theorem uncut_of_closed {payload rest : List Char} (hpayload : '\'' ∉ payload)
    (hopen : '\'' ∉ rest) (hrest : Uncut none rest) :
    Uncut (some '\'') (payload ++ '\'' :: rest) := by
  have hclose : Uncut (some '\'') ('\'' :: rest) := by
    apply hrest.cons
    rw [pieces.eq_def]
    rfl
  induction payload using List.twoStepInduction with
  | nil => exact hclose
  | singleton c =>
      by_cases hescape : c = '\\'
      · rw [hescape]
        exact (uncut_of_open hopen).escape '\''
      · exact hclose.between hescape fun hc => hpayload (by rw [hc]; exact List.mem_cons_self)
  | cons_cons c d payload ih ihd =>
      have htail : '\'' ∉ d :: payload := fun hmem => hpayload (List.mem_cons_of_mem _ hmem)
      by_cases hescape : c = '\\'
      · rw [hescape]
        exact (ih fun hmem => htail (List.mem_cons_of_mem _ hmem)).escape d
      · exact (ihd d htail).between hescape fun hc =>
          hpayload (by rw [hc]; exact List.mem_cons_self)

/-! ## Written definitions -/

theorem IsPayload.not_mem {payload : List Char} (h : IsPayload payload) {c : Char}
    (hc : isPayload c = false) : c ∉ payload := by
  intro hmem
  rw [h c hmem] at hc
  contradiction

theorem Clear.not_mem {text : List Char} (h : Clear text) {c : Char} (hc : isClear c = false) :
    c ∉ text := by
  intro hmem
  rw [h c hmem] at hc
  contradiction

/-- A confined text with a semicolon behind it is cut nowhere but at its end. -/
theorem Confined.uncut {text : List Char} (h : Confined text) : Uncut none (text ++ [';']) := by
  have hsemicolon : Uncut none [';'] := Or.inr rfl
  cases h with
  | clear h => exact hsemicolon.append_left h
  | @quoted before payload after hbefore hpayload hafter =>
      have hopen : '\'' ∉ after ++ [';'] := by
        intro hmem
        rcases List.mem_append.mp hmem with hmem | hmem
        · exact hafter.not_mem (by decide) hmem
        · exact absurd (List.mem_singleton.mp hmem) (by decide)
      have hspan : Uncut none ('\'' :: (payload ++ '\'' :: (after ++ [';']))) := by
        have hrest := hsemicolon.append_left hafter
        apply (uncut_of_closed (hpayload.not_mem (by decide)) hopen hrest).cons
        rw [pieces.eq_def]
        rfl
      have hsplit : before ++ '\'' :: (payload ++ '\'' :: after) ++ [';'] =
          before ++ '\'' :: (payload ++ '\'' :: (after ++ [';'])) := by
        simp only [List.append_assoc, List.cons_append]
      rw [hsplit]
      exact hspan.append_left hbefore

/-- A confined text does not end in a semicolon. -/
theorem Confined.getLast_ne {text : List Char} (h : Confined text) : text.getLast? ≠ some ';' := by
  intro hlast
  cases h with
  | clear h => exact h.not_mem (by decide) (List.mem_of_getLast? hlast)
  | @quoted before payload after hbefore hpayload hafter =>
      have hne : '\'' :: after ≠ [] := List.cons_ne_nil _ _
      rw [List.getLast?_append_of_ne_nil _ (List.cons_ne_nil _ _), ← List.cons_append,
        List.getLast?_append_of_ne_nil _ hne] at hlast
      rcases List.mem_cons.mp (List.mem_of_getLast? hlast) with hquote | hmem
      · exact absurd hquote (by decide)
      · exact hafter.not_mem (by decide) hmem

/-- A confined text without blanks around it is written with a semicolon behind it. -/
theorem Confined.terminated {text : List Char} (h : Confined text) (htrimmed : Text.Trimmed text) :
    terminated text = text ++ [';'] := by
  unfold Ddl.terminated isTerminated Text.trimEnd
  dsimp only
  rw [Text.trim_eq_self htrimmed, Text.dropTrailing_eq_self htrimmed.2]
  have hlast : (text.getLast? == some ';') = false := beq_eq_false_iff_ne.mpr h.getLast_ne
  rw [hlast]
  rfl

/-- A text behind which a semicolon stands ends its statement. -/
theorem isTerminated_append (text : List Char) : isTerminated (text ++ [';']) = true := by
  have hlast : ∀ c, (text ++ [';']).getLast? = some c → Text.isBlank c = false := by
    intro c hc
    rw [List.getLast?_append_of_ne_nil _ (List.cons_ne_nil _ _)] at hc
    rw [← Option.some.inj hc]
    decide
  unfold isTerminated Text.trimEnd
  rw [Text.dropTrailing_eq_self hlast, List.getLast?_append_of_ne_nil _ (List.cons_ne_nil _ _)]
  rfl

/-- A written definition ends in a semicolon. -/
theorem endsInLine_terminated (definition : List Char) :
    Text.EndsInLine (terminated definition) := by
  have hsemicolon : Text.isLineBreak ';' = false := by decide
  intro c hc
  unfold terminated at hc
  dsimp only at hc
  split at hc
  · next hend =>
      unfold isTerminated Text.trimEnd at hend
      rw [Text.dropTrailing_eq_self (Text.trimmed_trim definition).2, hc, beq_iff_eq] at hend
      rw [Option.some.inj hend]
      exact hsemicolon
  · rw [List.getLast?_append_of_ne_nil _ (List.cons_ne_nil _ _)] at hc
    rw [← Option.some.inj hc]
    exact hsemicolon

/-- A line that is cut nowhere but at its end is one statement. -/
theorem statements_of_uncut {line : List Char} (hne : line ≠ []) (htrimmed : Text.Trimmed line)
    (hcomment : startsComment line = false) (h : Uncut none line) : statements line = [line] := by
  have hempty : line.isEmpty = false := List.isEmpty_eq_false_iff.mpr hne
  unfold statements
  dsimp only
  rw [Text.trim_eq_self htrimmed, hempty, hcomment]
  rcases h with h | h
  · rw [h]
    simp [Text.trim_eq_self htrimmed, hempty]
  · have hrest : ([[]] : List (List Char)).takeWhile
        (fun piece => !startsComment (Text.trimStart piece)) = [[]] := rfl
    have hnil : Text.trim [] = [] := rfl
    rw [h]
    simp [hrest, hnil, Text.trim_eq_self htrimmed, hempty]

/-! ## The statements of items -/

/-- The statements of an item that is followed by another one. -/
def itemStatements (item : List Char) : List (List Char) :=
  (Text.itemLines item).flatMap statements

/-- The statements of an item are without blanks around them. -/
theorem trim_of_mem_statements {line statement : List Char} (h : statement ∈ statements line) :
    Text.trim statement = statement := by
  unfold statements at h
  dsimp only at h
  split at h
  · rw [List.mem_singleton.mp h, Text.trim_trim]
  · split at h
    · contradiction
    · obtain ⟨piece, -, rfl⟩ := List.mem_map.mp (List.mem_filter.mp h).1
      exact Text.trim_trim piece

theorem trim_of_mem_itemStatements {item statement : List Char}
    (h : statement ∈ itemStatements item) : Text.trim statement = statement := by
  obtain ⟨line, -, hmem⟩ := List.mem_flatMap.mp h
  exact trim_of_mem_statements hmem

/-- A blank line or a comment without blanks around it is passed on. -/
theorem itemStatements_of_comment {item : List Char} (hunbroken : Text.Unbroken item)
    (h : (item.isEmpty || startsComment item) = true) (htrimmed : Text.Trimmed item) :
    itemStatements item = [item] := by
  unfold itemStatements statements
  rw [Text.itemLines_of_unbroken hunbroken, List.flatMap_singleton]
  dsimp only
  rw [Text.trim_eq_self htrimmed, if_pos h]

/-- **A confined definition is written as one statement**: the definition with a semicolon. -/
theorem itemStatements_terminated {text : List Char} (h : Confined text) (hne : text ≠ [])
    (htrimmed : Text.Trimmed text) (hcomment : startsComment (text ++ [';']) = false) :
    itemStatements (terminated text) = [text ++ [';']] := by
  have hunbroken : Text.Unbroken (text ++ [';']) := by
    intro c hc
    rcases List.mem_append.mp hc with hc | hc
    · exact h.unbroken c hc
    · rw [List.mem_singleton.mp hc]
      decide
  have htrimmed' : Text.Trimmed (text ++ [';']) := by
    constructor
    · intro c hc
      rw [List.head?_append_of_ne_nil _ hne] at hc
      exact htrimmed.1 c hc
    · intro c hc
      rw [List.getLast?_append_of_ne_nil _ (List.cons_ne_nil _ _)] at hc
      rw [← Option.some.inj hc]
      decide
  have hne' : text ++ [';'] ≠ [] := List.append_ne_nil_of_left_ne_nil hne _
  unfold itemStatements
  rw [h.terminated htrimmed, Text.itemLines_of_unbroken hunbroken, List.flatMap_singleton,
    statements_of_uncut hne' htrimmed' hcomment h.uncut]

end Ddl
end SurrealSchema
