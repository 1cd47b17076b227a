import SurrealSchema.Proofs.Query.Scan

namespace SurrealSchema
namespace Query

/-!
# Searching texts with blanks of any length

The blanks of a query are collapsed before its clauses are searched for.  A keyword is read in front
of blanks of any length, so this does not change what is found.  Neither does a mark behind a text,
if it is not part of a word: a limit inside a string is found as if the string stood by itself.
-/

/-! ## Blanks of any length -/

section Find

variable {α : Type} {keyword : String} {read : List Char → Option α}
  (hcapitals : Text.Capitals keyword.toList) (hne : keyword.toList ≠ [])
include hcapitals hne

/-- Blanks are passed over. -/
theorem find_blanks {gap : List Char} (hgap : ∀ c ∈ gap, Text.isBlank c = true)
    (text : List Char) :
    find keyword read none (gap ++ text) = find keyword read none text := by
  induction gap with
  | nil => rfl
  | cons b gap ih =>
      rw [List.cons_append,
        find_mark hcapitals hne (Text.isWord_of_isBlank (hgap b List.mem_cons_self)),
        ih fun c hc => hgap c (List.mem_cons_of_mem _ hc)]

/-- **A run in front of blanks either ends in the keyword or is passed over.**  Which of the two
does not depend on the blanks or on what follows them. -/
theorem exists_find_run (read : List Char → Option α) {run : List Char}
    (hrun : ∀ c ∈ run, Text.isBlank c = false) (before : Option Char) :
    ∃ ends : Bool, ∀ (b : Char) (gap text : List Char), Text.isBlank b = true →
      (∀ c ∈ gap, Text.isBlank c = true) → Text.Halts Text.isBlank text →
      find keyword read before (run ++ b :: (gap ++ text)) =
        (if ends then read text else none).or (find keyword read none text) := by
  induction run generalizing before with
  | nil =>
      refine ⟨false, ?_⟩
      intro b gap text hb hgap _
      rw [List.nil_append, find_mark hcapitals hne (Text.isWord_of_isBlank hb),
        find_blanks hcapitals hne hgap]
      rfl
  | cons c run ih =>
      obtain ⟨ends, hends⟩ := ih (fun d hd => hrun d (List.mem_cons_of_mem _ hd)) (some c)
      -- The keyword ends the run if it is all of the run or ends what is left of it.
      refine ⟨decide (Text.afterWord before = false ∧
        Text.Spells keyword.toList (c :: run)) || ends, ?_⟩
      intro b gap text hb hgap htext
      have hfirst : clauseKeyword? keyword before (c :: (run ++ b :: (gap ++ text))) =
          if Text.afterWord before = false ∧ Text.Spells keyword.toList (c :: run) then some text
          else none := by
        unfold clauseKeyword?
        rw [← List.cons_append, Text.keywordThenBlanks_run hcapitals hrun hb hgap htext]
        cases Text.afterWord before <;> simp
      rw [List.cons_append, find_cons_eq, hfirst, hends b gap text hb hgap htext]
      by_cases h : Text.afterWord before = false ∧ Text.Spells keyword.toList (c :: run)
      · simp only [h, and_self, if_true, decide_true, Bool.true_or, Option.bind_some]
        cases read text with
        | none => cases ends <;> rfl
        | some found => rfl
      · simp [h]

/-- Where nothing can be read behind a run, it is passed over. -/
theorem find_unread {run text : List Char} (hrun : ∀ c ∈ run, Text.isBlank c = false)
    (htext : Text.Halts Text.isBlank text) (hread : read text = none) (before : Option Char) :
    find keyword read before (run ++ ' ' :: text) = find keyword read none text := by
  obtain ⟨ends, hends⟩ := exists_find_run hcapitals hne read hrun before
  have hrun := hends ' ' [] text (by decide) (by simp) htext
  rw [List.nil_append] at hrun
  rw [hrun, hread]
  simp

/-- **Collapsing blanks does not change what is found**, provided that it does not change what is
read. -/
theorem find_collapseBlanks
    (hread : ∀ text, Text.Gapped text → read (Text.collapseBlanks text) = read text)
    {text : List Char} (htext : Text.Gapped text) (before : Option Char) :
    find keyword read before (Text.collapseBlanks text) = find keyword read before text := by
  induction htext generalizing before with
  | word hword => rw [Text.collapseBlanks_of_spaced (.word hword)]
  | @cons word gap text b hword hb hgap htext ih =>
      -- Whether the first word ends in the keyword is the same for both texts.
      obtain ⟨ends, hends⟩ := exists_find_run hcapitals hne read hword.2 before
      have hcollapsed := hends ' ' [] (Text.collapseBlanks text) (by decide) (by simp)
        htext.spaced.trimmed.1
      rw [List.nil_append] at hcollapsed
      rw [Text.collapseBlanks_append_blank hword hb hgap htext.words_ne_nil, hcollapsed,
        hends b gap text hb hgap htext.halts, hread text htext, ih]

/-- What is found in a text is found in front of a mark too, provided that the mark does not change
what is read. -/
theorem find_append_mark {mark : Char} (hword : Text.isWord mark = false)
    (hblank : Text.isBlank mark = false) (hread : ∀ text, read (text ++ [mark]) = read text)
    (before : Option Char) (text : List Char) :
    find keyword read before (text ++ [mark]) = find keyword read before text := by
  induction text generalizing before with
  | nil => rw [List.nil_append, find_mark hcapitals hne hword, find_nil hne, find_nil hne]
  | cons c text ih =>
      have hfirst : (clauseKeyword? keyword before (c :: text ++ [mark])).bind read =
          (clauseKeyword? keyword before (c :: text)).bind read := by
        unfold clauseKeyword?
        split
        · rfl
        · rw [Text.keywordThenBlanks_append hcapitals hword hblank]
          cases Text.keywordThenBlanks? keyword (c :: text) with
          | none => rfl
          | some after => exact hread after
      rw [List.cons_append] at hfirst ⊢
      rw [find_cons_eq, find_cons_eq, hfirst, ih]

end Find

/-! ## Limits -/

theorem capitals_limit : Text.Capitals "LIMIT".toList := by
  decide

theorem capitals_by : Text.Capitals "BY".toList := by
  decide

/-- The number of a limit whose keyword has been read. -/
def limitNumber? (text : List Char) : Option Nat :=
  ((Text.keywordThenBlanks? "BY" text).bind count?).or (count? text)

theorem limit?_eq_find (text : List Char) : limit? text = find "LIMIT" limitNumber? none text :=
  rfl

/-- A number ends where something else than a digit follows. -/
theorem count?_append {mark : List Char} (hmark : Text.Halts Text.isDigit mark)
    (text : List Char) : count? (text ++ mark) = count? text := by
  unfold count?
  rw [Text.takeWhile_append_of_halts hmark]

theorem count?_collapseBlanks {text : List Char} (h : Text.Gapped text) :
    count? (Text.collapseBlanks text) = count? text := by
  cases h with
  | word hword => rw [Text.collapseBlanks_of_spaced (.word hword)]
  | cons hword hb hgap htext =>
      have hdigit := Text.halts_cons (Text.isDigit_of_isBlank hb)
      have hspace := Text.halts_cons (Text.isDigit_of_isBlank (by decide : Text.isBlank ' '))
      rw [Text.collapseBlanks_append_blank hword hb hgap htext.words_ne_nil,
        count?_append (hspace _), count?_append (hdigit _)]

theorem limitNumber?_collapseBlanks {text : List Char} (h : Text.Gapped text) :
    limitNumber? (Text.collapseBlanks text) = limitNumber? text := by
  have hcount := count?_collapseBlanks h
  unfold limitNumber?
  rw [hcount]
  congr 1
  -- The word `BY` needs blanks behind it, so it is all of the first word or it is not read.
  cases h with
  | word hword => rw [Text.collapseBlanks_of_spaced (.word hword)]
  | @cons word gap text b hword hb hgap htext =>
      have hnothing : ∀ c ∈ ([] : List Char), Text.isBlank c = true := by simp
      have hspace : Text.isBlank ' ' = true := by decide
      have hcollapsed := Text.keywordThenBlanks_run capitals_by hword.2 hspace hnothing
        htext.spaced.trimmed.1
      rw [List.nil_append] at hcollapsed
      rw [Text.collapseBlanks_append_blank hword hb hgap htext.words_ne_nil, hcollapsed,
        Text.keywordThenBlanks_run capitals_by hword.2 hb hgap htext.halts]
      split
      · exact count?_collapseBlanks htext
      · rfl

/-- A limit is read alike in front of a mark. -/
theorem limitNumber?_append {mark : Char} (hword : Text.isWord mark = false)
    (hblank : Text.isBlank mark = false) (hdigit : Text.isDigit mark = false) (text : List Char) :
    limitNumber? (text ++ [mark]) = limitNumber? text := by
  have hcount := count?_append (Text.halts_cons hdigit [])
  unfold limitNumber?
  rw [Text.keywordThenBlanks_append capitals_by hword hblank, hcount]
  cases Text.keywordThenBlanks? "BY" text with
  | none => rfl
  | some after => rw [Option.map_some, Option.bind_some, Option.bind_some, hcount]

end Query
end SurrealSchema
