import SurrealSchema.Proofs.Query.Clauses
import SurrealSchema.Proofs.Text.Trim

namespace SurrealSchema

/-!
# Expressions of canonical queries

A list that is written with commas is read back as its items, a conjunction of comparisons as its
comparisons, and the digits of a number as the number.
-/

namespace Text

theorem consFirst_cons (c : Char) (piece : List Char) (pieces : List (List Char)) :
    consFirst c (piece :: pieces) = (c :: piece) :: pieces := rfl

theorem splitAt_of_not_mem {separator : Char} {item : List Char} (h : ∀ c ∈ item, c ≠ separator) :
    splitAt separator item = [item] := by
  induction item with
  | nil => rfl
  | cons c item ih =>
      have hc : (c == separator) = false := by
        rw [beq_eq_false_iff_ne]
        exact h c List.mem_cons_self
      rw [splitAt, hc, ih fun d hd => h d (List.mem_cons_of_mem _ hd)]
      rfl

/-- The first item ends at the first separator. -/
theorem splitAt_append {separator : Char} {item : List Char} (h : ∀ c ∈ item, c ≠ separator)
    (rest : List Char) :
    splitAt separator (item ++ separator :: rest) = item :: splitAt separator rest := by
  induction item with
  | nil =>
      rw [List.nil_append, splitAt, beq_self_eq_true]
      rfl
  | cons c item ih =>
      have hc : (c == separator) = false := by
        rw [beq_eq_false_iff_ne]
        exact h c List.mem_cons_self
      rw [List.cons_append, splitAt, hc, ih fun d hd => h d (List.mem_cons_of_mem _ hd)]
      rfl

theorem splitAt_ne_nil (separator : Char) (text : List Char) : splitAt separator text ≠ [] := by
  induction text with
  | nil => exact List.cons_ne_nil _ _
  | cons c text ih =>
      rw [splitAt]
      split
      · exact List.cons_ne_nil _ _
      · obtain ⟨piece, pieces, hsplit⟩ := List.exists_cons_of_ne_nil ih
        rw [hsplit]
        exact List.cons_ne_nil _ _

theorem trim_space (text : List Char) : trim (' ' :: text) = trim text := by
  have hspace : isBlank ' ' = true := by decide
  unfold trim trimStart
  rw [List.dropWhile_cons_of_pos hspace]

end Text

namespace Query

/-! ## Lists -/

theorem listText_cons_cons (item next : List Char) (items : List (List Char)) :
    listText (item :: next :: items) = item ++ ',' :: (' ' :: listText (next :: items)) := by
  unfold listText
  rw [List.intercalate_cons_cons]
  simp only [List.append_assoc, List.cons_append, List.nil_append]

/-- The pieces between the commas of a list are its items. -/
theorem splitAt_listText {items : List (List Char)} (hne : items ≠ [])
    (hcomma : ∀ item ∈ items, ∀ c ∈ item, c ≠ ',')
    (htrimmed : ∀ item ∈ items, Text.Trimmed item) :
    (Text.splitAt ',' (listText items)).map Text.trim = items := by
  induction items with
  | nil => contradiction
  | cons item items ih =>
      have hitem := hcomma item List.mem_cons_self
      have htrim := Text.trim_eq_self (htrimmed item List.mem_cons_self)
      cases items with
      | nil =>
          rw [show listText [item] = item from List.intercalate_singleton,
            Text.splitAt_of_not_mem hitem, List.map_singleton, htrim]
      | cons next items =>
          have hrest := ih (List.cons_ne_nil _ _)
            (fun other hmem => hcomma other (List.mem_cons_of_mem _ hmem))
            (fun other hmem => htrimmed other (List.mem_cons_of_mem _ hmem))
          rw [listText_cons_cons, Text.splitAt_append hitem, List.map_cons, htrim]
          congr 1
          rw [Text.splitAt, show (' ' == ',') = false from by decide]
          obtain ⟨piece, pieces, hsplit⟩ := List.exists_cons_of_ne_nil
            (Text.splitAt_ne_nil ',' (listText (next :: items)))
          rw [hsplit] at hrest ⊢
          rw [← hrest, if_neg Bool.false_ne_true, Text.consFirst_cons, List.map_cons,
            Text.trim_space, List.map_cons]

/-- A list that is written is read back. -/
theorem listItems_listText {items : List (List Char)} (hne : items ≠ [])
    (hcomma : ∀ item ∈ items, ∀ c ∈ item, c ≠ ',')
    (htrimmed : ∀ item ∈ items, Text.Trimmed item) (hitems : ∀ item ∈ items, item ≠ []) :
    listItems (listText items) = items.map String.ofList := by
  unfold listItems
  rw [splitAt_listText hne hcomma htrimmed, ← List.filterMap_eq_map]
  apply List.filterMap_congr
  intro item hmem
  have hempty : item.isEmpty = false := by
    simpa using hitems item hmem
  rw [hempty]
  rfl

/-! ## Comparisons -/

theorem isOperator_of_isWord {c : Char} (h : Text.isWord c = true) : isOperator c = false := by
  cases hop : isOperator c with
  | false => rfl
  | true =>
      rw [(isMark_of_isOperator hop).1] at h
      contradiction

theorem trimStart_space {text : List Char} (h : Text.Halts Text.isBlank text) :
    Text.trimStart (' ' :: text) = text := by
  have hspace : Text.isBlank ' ' = true := by decide
  unfold Text.trimStart
  rw [List.dropWhile_cons_of_pos hspace, Text.dropWhile_of_halts h]

theorem Comparison.IsPlain.plain_valueText {comparison : Comparison} (h : comparison.IsPlain) :
    Plain comparison.valueText := by
  unfold Comparison.valueText
  split
  · exact h.value.run.plain_quoted
  · exact h.value.run.plain

/-- A value that is written is read back, whether or not it is between quotes. -/
theorem conditionValue?_valueText {comparison : Comparison} (h : comparison.IsPlain)
    {rest : List Char} (hrest : rest = [] ∨ ∃ text, rest = ' ' :: text) :
    conditionValue? (comparison.valueText ++ rest) =
      some (comparison.condition.value.toList, rest) := by
  have hword := h.value.isWord
  unfold Comparison.valueText
  split
  · have hquote : ∀ c ∈ comparison.condition.value.toList, (c != '\'') = true := by
      intro c hc
      rw [bne_iff_ne]
      rintro rfl
      exact absurd (hword _ hc) (by decide)
    have hhalts : Text.Halts (· != '\'') ('\'' :: rest) := Text.halts_cons (by decide) rest
    simp only [List.cons_append, List.append_assoc, List.nil_append]
    unfold conditionValue?
    dsimp only
    rw [if_pos (Or.inl rfl), Text.dropWhile_run hquote hhalts, Text.takeWhile_run hquote hhalts]
  · obtain ⟨c, chars, hchars⟩ := List.exists_cons_of_ne_nil h.value.ne_empty
    have hquote : ¬ (c = '\'' ∨ c = '"') := by
      have hc := hword c (by rw [hchars]; exact List.mem_cons_self)
      rintro (rfl | rfl) <;> exact absurd hc (by decide)
    have hbare : ∀ d ∈ comparison.condition.value.toList, isBareValue d = true := by
      intro d hd
      simp [isBareValue, hword d hd]
    have hhalts : Text.Halts isBareValue rest := by
      rcases hrest with rfl | ⟨text, rfl⟩
      · exact Text.halts_nil _
      · exact Text.halts_cons (by decide) text
    have htake := Text.takeWhile_run hbare hhalts
    have hdrop := Text.dropWhile_run hbare hhalts
    rw [hchars] at htake hdrop ⊢
    rw [List.cons_append] at htake hdrop ⊢
    unfold conditionValue?
    dsimp only
    rw [if_neg hquote, htake, hdrop]
    rfl

/-- A comparison that is written is read back. -/
theorem condition?_text {comparison : Comparison} (h : comparison.IsPlain) {rest : List Char}
    (hrest : rest = [] ∨ ∃ text, rest = ' ' :: text) :
    condition? (comparison.text ++ rest) = some (comparison.condition, rest) := by
  have hspaceWord : Text.isWord ' ' = false := by decide
  have hspaceOp : isOperator ' ' = false := by decide
  have hop : ∀ c ∈ comparison.condition.operator.toList, Text.isBlank c = false := by
    intro c hc
    exact (isMark_of_isOperator (h.operator c hc)).2.1
  have hvalue := h.plain_valueText.solid.halts_append rest
  have hoperator := Text.Solid.halts_append ⟨h.operator_ne_empty, hop⟩
    (' ' :: (comparison.valueText ++ rest))
  have hread := conditionValue?_valueText h hrest
  unfold Comparison.text
  rw [List.append_assoc, List.cons_append, List.append_assoc, List.cons_append]
  unfold condition?
  dsimp only
  rw [Text.takeWhile_run h.field.isWord (Text.halts_cons hspaceWord _),
    Text.dropWhile_run h.field.isWord (Text.halts_cons hspaceWord _), trimStart_space hoperator,
    Text.takeWhile_run h.operator (Text.halts_cons hspaceOp _),
    Text.dropWhile_run h.operator (Text.halts_cons hspaceOp _), trimStart_space hvalue, hread]
  have hfieldNe : comparison.condition.field.toList.isEmpty = false := by
    simpa using h.field.ne_empty
  have hoperatorNe : comparison.condition.operator.toList.isEmpty = false := by
    simpa using h.operator_ne_empty
  rw [hfieldNe, hoperatorNe]
  simp

/-- A comparison that is written consists of plain words. -/
theorem Comparison.IsPlain.spaced_text {comparison : Comparison} (h : comparison.IsPlain) :
    Text.Spaced Plain comparison.text :=
  .cons h.field.run.plain
    (.cons (plain_operator h.operator_ne_empty h.operator) (.word h.plain_valueText))

/-- Where a run of word characters is not followed by an operator there is no comparison. -/
theorem condition?_of_word {run : List Char} (hrun : ∀ c ∈ run, Text.isWord c = true) {c : Char}
    (hc : Text.isWord c = true) (rest : List Char) :
    condition? (run ++ ' ' :: c :: rest) = none := by
  have hspace : Text.isWord ' ' = false := by decide
  have hblank : Text.Halts Text.isBlank (c :: rest) :=
    Text.halts_cons (Text.isBlank_of_isWord hc) rest
  have hnone : (c :: rest).takeWhile isOperator = [] :=
    Text.takeWhile_of_halts (Text.halts_cons (isOperator_of_isWord hc) rest)
  unfold condition?
  dsimp only
  rw [Text.takeWhile_run hrun (Text.halts_cons hspace _),
    Text.dropWhile_run hrun (Text.halts_cons hspace _), trimStart_space hblank, hnone]
  simp

/-- Characters of a comparison that has been read are passed over. -/
theorem conditionsFrom_append (passed rest : List Char) :
    conditionsFrom passed.length (passed ++ rest) = conditionsFrom 0 rest := by
  induction passed with
  | nil => rfl
  | cons c passed ih => exact ih

theorem conditionsFrom_of_none {c : Char} {text : List Char} (h : condition? (c :: text) = none) :
    conditionsFrom 0 (c :: text) = conditionsFrom 0 text := by
  rw [conditionsFrom, h]

/-- The word between two comparisons is passed over. -/
theorem conditionsFrom_and {c : Char} (hc : Text.isWord c = true) (rest : List Char) :
    conditionsFrom 0 (" AND ".toList ++ c :: rest) = conditionsFrom 0 (c :: rest) := by
  have hspace : ∀ text, condition? (' ' :: text) = none := by
    intro text
    have hnone : (' ' :: text).takeWhile Text.isWord = [] :=
      Text.takeWhile_of_halts (Text.halts_cons (by decide) text)
    unfold condition?
    dsimp only
    rw [hnone]
    rfl
  have hall : ∀ run : List Char, (∀ d ∈ run, Text.isWord d = true) →
      conditionsFrom 0 (run ++ ' ' :: c :: rest) = conditionsFrom 0 (' ' :: c :: rest) := by
    intro run hrun
    induction run with
    | nil => rfl
    | cons d run ih =>
        have hword : condition? (d :: (run ++ ' ' :: c :: rest)) = none :=
          condition?_of_word hrun hc rest
        rw [List.cons_append, conditionsFrom_of_none hword]
        exact ih fun e he => hrun e (List.mem_cons_of_mem _ he)
  show conditionsFrom 0 (' ' :: ("AND".toList ++ ' ' :: c :: rest)) = _
  rw [conditionsFrom_of_none (hspace _), hall "AND".toList plainRun_and.isWord,
    conditionsFrom_of_none (hspace _)]

/-- A comparison at the front is read, and the rest is read behind it. -/
theorem conditionsFrom_text {comparison : Comparison} (h : comparison.IsPlain) {rest : List Char}
    (hrest : rest = [] ∨ ∃ text, rest = ' ' :: text) :
    conditionsFrom 0 (comparison.text ++ rest) =
      comparison.condition :: conditionsFrom 0 rest := by
  have hread := condition?_text h hrest
  cases htext : comparison.text with
  | nil => exact absurd htext (h.spaced_text.ne_nil fun word hword => hword.solid.1)
  | cons c text =>
      rw [htext, List.cons_append] at hread
      have hlength : (text ++ rest).length - rest.length = text.length := by
        rw [List.length_append]
        omega
      rw [List.cons_append, conditionsFrom, hread]
      dsimp only
      rw [hlength, conditionsFrom_append]

/-- What is written from a comparison on starts with a word. -/
theorem exists_cons_intercalate (mark : List Char) {comparison : Comparison}
    (h : comparison.IsPlain) (others : List (List Char)) :
    ∃ c rest, mark.intercalate (comparison.text :: others) = c :: rest ∧
      Text.isWord c = true := by
  obtain ⟨c, chars, hchars⟩ := List.exists_cons_of_ne_nil h.field.ne_empty
  have hc : Text.isWord c = true := h.field.isWord c (by rw [hchars]; exact List.mem_cons_self)
  have htext : ∃ rest, comparison.text = c :: rest := by
    unfold Comparison.text
    rw [hchars]
    exact ⟨_, rfl⟩
  obtain ⟨rest, htext⟩ := htext
  cases others with
  | nil =>
      rw [List.intercalate_singleton, htext]
      exact ⟨c, rest, rfl, hc⟩
  | cons other others =>
      rw [List.intercalate_cons_cons, htext]
      exact ⟨c, _, rfl, hc⟩

/-- **Comparisons joined by `AND` are read back.** -/
theorem conditionsIn_text {comparisons : List Comparison}
    (h : ∀ comparison ∈ comparisons, comparison.IsPlain) :
    conditionsIn (" AND ".toList.intercalate (comparisons.map Comparison.text)) =
      comparisons.map Comparison.condition := by
  unfold conditionsIn
  induction comparisons with
  | nil => rfl
  | cons comparison comparisons ih =>
      have hfirst := h comparison List.mem_cons_self
      cases comparisons with
      | nil =>
          have hread := conditionsFrom_text hfirst (Or.inl rfl)
          rw [List.append_nil] at hread
          rw [List.map_singleton, List.intercalate_singleton, hread]
          rfl
      | cons next comparisons =>
          have hnext := h next (List.mem_cons_of_mem _ List.mem_cons_self)
          have hrest := ih fun other hmem => h other (List.mem_cons_of_mem _ hmem)
          obtain ⟨c, more, hsplit, hc⟩ :=
            exists_cons_intercalate " AND ".toList hnext (comparisons.map Comparison.text)
          have hspace : " AND ".toList ++ c :: more = ' ' :: ("AND ".toList ++ c :: more) := rfl
          rw [List.map_cons] at hrest
          rw [List.map_cons, List.map_cons, List.intercalate_cons_cons, List.append_assoc, hsplit,
            conditionsFrom_text hfirst (Or.inr ⟨_, hspace⟩), conditionsFrom_and hc, ← hsplit, hrest]
          rfl

/-- Comparisons joined by `AND` consist of plain words. -/
theorem spaced_conjunction {comparisons : List Comparison} (hne : comparisons ≠ [])
    (h : ∀ comparison ∈ comparisons, comparison.IsPlain) :
    Text.Spaced Plain (" AND ".toList.intercalate (comparisons.map Comparison.text)) := by
  induction comparisons with
  | nil => contradiction
  | cons comparison comparisons ih =>
      have hfirst := (h comparison List.mem_cons_self).spaced_text
      cases comparisons with
      | nil =>
          rw [List.map_singleton, List.intercalate_singleton]
          exact hfirst
      | cons next comparisons =>
          have hrest := ih (List.cons_ne_nil _ _) fun other hmem =>
            h other (List.mem_cons_of_mem _ hmem)
          have hand : Text.Spaced Plain "AND".toList := .word plainRun_and.plain
          have hjoined := hfirst.append (hand.append hrest)
          rw [List.map_cons, List.map_cons, List.intercalate_cons_cons, List.append_assoc]
          exact hjoined

/-! ## Numbers -/

/-- A number that is written is read back. -/
theorem count?_toString (count : Nat) : count? (toString count).toList = some count := by
  have hdigits : ∀ c ∈ (toString count).toList, Text.isDigit c = true :=
    fun c hc => Text.isDigit_of_mem_toString hc
  have hall := Text.takeWhile_run hdigits (Text.halts_nil _)
  rw [List.append_nil] at hall
  have hne : (toString count).toList.isEmpty = false := by
    rw [Text.toList_toString]
    exact List.isEmpty_eq_false_iff.mpr Nat.toDigits_ne_nil
  unfold count?
  dsimp only
  rw [hall, hne, Text.toList_toString, Text.natOfDigits_toDigits]
  rfl

end Query
end SurrealSchema
