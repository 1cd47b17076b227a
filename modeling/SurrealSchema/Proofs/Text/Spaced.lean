import SurrealSchema.Proofs.Text.Trim
import SurrealSchema.Proofs.Text.Words

namespace SurrealSchema
namespace Text

/-!
# Words with single spaces between them

`Spaced P` says that a text consists of words for which `P` holds, with one space between any two of
them.  A spaced text of solid words is what collapsing its blanks gives.
-/

/-- Words of a class with one space between any two of them. -/
inductive Spaced (P : List Char → Prop) : List Char → Prop
  | word {word : List Char} (hword : P word) : Spaced P word
  | cons {word text : List Char} (hword : P word) (htext : Spaced P text) :
      Spaced P (word ++ ' ' :: text)

namespace Spaced

variable {P Q : List Char → Prop}

theorem mono {text : List Char} (hsub : ∀ word, P word → Q word) (h : Spaced P text) :
    Spaced Q text := by
  induction h with
  | word hword => exact .word (hsub _ hword)
  | cons hword _ ih => exact .cons (hsub _ hword) ih

/-- Two spaced texts with a space between them are a spaced text. -/
theorem append {first second : List Char} (hfirst : Spaced P first) (hsecond : Spaced P second) :
    Spaced P (first ++ ' ' :: second) := by
  induction hfirst with
  | word hword => exact .cons hword hsecond
  | cons hword _ ih =>
      rw [List.append_assoc, List.cons_append]
      exact .cons hword ih

/-- A mark behind a spaced text belongs to its last word. -/
theorem append_mark {text : List Char} {mark : List Char} (h : Spaced P text)
    (hkeep : ∀ word, P word → Q word) (hmark : ∀ word, P word → Q (word ++ mark)) :
    Spaced Q (text ++ mark) := by
  induction h with
  | word hword => exact .word (hmark _ hword)
  | cons hword _ ih =>
      rw [List.append_assoc, List.cons_append]
      exact .cons (hkeep _ hword) ih

/-- Spaced items of a list, with a mark behind every item but the last. -/
theorem intercalate (mark : List Char) {items : List (List Char)} (hne : items ≠ [])
    (hitems : ∀ item ∈ items, Spaced P item) (hkeep : ∀ word, P word → Q word)
    (hmark : ∀ word, P word → Q (word ++ mark)) :
    Spaced Q ((mark ++ [' ']).intercalate items) := by
  induction items with
  | nil => contradiction
  | cons item items ih =>
      have hitem := hitems item List.mem_cons_self
      cases items with
      | nil =>
          rw [List.intercalate_singleton]
          exact hitem.mono hkeep
      | cons next items =>
          have hrest := ih (List.cons_ne_nil _ _) fun item hmem =>
            hitems item (List.mem_cons_of_mem _ hmem)
          have hsplit : (mark ++ [' ']).intercalate (item :: next :: items) =
              (item ++ mark) ++ ' ' :: (mark ++ [' ']).intercalate (next :: items) := by
            rw [List.intercalate_cons_cons]
            simp only [List.append_assoc, List.cons_append, List.nil_append]
          rw [hsplit]
          exact (hitem.append_mark hkeep hmark).append hrest

theorem ne_nil {text : List Char} (hP : ∀ word, P word → word ≠ []) (h : Spaced P text) :
    text ≠ [] := by
  cases h with
  | word hword => exact hP _ hword
  | cons hword _ => exact List.append_ne_nil_of_left_ne_nil (hP _ hword) _

/-- A spaced text starts with a word, and a space follows unless this is all. -/
theorem exists_word {text : List Char} (h : Spaced P text) :
    ∃ word rest, P word ∧ text = word ++ rest ∧ (rest = [] ∨ ∃ more, rest = ' ' :: more) := by
  cases h with
  | word hword => exact ⟨_, [], hword, (List.append_nil _).symm, Or.inl rfl⟩
  | cons hword _ => exact ⟨_, _, hword, rfl, Or.inr ⟨_, rfl⟩⟩

/-- What holds of the characters of the words and of spaces holds of all characters. -/
theorem chars {p : Char → Prop} (hP : ∀ word, P word → ∀ c ∈ word, p c) (hspace : p ' ')
    {text : List Char} (h : Spaced P text) : ∀ c ∈ text, p c := by
  induction h with
  | word hword => exact hP _ hword
  | cons hword _ ih =>
      intro c hc
      rcases List.mem_append.mp hc with hc | hc
      · exact hP _ hword c hc
      · rcases List.mem_cons.mp hc with rfl | hc
        · exact hspace
        · exact ih c hc

/-- A spaced text neither starts nor ends with a blank. -/
theorem trimmed {text : List Char} (h : Spaced Solid text) : Trimmed text := by
  constructor
  · obtain ⟨word, rest, hword, rfl, -⟩ := h.exists_word
    obtain ⟨c, more, rfl, hc⟩ := List.exists_cons_of_ne_nil hword.1
    intro d hd
    rw [← Option.some.inj hd]
    exact hword.2 c List.mem_cons_self
  · induction h with
    | word hword =>
        intro c hc
        exact hword.2 c (List.mem_of_getLast? hc)
    | cons hword htext ih =>
        intro c hc
        have hne := htext.ne_nil fun _ hword => hword.1
        rw [List.getLast?_append_of_ne_nil _ (List.cons_ne_nil _ _),
          List.getLast?_cons_of_ne_nil hne] at hc
        exact ih c hc

end Spaced

/-! ## Words of spaced texts -/

/-- A spaced text has at least one word, and putting single spaces between its words again changes
nothing. -/
theorem intercalate_words_of_spaced {text : List Char} (h : Spaced Solid text) :
    words text ≠ [] ∧ [' '].intercalate (words text) = text := by
  have hspace : isBlank ' ' = true := by decide
  induction h with
  | word hword =>
      rw [words_of_solid hword, List.intercalate_singleton]
      exact ⟨List.cons_ne_nil _ _, rfl⟩
  | cons hword htext ih =>
      obtain ⟨hne, htext⟩ := ih
      refine ⟨?_, ?_⟩
      · rw [words_append_blank hspace, words_of_solid hword]
        exact List.cons_ne_nil _ _
      · rw [words_append_blank hspace, words_of_solid hword, List.singleton_append,
          List.intercalate_cons_of_ne_nil hne, htext, List.append_assoc]
        rfl

/-- **Collapsing the blanks of a spaced text changes nothing.** -/
theorem collapseBlanks_of_spaced {text : List Char} (h : Spaced Solid text) :
    collapseBlanks text = text :=
  (intercalate_words_of_spaced h).2

/-- A text is spaced exactly when it has a word and collapsing its blanks changes nothing. -/
theorem spaced_iff (text : List Char) :
    Spaced Solid text ↔ words text ≠ [] ∧ collapseBlanks text = text := by
  constructor
  · intro h
    exact intercalate_words_of_spaced h
  · rintro ⟨hne, hcollapse⟩
    have hwords : ∀ word ∈ words text, Spaced Solid word :=
      fun word hword => .word (solid_of_mem_words hword)
    have hspaced := Spaced.intercalate [] hne hwords (fun _ hword => hword) fun word hword => by
      rw [List.append_nil]
      exact hword
    rw [List.nil_append] at hspaced
    rw [← hcollapse]
    exact hspaced

/-! ## Collapsing -/

/-- Solid texts with single spaces between them are the words of the whole. -/
theorem words_intercalate {items : List (List Char)} (h : ∀ item ∈ items, Solid item) :
    words ([' '].intercalate items) = items := by
  have hspace : isBlank ' ' = true := by decide
  induction items with
  | nil => rfl
  | cons item items ih =>
      have hitem := h item List.mem_cons_self
      have hrest := ih fun other hmem => h other (List.mem_cons_of_mem _ hmem)
      cases items with
      | nil => rw [List.intercalate_singleton, words_of_solid hitem]
      | cons next items =>
          rw [List.intercalate_cons_cons, List.append_assoc, List.singleton_append,
            words_append_blank hspace, words_of_solid hitem, hrest]
          rfl

/-- Collapsing the blanks of a text keeps its words. -/
theorem words_collapseBlanks (text : List Char) : words (collapseBlanks text) = words text :=
  words_intercalate fun _ hword => solid_of_mem_words hword

/-- A text collapses to the spaced text of the same words. -/
theorem collapseBlanks_eq {text spaced : List Char} (hspaced : Spaced Solid spaced)
    (hwords : words text = words spaced) : collapseBlanks text = spaced := by
  unfold collapseBlanks
  rw [hwords]
  exact collapseBlanks_of_spaced hspaced

/-- A text with a word in it collapses to a spaced text. -/
theorem spaced_collapseBlanks {text : List Char} (h : words text ≠ []) :
    Spaced Solid (collapseBlanks text) := by
  rw [spaced_iff, words_collapseBlanks]
  refine ⟨h, ?_⟩
  unfold collapseBlanks
  rw [words_intercalate fun _ hword => solid_of_mem_words hword]

/-- A solid text in front of blanks is a word of its own. -/
theorem collapseBlanks_append_blank {front gap rest : List Char} {b : Char} (hfront : Solid front)
    (hb : isBlank b = true) (hgap : ∀ c ∈ gap, isBlank c = true) (hrest : words rest ≠ []) :
    collapseBlanks (front ++ b :: (gap ++ rest)) = front ++ ' ' :: collapseBlanks rest := by
  unfold collapseBlanks
  rw [words_append_blank hb, words_blanks_append hgap, words_of_solid hfront,
    List.singleton_append, List.intercalate_cons_of_ne_nil hrest, List.append_assoc,
    List.singleton_append]

/-- A solid text in front of one that starts with no blank stays there. -/
theorem collapseBlanks_solid_append {front rest : List Char} {c : Char} (hfront : Solid front)
    (hc : isBlank c = false) :
    collapseBlanks (front ++ c :: rest) = front ++ collapseBlanks (c :: rest) := by
  obtain ⟨word, others, hwords, happend⟩ := words_solid_append hfront hc rest
  unfold collapseBlanks
  rw [happend, hwords]
  cases others with
  | nil => rw [List.intercalate_singleton, List.intercalate_singleton]
  | cons next others =>
      rw [List.intercalate_cons_cons, List.intercalate_cons_cons]
      simp only [List.append_assoc]

/-- Texts with blanks between them are collapsed one by one. -/
theorem collapseBlanks_append {first second : List Char} {b : Char} (hb : isBlank b = true)
    (hfirst : words first ≠ []) (hsecond : words second ≠ []) :
    collapseBlanks (first ++ b :: second) =
      collapseBlanks first ++ ' ' :: collapseBlanks second := by
  apply collapseBlanks_eq ((spaced_collapseBlanks hfirst).append (spaced_collapseBlanks hsecond))
  rw [words_append_blank hb, words_append_blank (by decide), words_collapseBlanks,
    words_collapseBlanks]

instance (text : List Char) : Decidable (Spaced Solid text) :=
  decidable_of_iff _ (spaced_iff text).symm

/-! ## Words with blanks between them -/

/-- Words with blanks between any two of them, at least one each time. -/
inductive Gapped : List Char → Prop
  | word {word : List Char} (hword : Solid word) : Gapped word
  | cons {word gap text : List Char} {b : Char} (hword : Solid word) (hb : isBlank b = true)
      (hgap : ∀ c ∈ gap, isBlank c = true) (htext : Gapped text) :
      Gapped (word ++ b :: (gap ++ text))

namespace Gapped

variable {text : List Char}

theorem exists_cons (h : Gapped text) : ∃ c rest, text = c :: rest ∧ isBlank c = false := by
  cases h with
  | word hword => exact hword.exists_cons
  | cons hword _ _ _ =>
      obtain ⟨c, rest, rfl, hc⟩ := hword.exists_cons
      exact ⟨c, _, rfl, hc⟩

theorem halts (h : Gapped text) : Halts isBlank text := by
  obtain ⟨c, rest, rfl, hc⟩ := h.exists_cons
  exact halts_cons hc rest

theorem words_ne_nil (h : Gapped text) : words text ≠ [] := by
  obtain ⟨c, rest, rfl, hc⟩ := h.exists_cons
  exact Text.words_ne_nil hc rest

theorem spaced (h : Gapped text) : Spaced Solid (collapseBlanks text) :=
  spaced_collapseBlanks h.words_ne_nil

/-- A character that is no blank belongs to the first word. -/
theorem cons_char {c : Char} (hc : isBlank c = false) (h : Gapped text) : Gapped (c :: text) := by
  have hsolid : ∀ word : List Char, Solid word → Solid (c :: word) := fun word hword =>
    ⟨List.cons_ne_nil _ _, List.forall_mem_cons.mpr ⟨hc, hword.2⟩⟩
  cases h with
  | word hword => exact .word (hsolid _ hword)
  | cons hword hb hgap htext => exact .cons (hsolid _ hword) hb hgap htext

end Gapped

/-- A character that is no blank is a word of its own in front of blanks, and else the start of the
word behind it. -/
theorem gapped_cons {c : Char} (hc : isBlank c = false) {text : List Char}
    (htext : text = [] ∨ Gapped (trimStart text)) : Gapped (c :: text) := by
  have hword : Solid [c] := ⟨List.cons_ne_nil _ _, List.forall_mem_singleton.mpr hc⟩
  rcases htext with rfl | htext
  · exact .word hword
  · cases text with
    | nil => exact .word hword
    | cons d rest =>
        cases hd : isBlank d with
        | true =>
            have hskip : trimStart (d :: rest) = rest.dropWhile isBlank :=
              List.dropWhile_cons_of_pos hd
            have hgap : ∀ b ∈ rest.takeWhile isBlank, isBlank b = true :=
              fun b hb => List.mem_takeWhile_imp hb
            rw [hskip] at htext
            have hgapped := Gapped.cons hword hd hgap htext
            rw [List.takeWhile_append_dropWhile] at hgapped
            exact hgapped
        | false =>
            have hskip : trimStart (d :: rest) = d :: rest := dropWhile_of_halts (halts_cons hd _)
            rw [hskip] at htext
            exact htext.cons_char hc

/-- Behind the blanks that it starts with, a text that ends in a word has words with blanks between
them. -/
theorem gapped_trimStart {text : List Char} {last : Char} (hlast : text.getLast? = some last)
    (hblank : isBlank last = false) : Gapped (trimStart text) := by
  induction text with
  | nil => contradiction
  | cons c text ih =>
      have hrest : text = [] ∨ Gapped (trimStart text) := by
        cases text with
        | nil => exact Or.inl rfl
        | cons d rest =>
            rw [List.getLast?_cons_of_ne_nil (List.cons_ne_nil _ _)] at hlast
            exact Or.inr (ih hlast)
      cases hc : isBlank c with
      | true =>
          have hskip : trimStart (c :: text) = trimStart text := List.dropWhile_cons_of_pos hc
          rw [hskip]
          rcases hrest with rfl | hrest
          · -- The only character would be the last one, which is no blank.
            rw [List.getLast?_singleton] at hlast
            rw [← Option.some.inj hlast, hc] at hblank
            contradiction
          · exact hrest
      | false =>
          have hskip : trimStart (c :: text) = c :: text := dropWhile_of_halts (halts_cons hc _)
          rw [hskip]
          exact gapped_cons hc hrest

/-- A text that starts and ends with a word has words with blanks between them. -/
theorem gapped_of_ends {text : List Char} {last : Char} (hfirst : Halts isBlank text)
    (hlast : text.getLast? = some last) (hblank : isBlank last = false) : Gapped text := by
  have hgapped := gapped_trimStart hlast hblank
  unfold trimStart at hgapped
  rw [dropWhile_of_halts hfirst] at hgapped
  exact hgapped

end Text
end SurrealSchema
