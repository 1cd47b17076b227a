import SurrealSchema.Proofs.Text.Runs

namespace SurrealSchema
namespace Text

/-!
# Words of a text

The words of a text are found on each side of a blank separately.  A text without blanks that is not
empty is `Solid`: it is its own only word, and at the end of a text it is the end of the last word.
-/

/-! ## One character at a time -/

theorem words_of_blank {c : Char} (hc : isBlank c = true) (text : List Char) :
    words (c :: text) = words text := by
  rw [words.eq_def]
  simp only [hc, if_true]

theorem words_singleton {c : Char} (hc : isBlank c = false) : words [c] = [[c]] := by
  simp [words, hc]

theorem words_cons_of_blank {c d : Char} (hc : isBlank c = false) (hd : isBlank d = true)
    (text : List Char) : words (c :: d :: text) = [c] :: words text := by
  rw [words]
  simp only [hc, hd, words_of_blank hd, Bool.false_eq_true, if_true, if_false]

theorem words_cons_of_not_blank {c d : Char} (hc : isBlank c = false) (hd : isBlank d = false)
    (text : List Char) : words (c :: d :: text) = consFirst c (words (d :: text)) := by
  rw [words]
  simp only [hc, hd, Bool.false_eq_true, if_false]

theorem consFirst_append {pieces : List (List Char)} (hne : pieces ≠ []) (c : Char)
    (more : List (List Char)) : consFirst c (pieces ++ more) = consFirst c pieces ++ more := by
  cases pieces with
  | nil => contradiction
  | cons piece pieces => rfl

/-- A text that does not start with a blank has a word. -/
theorem words_ne_nil {c : Char} (hc : isBlank c = false) (text : List Char) :
    words (c :: text) ≠ [] := by
  cases text with
  | nil =>
      rw [words_singleton hc]
      exact List.cons_ne_nil _ _
  | cons d text =>
      cases hd : isBlank d with
      | true =>
          rw [words_cons_of_blank hc hd]
          exact List.cons_ne_nil _ _
      | false =>
          rw [words_cons_of_not_blank hc hd]
          cases words (d :: text) with
          | nil => exact List.cons_ne_nil _ _
          | cons word words => exact List.cons_ne_nil _ _

/-! ## Blanks between words -/

/-- **A blank separates the words before it from those behind it.** -/
theorem words_append_blank {b : Char} (hblank : isBlank b = true) (text rest : List Char) :
    words (text ++ b :: rest) = words text ++ words rest := by
  induction text with
  | nil => exact words_of_blank hblank rest
  | cons c text ih =>
      cases hc : isBlank c with
      | true => rw [List.cons_append, words_of_blank hc, words_of_blank hc, ih]
      | false =>
          cases text with
          | nil =>
              rw [List.cons_append, List.nil_append, words_cons_of_blank hc hblank,
                words_singleton hc]
              rfl
          | cons d text =>
              rw [List.cons_append] at ih
              rw [List.cons_append, List.cons_append]
              cases hd : isBlank d with
              | true =>
                  rw [words_of_blank hd, words_of_blank hd] at ih
                  rw [words_cons_of_blank hc hd, words_cons_of_blank hc hd, ih]
                  rfl
              | false =>
                  rw [words_cons_of_not_blank hc hd, words_cons_of_not_blank hc hd, ih,
                    consFirst_append (words_ne_nil hd text)]

/-- Blanks in front of a text add no words. -/
theorem words_blanks_append {blanks : List Char} (hblanks : ∀ c ∈ blanks, isBlank c = true)
    (text : List Char) : words (blanks ++ text) = words text := by
  induction blanks with
  | nil => rfl
  | cons c blanks ih =>
      rw [List.cons_append, words_of_blank (hblanks c List.mem_cons_self),
        ih fun d hd => hblanks d (List.mem_cons_of_mem _ hd)]

/-- Blanks behind a text add no words. -/
theorem words_append_blanks {blanks : List Char} (hblanks : ∀ c ∈ blanks, isBlank c = true)
    (text : List Char) : words (text ++ blanks) = words text := by
  cases blanks with
  | nil => rw [List.append_nil]
  | cons c blanks =>
      have hnone := words_blanks_append (fun d hd => hblanks d (List.mem_cons_of_mem _ hd)) []
      rw [List.append_nil] at hnone
      rw [words_append_blank (hblanks c List.mem_cons_self), hnone]
      exact List.append_nil _

/-! ## Texts without blanks -/

/-- Whether a text is one word. -/
def Solid (text : List Char) : Prop :=
  text ≠ [] ∧ ∀ c ∈ text, isBlank c = false

-- Only the characters of the text are looked at, not all characters there are.
instance (text : List Char) : Decidable (Solid text) :=
  decidable_of_iff (text ≠ [] ∧ (text.all fun c => !isBlank c) = true) (by simp [Solid])

/-- A solid text starts with a character that is no blank. -/
theorem Solid.exists_cons {text : List Char} (h : Solid text) :
    ∃ c rest, text = c :: rest ∧ isBlank c = false := by
  cases text with
  | nil => exact absurd rfl h.1
  | cons c rest => exact ⟨c, rest, rfl, h.2 c List.mem_cons_self⟩

/-- A solid text stays solid when characters that are no blanks follow it. -/
theorem Solid.append {text more : List Char} (h : Solid text)
    (hmore : ∀ c ∈ more, isBlank c = false) : Solid (text ++ more) :=
  ⟨List.append_ne_nil_of_left_ne_nil h.1 _, List.forall_mem_append.mpr ⟨h.2, hmore⟩⟩

/-- Nothing stands in front of a solid text that blanks could be taken from. -/
theorem Solid.halts_append {text : List Char} (h : Solid text) (rest : List Char) :
    Halts isBlank (text ++ rest) := by
  obtain ⟨c, more, rfl, hc⟩ := h.exists_cons
  exact halts_cons hc _

/-- A solid text is its own only word. -/
theorem words_of_solid {word : List Char} (h : Solid word) : words word = [word] := by
  obtain ⟨hne, hsolid⟩ := h
  induction word with
  | nil => contradiction
  | cons c rest ih =>
      have hc : isBlank c = false := hsolid c List.mem_cons_self
      cases rest with
      | nil => exact words_singleton hc
      | cons d rest =>
          have hd : isBlank d = false := hsolid d (List.mem_cons_of_mem _ List.mem_cons_self)
          rw [words_cons_of_not_blank hc hd,
            ih (List.cons_ne_nil _ _) fun e he => hsolid e (List.mem_cons_of_mem _ he)]
          rfl

/-- A solid text in front of one that starts with no blank is the beginning of its first word. -/
theorem words_solid_append {front : List Char} (h : Solid front) {c : Char}
    (hc : isBlank c = false) (rest : List Char) :
    ∃ word others, words (c :: rest) = word :: others ∧
      words (front ++ c :: rest) = (front ++ word) :: others := by
  obtain ⟨hne, hsolid⟩ := h
  obtain ⟨word, others, hwords⟩ := List.exists_cons_of_ne_nil (words_ne_nil hc rest)
  refine ⟨word, others, hwords, ?_⟩
  induction front with
  | nil => contradiction
  | cons d front ih =>
      have hd : isBlank d = false := hsolid d List.mem_cons_self
      cases front with
      | nil =>
          rw [List.cons_append, List.nil_append, words_cons_of_not_blank hd hc, hwords]
          rfl
      | cons e front =>
          have he : isBlank e = false := hsolid e (List.mem_cons_of_mem _ List.mem_cons_self)
          have hmore := ih (List.cons_ne_nil _ _) fun b hb => hsolid b (List.mem_cons_of_mem _ hb)
          rw [List.cons_append] at hmore
          rw [List.cons_append, List.cons_append, words_cons_of_not_blank hd he, hmore]
          rfl

/-- The words of a text are solid. -/
theorem solid_of_mem_words {text word : List Char} (h : word ∈ words text) : Solid word := by
  induction text generalizing word with
  | nil => contradiction
  | cons c text ih =>
      cases hc : isBlank c with
      | true =>
          rw [words_of_blank hc] at h
          exact ih h
      | false =>
          have hfirst : ∀ {rest : List Char},
              (∀ d ∈ rest, isBlank d = false) → Solid (c :: rest) := by
            intro rest hrest
            refine ⟨List.cons_ne_nil _ _, fun d hd => ?_⟩
            rcases List.mem_cons.mp hd with rfl | hd
            · exact hc
            · exact hrest d hd
          have hnone : ∀ d ∈ ([] : List Char), isBlank d = false := by
            intro d hd
            contradiction
          cases text with
          | nil =>
              rw [words_singleton hc, List.mem_singleton] at h
              rw [h]
              exact hfirst hnone
          | cons d text =>
              cases hd : isBlank d with
              | true =>
                  rw [words_cons_of_blank hc hd] at h
                  rw [words_of_blank hd] at ih
                  rcases List.mem_cons.mp h with rfl | h
                  · exact hfirst hnone
                  · exact ih h
              | false =>
                  rw [words_cons_of_not_blank hc hd] at h
                  cases hwords : words (d :: text) with
                  | nil => exact absurd hwords (words_ne_nil hd text)
                  | cons first others =>
                      rw [hwords] at h ih
                      rcases List.mem_cons.mp h with rfl | h
                      · exact hfirst (ih List.mem_cons_self).2
                      · exact ih (List.mem_cons_of_mem _ h)

/-- A solid text at the end of a text is the end of its last word. -/
theorem words_append_solid {word : List Char} (h : Solid word) (text : List Char) :
    ∃ front last, words (text ++ word) = front ++ [last] ∧ word <:+ last := by
  induction text with
  | nil => exact ⟨[], word, words_of_solid h, List.suffix_refl _⟩
  | cons c text ih =>
      obtain ⟨front, last, hwords, hsuffix⟩ := ih
      cases hc : isBlank c with
      | true => exact ⟨front, last, by rw [List.cons_append, words_of_blank hc, hwords], hsuffix⟩
      | false =>
          rw [List.cons_append]
          cases htext : text ++ word with
          | nil => exact absurd (List.append_eq_nil_iff.mp htext).2 h.1
          | cons d rest =>
              rw [htext] at hwords
              cases hd : isBlank d with
              | true =>
                  rw [words_of_blank hd] at hwords
                  exact ⟨[c] :: front, last,
                    by rw [words_cons_of_blank hc hd, hwords]; rfl, hsuffix⟩
              | false =>
                  rw [words_cons_of_not_blank hc hd, hwords]
                  cases front with
                  | nil => exact ⟨[], c :: last, rfl, hsuffix.trans (List.suffix_cons c last)⟩
                  | cons first front => exact ⟨(c :: first) :: front, last, rfl, hsuffix⟩

end Text
end SurrealSchema
