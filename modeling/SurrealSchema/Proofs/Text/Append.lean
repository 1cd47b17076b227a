import Mathlib.Data.List.Basic
import SurrealSchema.Proofs.Text.Runs
import SurrealSchema.Text.Keyword

namespace SurrealSchema
namespace Text

/-!
# Marks behind a text

What stands behind a text may be read with it.  Where it cannot belong to what is read, a reader
gives the same for the text with and without it, up to the rest it leaves, and so does a search.
-/

/-- A literal is read alike in front of a mark that does not start with one of its characters. -/
theorem afterLiteral_append_of_head {literal mark : List Char}
    (hmark : ∀ c, mark.head? = some c → c ∉ literal) (text : List Char) :
    afterLiteral? literal (text ++ mark) = (afterLiteral? literal text).map (· ++ mark) := by
  unfold afterLiteral?
  induction literal generalizing text with
  | nil => simp [List.isPrefixOf?]
  | cons letter literal ih =>
      have hliteral : ∀ c, mark.head? = some c → c ∉ literal := by
        intro c hc hmem
        exact hmark c hc (List.mem_cons_of_mem _ hmem)
      cases text with
      | nil =>
          cases mark with
          | nil => rfl
          | cons c mark =>
              have hne : letter ≠ c := by
                rintro rfl
                exact hmark letter rfl List.mem_cons_self
              simp [List.isPrefixOf?, hne]
      | cons c text =>
          rw [List.cons_append, List.isPrefixOf?, List.isPrefixOf?]
          by_cases h : letter = c
          · simp [h, ih hliteral]
          · simp [h]

/-- A literal is read alike in front of a mark that has none of its characters. -/
theorem afterLiteral_append {literal mark : List Char} (hmark : ∀ c ∈ mark, c ∉ literal)
    (text : List Char) :
    afterLiteral? literal (text ++ mark) = (afterLiteral? literal text).map (· ++ mark) :=
  afterLiteral_append_of_head (fun c hc => hmark c (List.mem_of_mem_head? hc)) text

/-- A literal without a mark stands on one side of the mark. -/
theorem infix_append_mark {literal text more : List Char} {mark : Char} (hmark : mark ∉ literal)
    (h : literal <:+: text ++ mark :: more) : literal <:+: text ∨ literal <:+: more := by
  rcases List.infix_append_iff.mp h with h | h | ⟨first, second, rfl, hfirst, hsecond⟩
  · exact Or.inl h
  · rcases List.infix_cons_iff.mp h with hstarts | h
    · cases literal with
      | nil => exact Or.inl List.nil_infix
      | cons c literal =>
          have hc := (List.cons_prefix_cons.mp hstarts).1
          exact absurd (by rw [hc]; exact List.mem_cons_self) hmark
    · exact Or.inr h
  · cases second with
    | nil =>
        rw [List.append_nil]
        exact Or.inl hfirst.isInfix
    | cons c second =>
        have hc := (List.cons_prefix_cons.mp hsecond).1
        exact absurd (List.mem_append_right _ (by rw [hc]; exact List.mem_cons_self)) hmark

/-- A literal without a mark that starts a text stands before the first mark. -/
theorem prefix_append_mark {literal text more : List Char} {mark : Char} (hmark : mark ∉ literal)
    (h : literal <+: text ++ mark :: more) : literal <+: text := by
  rcases List.prefix_or_prefix_of_prefix h (List.prefix_append text _) with h' | ⟨rest, rfl⟩
  · exact h'
  · cases rest with
    | nil => simp
    | cons c rest =>
        have hc := (List.cons_prefix_cons.mp ((List.prefix_append_right_inj text).mp h)).1
        exact absurd (List.mem_append_right _ (by rw [hc]; exact List.mem_cons_self)) hmark

/-- A mark that starts no word does not change where words end. -/
theorem startsWord_append {mark : List Char} (hmark : startsWord mark = false) (text : List Char) :
    startsWord (text ++ mark) = startsWord text := by
  cases text with
  | nil => exact hmark
  | cons c text => rfl

/-- A keyword is read alike in front of a mark that can neither go on with it nor follow it as a
part of a word. -/
theorem keyword_append {word : String} {mark : List Char} (hmark : ∀ c ∈ mark, c ∉ word.toList)
    (hword : startsWord mark = false) (before : Option Char) (text : List Char) :
    keyword? word before (text ++ mark) = (keyword? word before text).map (· ++ mark) := by
  unfold keyword?
  rw [afterLiteral_append hmark]
  split
  · rfl
  · cases afterLiteral? word.toList text with
    | none => rfl
    | some rest =>
        simp only [Option.map_some, Option.filter_some, startsWord_append hword]
        split <;> rfl

theorem atKeyword_append {words : List String} {mark : List Char}
    (hmark : ∀ word ∈ words, ∀ c ∈ mark, c ∉ word.toList) (hword : startsWord mark = false)
    (before : Option Char) (text : List Char) :
    atKeyword words before (text ++ mark) = atKeyword words before text := by
  induction words with
  | nil => rfl
  | cons word words ih =>
      have hrest := ih fun other hmem => hmark other (List.mem_cons_of_mem _ hmem)
      unfold atKeyword at hrest ⊢
      rw [List.any_cons, List.any_cons, hrest,
        keyword_append (hmark word List.mem_cons_self) hword, Option.isSome_map]

/-- **A search goes on alike in front of a mark** if nothing is found in the mark and what is read
at each place of the text is the same up to a change. -/
theorem search_append {α : Type} {read : Reader α} {change : α → α} {text mark : List Char}
    (hnil : ∀ before, read before [] = none) (hmark : ∀ before, search read before mark = none)
    (htext : ∀ before rest, rest ≠ [] → rest <:+ text →
      read before (rest ++ mark) = (read before rest).map change)
    (before : Option Char) :
    search read before (text ++ mark) =
      (search read before text).map fun found => (found.1, change found.2) := by
  induction text generalizing before with
  | nil => simp [search, hnil, hmark]
  | cons c text ih =>
      have hfirst := htext before (c :: text) (List.cons_ne_nil _ _) (List.suffix_refl _)
      have hrest := ih fun before rest hne hsuffix =>
        htext before rest hne (hsuffix.trans (List.suffix_cons c text))
      rw [List.cons_append] at hfirst ⊢
      rw [search, search, hfirst]
      cases read before (c :: text) with
      | some found => rfl
      | none =>
          rw [Option.map_none, hrest]
          simp only [Option.map_map]
          rfl

/-- What is found in a text is found alike whatever stands behind it. -/
theorem search_append_of_found {α : Type} {read : Reader α} {change : α → α}
    {text more skipped : List Char} {found : α} {before : Option Char}
    (hnil : ∀ before, read before [] = none)
    (htext : ∀ before rest, rest ≠ [] → rest <:+ text →
      read before (rest ++ more) = (read before rest).map change)
    (h : search read before text = some (skipped, found)) :
    search read before (text ++ more) = some (skipped, change found) := by
  induction text generalizing before skipped with
  | nil =>
      rw [search, hnil] at h
      contradiction
  | cons c text ih =>
      have hfirst := htext before (c :: text) (List.cons_ne_nil _ _) (List.suffix_refl _)
      have htail : ∀ before rest, rest ≠ [] → rest <:+ text →
          read before (rest ++ more) = (read before rest).map change := fun before rest hne hsuffix =>
        htext before rest hne (hsuffix.trans (List.suffix_cons c text))
      rw [List.cons_append] at hfirst ⊢
      rw [search] at h ⊢
      rw [hfirst]
      cases hread : read before (c :: text) with
      | some value =>
          rw [hread] at h
          obtain ⟨rfl, rfl⟩ := Prod.mk.inj (Option.some.inj h)
          rfl
      | none =>
          rw [hread] at h
          obtain ⟨⟨others, value⟩, hfound, heq⟩ := Option.map_eq_some_iff.mp h
          obtain ⟨rfl, rfl⟩ := Prod.mk.inj heq
          rw [Option.map_none, ih htail hfound]
          rfl

/-- Nothing is found in a character where nothing is read at it or behind it. -/
theorem search_singleton {α : Type} {read : Reader α} {c : Char}
    (hnil : ∀ before, read before [] = none) (hmark : ∀ before, read before [c] = none)
    (before : Option Char) : search read before [c] = none := by
  rw [search, hmark, search, hnil]
  rfl

/-- A text up to a place ends before a mark at which it stops. -/
theorem upTo_append_mark {stop : Option Char → List Char → Bool} {mark : List Char}
    (hmark : ∀ before, stop before mark = true)
    (htext : ∀ before c text, stop before (c :: text ++ mark) = stop before (c :: text))
    (before : Option Char) (text : List Char) :
    upTo stop before (text ++ mark) = upTo stop before text := by
  induction text generalizing before with
  | nil =>
      cases mark with
      | nil => rfl
      | cons c mark => simp [upTo, hmark before]
  | cons c text ih =>
      have hfirst := htext before c text
      rw [List.cons_append] at hfirst ⊢
      rw [upTo, upTo, hfirst, ih]

/-- Blanks in front of something that is no blank are skipped alike. -/
theorem dropWhile_blanks_append {mark : List Char} (hmark : Halts isBlank mark)
    (text : List Char) :
    (text ++ mark).dropWhile isBlank = text.dropWhile isBlank ++ mark := by
  induction text with
  | nil => exact dropWhile_of_halts hmark
  | cons c text ih =>
      by_cases hc : isBlank c = true
      · rw [List.cons_append, List.dropWhile_cons_of_pos hc, List.dropWhile_cons_of_pos hc, ih]
      · rw [List.cons_append, List.dropWhile_cons_of_neg hc, List.dropWhile_cons_of_neg hc]
        rfl

theorem afterBlanks_append {mark : List Char} (hmark : Halts isBlank mark) (text : List Char) :
    afterBlanks? (text ++ mark) = (afterBlanks? text).map (· ++ mark) := by
  cases text with
  | nil => exact afterBlanks_of_halts hmark
  | cons c text =>
      rw [List.cons_append, afterBlanks?, afterBlanks?, dropWhile_blanks_append hmark]
      split <;> rfl

end Text
end SurrealSchema
