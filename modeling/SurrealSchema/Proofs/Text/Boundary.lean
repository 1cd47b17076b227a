import SurrealSchema.Proofs.Text.KeywordBlanks

namespace SurrealSchema
namespace Text

/-!
# Texts that no word reaches over

A text that does not end in a character of a class is read alike whatever stands behind it, as far
as runs of the class go: none of them reaches over the end of the text.  Only where the text is used
up does the reading depend on what follows, so the lemmas here either ask for a text that is not
empty, or for a rest that cannot start with the keyword.  A text that is empty or ends in a blank
leaves every class that has no blanks.
-/

/-- Whether a text does not end in a character of a class. -/
def Leaves (p : Char → Bool) (text : List Char) : Prop :=
  ∀ c, text.getLast? = some c → p c = false

theorem Leaves.of_suffix {p : Char → Bool} {text rest : List Char} (h : Leaves p text)
    (hrest : rest <:+ text) : Leaves p rest := by
  intro c hc
  obtain ⟨front, rfl⟩ := hrest
  apply h
  rw [List.getLast?_append, hc]
  rfl

/-- A character of the class is not all that a text consists of. -/
theorem Leaves.ne_nil_of_cons {p : Char → Bool} {c : Char} {text : List Char}
    (h : Leaves p (c :: text)) (hc : p c = true) : text ≠ [] := by
  rintro rfl
  rw [h c rfl] at hc
  contradiction

/-- Whether a text is empty or ends in a blank. -/
def EndsBlank (text : List Char) : Prop :=
  ∀ c, text.getLast? = some c → isBlank c = true

instance (text : List Char) : Decidable (EndsBlank text) :=
  decidable_of_iff (text.getLast?.all isBlank = true) (by
    cases h : text.getLast? <;> simp [EndsBlank, h])

theorem EndsBlank.of_suffix {text rest : List Char} (h : EndsBlank text) (hrest : rest <:+ text) :
    EndsBlank rest := by
  intro c hc
  obtain ⟨front, rfl⟩ := hrest
  apply h
  rw [List.getLast?_append, hc]
  rfl

theorem EndsBlank.leaves {text : List Char} (h : EndsBlank text) {p : Char → Bool}
    (hp : ∀ c, isBlank c = true → p c = false) : Leaves p text :=
  fun c hc => hp c (h c hc)

theorem EndsBlank.leaves_isWord {text : List Char} (h : EndsBlank text) : Leaves isWord text :=
  h.leaves fun _ hc => isWord_of_isBlank hc

/-! ## Runs -/

section Run

variable {p : Char → Bool} {text : List Char}

/-- A run of the class ends where the text does, at the latest. -/
theorem Leaves.takeWhile_append (h : Leaves p text) (hne : text ≠ []) (rest : List Char) :
    (text ++ rest).takeWhile p = text.takeWhile p := by
  induction text with
  | nil => contradiction
  | cons c text ih =>
      rw [List.cons_append, List.takeWhile_cons, List.takeWhile_cons]
      split
      · next hc => rw [ih (h.of_suffix (List.suffix_cons c text)) (h.ne_nil_of_cons hc)]
      · rfl

theorem Leaves.dropWhile_append (h : Leaves p text) (hne : text ≠ []) (rest : List Char) :
    (text ++ rest).dropWhile p = text.dropWhile p ++ rest := by
  have hsplit : (text ++ rest).takeWhile p ++ (text ++ rest).dropWhile p =
      text.takeWhile p ++ (text.dropWhile p ++ rest) := by
    rw [List.takeWhile_append_dropWhile, ← List.append_assoc, List.takeWhile_append_dropWhile]
  rw [h.takeWhile_append hne] at hsplit
  exact List.append_cancel_left hsplit

/-- Behind a run there is still the character at the end. -/
theorem Leaves.dropWhile_ne_nil (h : Leaves p text) (hne : text ≠ []) : text.dropWhile p ≠ [] := by
  intro hnil
  obtain ⟨c, hc⟩ := Option.isSome_iff_exists.mp (List.getLast?_isSome.mpr hne)
  have hall : p c = true := List.dropWhile_eq_nil_iff.mp hnil c (List.mem_of_getLast? hc)
  rw [h c hc] at hall
  contradiction

end Run

/-! ## Keywords -/

section Keyword

variable {keyword text : List Char} (hkeyword : Capitals keyword)
include hkeyword

theorem Leaves.afterLiteralAnyCase_append (h : Leaves isWord text) (hne : text ≠ [])
    (rest : List Char) :
    afterLiteralAnyCase? keyword (text ++ rest) =
      (afterLiteralAnyCase? keyword text).map (· ++ rest) := by
  induction keyword generalizing text with
  | nil => rfl
  | cons letter keyword ih =>
      obtain ⟨c, more, rfl⟩ := List.exists_cons_of_ne_nil hne
      rw [List.cons_append, afterLiteralAnyCase?, afterLiteralAnyCase?]
      split
      · next hmatch =>
          have hword := isWord_of_matchesLetter (hkeyword letter List.mem_cons_self) hmatch
          exact ih (fun other hmem => hkeyword other (List.mem_cons_of_mem _ hmem))
            (h.of_suffix (List.suffix_cons c more)) (h.ne_nil_of_cons hword)
      · rfl

/-- A keyword leaves the character at the end. -/
theorem Leaves.ne_nil_of_afterLiteralAnyCase (h : Leaves isWord text) (hne : text ≠ [])
    {rest : List Char} (hread : afterLiteralAnyCase? keyword text = some rest) : rest ≠ [] := by
  rintro rfl
  obtain ⟨front, hfront, hspells⟩ := spells_of_afterLiteralAnyCase hread
  rw [List.append_nil] at hfront
  obtain ⟨c, hc⟩ := Option.isSome_iff_exists.mp (List.getLast?_isSome.mpr hne)
  have hword : isWord c = true :=
    isWord_of_spells hkeyword hspells c (hfront ▸ List.mem_of_getLast? hc)
  rw [h c hc] at hword
  contradiction

end Keyword

/-- A literal of word characters is read alike whatever stands behind the text. -/
theorem Leaves.afterLiteral_append {literal text : List Char}
    (hliteral : ∀ c ∈ literal, isWord c = true) (h : Leaves isWord text) (hne : text ≠ [])
    (rest : List Char) :
    afterLiteral? literal (text ++ rest) = (afterLiteral? literal text).map (· ++ rest) := by
  unfold afterLiteral?
  induction literal generalizing text with
  | nil => rfl
  | cons letter literal ih =>
      obtain ⟨c, more, rfl⟩ := List.exists_cons_of_ne_nil hne
      rw [List.cons_append, List.isPrefixOf?, List.isPrefixOf?]
      split
      · next hmatch =>
          have hword := hliteral letter List.mem_cons_self
          rw [beq_iff_eq.mp hmatch] at hword
          exact ih (fun other hmem => hliteral other (List.mem_cons_of_mem _ hmem))
            (h.of_suffix (List.suffix_cons c more)) (h.ne_nil_of_cons hword)
      · rfl

section Word

variable {word : String} (hcapitals : Capitals word.toList) {text rest : List Char}
include hcapitals

/-- A keyword with blanks behind it is read alike in front of a rest that neither goes on with the
blanks nor, where the text is empty, starts with the keyword. -/
theorem Leaves.keywordThenBlanks_append (h : Leaves isWord text) (hhalts : Halts isBlank rest)
    (hnone : text = [] → keywordThenBlanks? word rest = none) :
    keywordThenBlanks? word (text ++ rest) = (keywordThenBlanks? word text).map (· ++ rest) := by
  by_cases hne : text = []
  · have hnil : keywordThenBlanks? word [] = none := by
      unfold keywordThenBlanks?
      cases word.toList <;> rfl
    rw [hne, List.nil_append, hnone hne, hnil]
    rfl
  · unfold keywordThenBlanks?
    rw [h.afterLiteralAnyCase_append hcapitals hne]
    cases afterLiteralAnyCase? word.toList text with
    | none => rfl
    | some behind => exact afterBlanks_append hhalts behind

/-- A keyword of its own is there or not, whatever stands behind the text. -/
theorem EndsBlank.isSome_keywordAnyCase_append (h : EndsBlank text)
    (hnone : afterLiteralAnyCase? word.toList rest = none) (before : Option Char) :
    (keywordAnyCase? word before (text ++ rest)).isSome =
      (keywordAnyCase? word before text).isSome := by
  unfold keywordAnyCase?
  split
  · rfl
  · by_cases hne : text = []
    · rw [hne, List.nil_append, hnone]
      cases hword : word.toList with
      | nil =>
          rw [hword] at hnone
          contradiction
      | cons letter keyword => rfl
    · rw [h.leaves_isWord.afterLiteralAnyCase_append hcapitals hne]
      cases hread : afterLiteralAnyCase? word.toList text with
      | none => rfl
      | some behind =>
          obtain ⟨c, more, rfl⟩ := List.exists_cons_of_ne_nil
            (h.leaves_isWord.ne_nil_of_afterLiteralAnyCase hcapitals hne hread)
          rw [Option.map_some, List.cons_append, Option.filter_some, Option.filter_some,
            startsWord, startsWord]
          split <;> rfl

end Word

/-! ## What is left behind words -/

/-- Whether a text is what another one leaves behind some of its words. -/
structure Behind (rest text : List Char) : Prop where
  suffix : rest <:+ text
  words : words rest <:+ words text

theorem Behind.trans {rest middle text : List Char} (h : Behind rest middle)
    (hmiddle : Behind middle text) : Behind rest text :=
  ⟨h.suffix.trans hmiddle.suffix, h.words.trans hmiddle.words⟩

theorem behind_of_keywordThenBlanks {word : String} (hcapitals : Capitals word.toList)
    (hne : word.toList ≠ []) {text rest : List Char}
    (h : keywordThenBlanks? word text = some rest) :
    Behind rest text := by
  constructor
  · obtain ⟨behind, hliteral, hblanks⟩ := Option.bind_eq_some_iff.mp h
    obtain ⟨front, rfl, -⟩ := spells_of_afterLiteralAnyCase hliteral
    obtain ⟨b, blanks, rfl, -, -⟩ := blanks_of_afterBlanks hblanks
    exact ⟨front ++ b :: blanks, by rw [List.append_assoc, List.cons_append]⟩
  · obtain ⟨first, -, hwords⟩ := words_of_keywordThenBlanks hcapitals hne h
    rw [hwords]
    exact List.suffix_cons first _

theorem behind_trimStart (text : List Char) : Behind (trimStart text) text := by
  refine ⟨List.dropWhile_suffix _, ?_⟩
  have hblanks : ∀ c ∈ text.takeWhile isBlank, isBlank c = true :=
    fun c hc => List.mem_takeWhile_imp hc
  have hwords := words_blanks_append hblanks (text.dropWhile isBlank)
  rw [List.takeWhile_append_dropWhile] at hwords
  rw [hwords]
  exact List.suffix_refl _

/-- Whether the last words of a text spell some keywords. -/
def EndsInWords (keywords : List String) (text : List Char) : Prop :=
  ∃ last, last <:+ words text ∧
    List.Forall₂ (fun keyword word => Spells keyword.toList word) keywords last

/-- As many words as there are keywords are looked at. -/
theorem endsInWords_iff (keywords : List String) (text : List Char) :
    EndsInWords keywords text ↔
      List.Forall₂ (fun keyword word => Spells keyword.toList word) keywords
        ((words text).drop ((words text).length - keywords.length)) := by
  constructor
  · rintro ⟨last, hlast, hspells⟩
    have hdrop := List.suffix_iff_eq_drop.mp hlast
    rw [← hspells.length_eq] at hdrop
    rw [← hdrop]
    exact hspells
  · intro hspells
    exact ⟨_, List.drop_suffix _ _, hspells⟩

instance (keywords : List String) (text : List Char) : Decidable (EndsInWords keywords text) :=
  decidable_of_iff _ (endsInWords_iff keywords text).symm

/-- The last words of what is left are the last words of the text. -/
theorem EndsInWords.of_behind {keywords : List String} {rest text : List Char}
    (h : EndsInWords keywords rest) (hrest : Behind rest text) : EndsInWords keywords text := by
  obtain ⟨last, hlast, hspells⟩ := h
  exact ⟨last, hlast.trans hrest.words, hspells⟩

end Text
end SurrealSchema
