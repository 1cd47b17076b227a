import SurrealSchema.Proofs.Query.Canonical
import SurrealSchema.Proofs.Text.KeywordBlanks
import SurrealSchema.Proofs.Text.Spaced

namespace SurrealSchema
namespace Query

/-!
# Searching spaced words for clauses

Every search for a clause goes through the words of a text and stops at the first one that ends in
the keyword as a word of its own, because the keyword has to be followed by a blank.  Words that do
not end so are passed over as a whole.  The expression of a clause is the words up to the one that
starts the next clause.
-/

/-! ## Passing over words -/

/-- What is read behind the first keyword at which something can be read. -/
def find {α : Type} (keyword : String) (read : List Char → Option α) (before : Option Char)
    (text : List Char) : Option α :=
  (Text.search (fun before rest => (clauseKeyword? keyword before rest).bind read) before
    text).map Prod.snd

section Find

variable {α : Type} {keyword : String} {read : List Char → Option α}

theorem find_nil (hne : keyword.toList ≠ []) (before : Option Char) :
    find keyword read before [] = none := by
  have hnone : clauseKeyword? keyword before [] = none := by
    unfold clauseKeyword? Text.keywordThenBlanks?
    split
    · rfl
    · obtain ⟨letter, letters, hcons⟩ := List.exists_cons_of_ne_nil hne
      rw [hcons]
      rfl
  simp [find, Text.search, hnone]

/-- At a place the keyword is tried first, then the places behind it. -/
theorem find_cons_eq (before : Option Char) (c : Char) (text : List Char) :
    find keyword read before (c :: text) =
      ((clauseKeyword? keyword before (c :: text)).bind read).or
        (find keyword read (some c) text) := by
  unfold find
  rw [Text.search]
  cases (clauseKeyword? keyword before (c :: text)).bind read with
  | some found => rfl
  | none =>
      simp only [Option.map_map, Option.none_or]
      rfl

/-- Of what stands before a text it only matters whether it is part of a word. -/
theorem find_congr_before (hne : keyword.toList ≠ []) {before before' : Option Char}
    (h : Text.afterWord before = Text.afterWord before') (text : List Char) :
    find keyword read before text = find keyword read before' text := by
  cases text with
  | nil => rw [find_nil hne, find_nil hne]
  | cons c text =>
      rw [find_cons_eq, find_cons_eq]
      unfold clauseKeyword?
      rw [h]

/-- A place at which the keyword does not stand is passed over. -/
theorem find_cons {before : Option Char} {c : Char} {text : List Char}
    (h : clauseKeyword? keyword before (c :: text) = none) :
    find keyword read before (c :: text) = find keyword read (some c) text := by
  rw [find_cons_eq, h]
  rfl

/-- A keyword with a blank behind it is spelled by everything up to the next blank. -/
theorem spells_of_clauseKeyword {before : Option Char} {word rest after : List Char}
    (hcapitals : Text.Capitals keyword.toList) (hword : ∀ c ∈ word, Text.isBlank c = false)
    (hrest : rest = [] ∨ ∃ text, rest = ' ' :: text)
    (h : clauseKeyword? keyword before (word ++ rest) = some after) :
    Text.afterWord before = false ∧ Text.Spells keyword.toList word := by
  unfold clauseKeyword? at h
  split at h
  · contradiction
  · next hbefore =>
      have hword' : ∀ c ∈ word, (!Text.isBlank c) = true := by
        intro c hc
        rw [hword c hc]
        rfl
      have hhalts : Text.Halts (fun c => !Text.isBlank c) rest := by
        rcases hrest with rfl | ⟨text, rfl⟩
        · exact Text.halts_nil _
        · exact Text.halts_cons (by decide) text
      obtain ⟨hspells, -⟩ := Text.spells_of_keywordThenBlanks hcapitals Text.delimits_not_isBlank
        hword' hhalts h
      exact ⟨by simpa using hbefore, hspells⟩

/-- The rest of a word that does not end in the keyword is passed over; `passed` is the part of the
word that lies behind. -/
theorem find_rest_of_word (hcapitals : Text.Capitals keyword.toList) {passed word rest : List Char}
    {before : Option Char}
    (hbefore : Text.afterWord before = Text.afterWord passed.getLast?)
    (hword : ∀ c ∈ word, Text.isBlank c = false)
    (hends : ¬ Text.Ends keyword.toList (passed ++ word))
    (hrest : rest = [] ∨ ∃ text, rest = ' ' :: text) :
    find keyword read before (word ++ rest) =
      find keyword read (word.getLast?.or before) rest := by
  -- Every character that is passed moves to `passed`, so `hends` is about the same word throughout.
  induction word generalizing passed before with
  | nil => rfl
  | cons c word ih =>
      have hnone : clauseKeyword? keyword before (c :: word ++ rest) = none := by
        rw [Option.eq_none_iff_forall_ne_some]
        intro after hafter
        obtain ⟨hboundary, hspells⟩ := spells_of_clauseKeyword hcapitals hword hrest hafter
        rw [hbefore] at hboundary
        exact hends ⟨passed, c :: word, rfl, hspells, hboundary⟩
      have hlast : Text.afterWord (some c) = Text.afterWord (passed ++ [c]).getLast? := by
        rw [List.getLast?_append]
        rfl
      have hsplit : passed ++ [c] ++ word = passed ++ c :: word := by
        rw [List.append_assoc]
        rfl
      rw [List.cons_append] at hnone ⊢
      rw [find_cons hnone, ih hlast (fun d hd => hword d (List.mem_cons_of_mem _ hd))
        (by rw [hsplit]; exact hends)]
      congr 1
      rw [List.getLast?_cons]
      cases word.getLast? <;> rfl

/-- A character that is not part of a word is passed over. -/
theorem find_mark (hcapitals : Text.Capitals keyword.toList) (hne : keyword.toList ≠ [])
    {mark : Char} (hmark : Text.isWord mark = false) (before : Option Char)
    (text : List Char) :
    find keyword read before (mark :: text) = find keyword read none text := by
  have hnone : clauseKeyword? keyword before (mark :: text) = none := by
    rw [Option.eq_none_iff_forall_ne_some]
    intro after hafter
    unfold clauseKeyword? at hafter
    split at hafter
    · contradiction
    · -- The mark would have to be the first letter of the keyword.
      obtain ⟨behind, hliteral, -⟩ := Option.bind_eq_some_iff.mp hafter
      obtain ⟨front, hsplit, hspells⟩ := Text.spells_of_afterLiteralAnyCase hliteral
      obtain ⟨c, rest, rfl⟩ := List.exists_cons_of_ne_nil (Text.ne_nil_of_spells hne hspells)
      have hword := Text.isWord_of_spells hcapitals hspells c List.mem_cons_self
      rw [← (List.cons.inj hsplit).1, hmark] at hword
      contradiction
  have hboundary : Text.afterWord (some mark) = Text.afterWord none := hmark
  rw [find_cons hnone, find_congr_before hne hboundary]

/-- A space is passed over. -/
theorem find_space (hcapitals : Text.Capitals keyword.toList) (hne : keyword.toList ≠ [])
    (before : Option Char) (text : List Char) :
    find keyword read before (' ' :: text) = find keyword read (some ' ') text := by
  have hspace : Text.afterWord none = Text.afterWord (some ' ') := by decide
  rw [find_mark hcapitals hne (by decide), find_congr_before hne hspace]

/-- Words without blanks that do not end in a keyword. -/
def Avoids (keyword : String) (word : List Char) : Prop :=
  (∀ c ∈ word, Text.isBlank c = false) ∧ ¬ Text.Ends keyword.toList word

/-- Words that do not end in the keyword are passed over together with the space behind them. -/
theorem find_spaced (hcapitals : Text.Capitals keyword.toList) (hne : keyword.toList ≠ [])
    {words : List Char} (h : Text.Spaced (Avoids keyword) words) (rest : List Char) :
    find keyword read (some ' ') (words ++ ' ' :: rest) = find keyword read (some ' ') rest := by
  have hspace : Text.afterWord (some ' ') = Text.afterWord ([] : List Char).getLast? := by decide
  induction h with
  | word hword =>
      rw [find_rest_of_word hcapitals hspace hword.1 hword.2 (Or.inr ⟨_, rfl⟩),
        find_space hcapitals hne]
  | cons hword _ ih =>
      rw [List.append_assoc, List.cons_append,
        find_rest_of_word hcapitals hspace hword.1 hword.2 (Or.inr ⟨_, rfl⟩),
        find_space hcapitals hne, ih]

/-- Where no word ends in the keyword nothing is found. -/
theorem find_spaced_end (hcapitals : Text.Capitals keyword.toList) (hne : keyword.toList ≠ [])
    {words : List Char} (h : Text.Spaced (Avoids keyword) words) :
    find keyword read (some ' ') words = none := by
  have hspace : Text.afterWord (some ' ') = Text.afterWord ([] : List Char).getLast? := by decide
  induction h with
  | @word word hword =>
      have hend : find keyword read (some ' ') (word ++ []) = _ :=
        find_rest_of_word hcapitals hspace hword.1 hword.2 (Or.inl rfl)
      rw [List.append_nil] at hend
      rw [hend, find_nil hne]
  | cons hword _ ih =>
      rw [find_rest_of_word hcapitals hspace hword.1 hword.2 (Or.inr ⟨_, rfl⟩),
        find_space hcapitals hne, ih]

/-- What spells the keyword is found, if something can be read behind it. -/
theorem find_spelled (hne : keyword.toList ≠ []) {before : Option Char}
    (hbefore : Text.afterWord before = false) {front rest : List Char}
    (hspells : Text.Spells keyword.toList front) (hrest : Text.Halts Text.isBlank rest) {found : α}
    (hread : read rest = some found) :
    find keyword read before (front ++ ' ' :: rest) = some found := by
  obtain ⟨c, front, rfl⟩ := List.exists_cons_of_ne_nil (Text.ne_nil_of_spells hne hspells)
  have hkeyword : clauseKeyword? keyword before (c :: front ++ ' ' :: rest) = some rest := by
    unfold clauseKeyword?
    rw [hbefore, Text.keywordThenBlanks_of_spells hspells hrest]
    rfl
  rw [List.cons_append] at hkeyword ⊢
  rw [find_cons_eq, hkeyword, Option.bind_some, hread]
  rfl

/-- The keyword itself is found, if something can be read behind it. -/
theorem find_keyword (hcapitals : Text.Capitals keyword.toList) (hne : keyword.toList ≠ [])
    {before : Option Char} (hbefore : Text.afterWord before = false) {rest : List Char}
    (hrest : Text.Halts Text.isBlank rest) {found : α} (hread : read rest = some found) :
    find keyword read before (keyword.toList ++ ' ' :: rest) = some found :=
  find_spelled hne hbefore (Text.spells_self hcapitals) hrest hread

end Find

end Query
end SurrealSchema
