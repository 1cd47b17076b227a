import SurrealSchema.Proofs.Text.KeywordBlanks

namespace SurrealSchema
namespace Text

/-!
# Passing over a text

A search goes through a text place by place.  Where nothing is found at the places of a front part,
the search is a search of what follows; `Passes` says this of a test.

For keywords it is enough to know that a keyword is no word of the front part, `Lacks`.  A keyword
is read only from a whole run of word characters, so a text can be looked at between any two
characters that are no part of words, and what follows such a character changes nothing.
-/

/-! ## Places of a front part -/

/-- Whether a test fails at every place of a front part that has a rest behind it. -/
def Passes (test : Option Char → List Char → Bool) (rest : List Char) :
    Option Char → List Char → Prop
  | _, [] => True
  | before, c :: front =>
    test before (c :: (front ++ rest)) = false ∧ Passes test rest (some c) front

section Passes

variable {test : Option Char → List Char → Bool} {before : Option Char} {front rest : List Char}

/-- The character before what follows a front part. -/
theorem getLast?_or_cons (c : Char) (front : List Char) (before : Option Char) :
    (c :: front).getLast?.or before = front.getLast?.or (some c) := by
  rw [List.getLast?_cons]
  cases front.getLast? <;> rfl

/-- A search passes over a front part in which nothing is read. -/
theorem search_of_passes {α : Type} {read : Reader α}
    (h : Passes (fun before text => (read before text).isSome) rest before front) :
    search read before (front ++ rest) =
      (search read (front.getLast?.or before) rest).map fun found =>
        (front ++ found.1, found.2) := by
  induction front generalizing before with
  | nil => simp
  | cons c front ih =>
      obtain ⟨hfirst, hrest⟩ := h
      have hnone : read before (c :: (front ++ rest)) = none := by simpa using hfirst
      rw [List.cons_append, search, hnone, ih hrest, getLast?_or_cons]
      simp only [Option.map_map]
      rfl

theorem upTo_of_passes (h : Passes test rest before front) :
    upTo test before (front ++ rest) = front ++ upTo test (front.getLast?.or before) rest := by
  induction front generalizing before with
  | nil => simp
  | cons c front ih =>
      obtain ⟨hfirst, hrest⟩ := h
      rw [List.cons_append, upTo, hfirst, ih hrest, getLast?_or_cons]
      rfl

theorem Passes.append {more : List Char} (h : Passes test (more ++ rest) before front)
    (hmore : Passes test rest (front.getLast?.or before) more) :
    Passes test rest before (front ++ more) := by
  induction front generalizing before with
  | nil => simpa using hmore
  | cons c front ih =>
      rw [getLast?_or_cons] at hmore
      refine ⟨?_, ih h.2 hmore⟩
      have hfirst := h.1
      rwa [← List.append_assoc] at hfirst

theorem Passes.imp {other : Option Char → List Char → Bool}
    (himp : ∀ before text, other before text = true → test before text = true)
    (h : Passes test rest before front) : Passes other rest before front := by
  induction front generalizing before with
  | nil => trivial
  | cons c front ih =>
      refine ⟨?_, ih h.2⟩
      by_contra hother
      have htest := himp before _ (by simpa using hother)
      rw [h.1] at htest
      contradiction

/-- A test that holds where one of some tests holds passes where each of these passes. -/
theorem passes_any {ι : Type} {tests : ι → Option Char → List Char → Bool} {items : List ι}
    (h : ∀ item ∈ items, Passes (tests item) rest before front) :
    Passes (fun before text => items.any fun item => tests item before text) rest before front := by
  induction front generalizing before with
  | nil => trivial
  | cons c front ih =>
      refine ⟨?_, ih fun item hmem => (h item hmem).2⟩
      rw [List.any_eq_false]
      intro item hmem
      simpa using (h item hmem).1

theorem Passes.or {other : Option Char → List Char → Bool} (h : Passes test rest before front)
    (hother : Passes other rest before front) :
    Passes (fun before text => test before text || other before text) rest before front := by
  induction front generalizing before with
  | nil => trivial
  | cons c front ih => exact ⟨by simp [h.1, hother.1], ih h.2 hother.2⟩

/-- A test for the character at a place passes over a text without the character. -/
theorem passes_head {mark : Char} (h : mark ∉ front) :
    Passes (fun _ text => text.head? == some mark) rest before front := by
  induction front generalizing before with
  | nil => trivial
  | cons c front ih =>
      simp only [List.mem_cons, not_or] at h
      exact ⟨by simp [Ne.symm h.1], ih h.2⟩

theorem not_mem_of_passes_head {mark : Char}
    (h : Passes (fun _ text => text.head? == some mark) rest before front) : mark ∉ front := by
  induction front generalizing before with
  | nil => exact List.not_mem_nil
  | cons c front ih =>
      have hfirst : c ≠ mark := by simpa using h.1
      rw [List.mem_cons, not_or]
      exact ⟨hfirst.symm, ih h.2⟩

/-- Where a search finds nothing, every front part is passed over. -/
theorem passes_of_search_eq_none {α : Type} {read : Reader α}
    (h : search read before (front ++ rest) = none) :
    Passes (fun before text => (read before text).isSome) rest before front := by
  induction front generalizing before with
  | nil => trivial
  | cons c front ih =>
      rw [List.cons_append, search] at h
      cases hread : read before (c :: (front ++ rest)) with
      | some found => simp [hread] at h
      | none =>
          rw [hread, Option.map_eq_none_iff] at h
          exact ⟨by simp [hread], ih h⟩

/-- A front part is passed over if the text up to the first place of a test is no shorter. -/
theorem passes_of_length_le (h : front.length ≤ (upTo test before (front ++ rest)).length) :
    Passes test rest before front := by
  induction front generalizing before with
  | nil => trivial
  | cons c front ih =>
      rw [List.cons_append, upTo] at h
      split at h
      · exact absurd h (Nat.not_succ_le_zero _)
      · next hfirst => exact ⟨by simpa using hfirst, ih (Nat.le_of_succ_le_succ h)⟩

end Passes

/-! ## Readers of words -/

/-- A reader of single words: it reads nothing inside a word, and of what follows the run at its
place it does not look at anything. -/
structure ReadsWord (read : Reader (List Char)) : Prop where
  inside : ∀ before text, afterWord before = true → read before text = none
  outside : ∀ before text, afterWord before = false → read before text = read none text
  halted : ∀ before text, Halts isWord text → read before text = none
  append : ∀ before text rest, Halts isWord rest →
    read before (text ++ rest) = (read before text).map (· ++ rest)

/-- Whether nothing is read anywhere in a text. -/
def Lacks (read : Reader (List Char)) (text : List Char) : Prop :=
  search read none text = none

instance (read : Reader (List Char)) (text : List Char) : Decidable (Lacks read text) :=
  inferInstanceAs (Decidable (search read none text = none))

namespace ReadsWord

variable {read : Reader (List Char)} (h : ReadsWord read) {text rest : List Char}
include h

/-- The character before a text does not make a reader read more. -/
theorem search_eq_none (hlacks : Lacks read text) (before : Option Char) :
    search read before text = none := by
  have hread : ∀ text, read none text = none → read before text = none := by
    intro text hnone
    cases hbefore : afterWord before with
    | true => exact h.inside before text hbefore
    | false => rw [h.outside before text hbefore, hnone]
  unfold Lacks at hlacks
  cases text with
  | nil =>
      rw [search, Option.map_eq_none_iff] at hlacks ⊢
      exact hread [] hlacks
  | cons c text =>
      rw [search] at hlacks ⊢
      cases hfirst : read none (c :: text) with
      | some found => simp [hfirst] at hlacks
      | none =>
          rw [hfirst] at hlacks
          rw [hread _ hfirst]
          exact hlacks

/-- What lacks a word is passed over in front of anything that does not go on with its last word. -/
theorem passes (hlacks : Lacks read text) (hrest : Halts isWord rest) (before : Option Char) :
    Passes (fun before text => (read before text).isSome) rest before text := by
  have hsearch := h.search_eq_none hlacks before
  clear hlacks
  induction text generalizing before with
  | nil => trivial
  | cons c text ih =>
      rw [search] at hsearch
      cases hfirst : read before (c :: text) with
      | some found => simp [hfirst] at hsearch
      | none =>
          rw [hfirst, Option.map_eq_none_iff] at hsearch
          refine ⟨?_, ih (some c) hsearch⟩
          have happend := h.append before (c :: text) rest hrest
          rw [hfirst, List.cons_append] at happend
          simp [happend]

theorem lacks_nil : Lacks read [] := by
  unfold Lacks
  rw [search, h.halted none [] (halts_nil _)]
  rfl

/-- Behind a mark a search goes on as at the start of a text. -/
theorem search_outside {before : Option Char} (hbefore : afterWord before = false)
    (text : List Char) : search read before text = search read none text := by
  cases text <;> rw [search, search, h.outside _ _ hbefore]

theorem lacks_cons_iff {c : Char} (hc : isWord c = false) :
    Lacks read (c :: text) ↔ Lacks read text := by
  have hbehind : afterWord (some c) = false := hc
  unfold Lacks
  rw [search, h.halted _ _ (halts_cons hc text)]
  dsimp only
  rw [Option.map_eq_none_iff, h.search_outside hbehind]

theorem lacks_cons {c : Char} (hc : isWord c = false) (hlacks : Lacks read text) :
    Lacks read (c :: text) :=
  (h.lacks_cons_iff hc).mpr hlacks

/-- Two texts that lack a word lack it side by side if no word goes on from one to the other. -/
theorem lacks_append {front : List Char} (hfront : Lacks read front) (hhalts : Halts isWord rest)
    (hrest : Lacks read rest) : Lacks read (front ++ rest) := by
  unfold Lacks
  rw [search_of_passes (h.passes hfront hhalts none), h.search_eq_none hrest]
  rfl

/-- What is passed over lacks the word. -/
theorem lacks_of_passes {before : Option Char} (hbefore : afterWord before = false)
    (hrest : Halts isWord rest)
    (hpasses : Passes (fun before text => (read before text).isSome) rest before text) :
    Lacks read text := by
  unfold Lacks
  rw [← h.search_outside hbefore]
  clear hbefore
  induction text generalizing before with
  | nil =>
      rw [search, h.halted before [] (halts_nil _)]
      rfl
  | cons c text ih =>
      obtain ⟨hfirst, hmore⟩ := hpasses
      have happend := h.append before (c :: text) rest hrest
      rw [List.cons_append] at happend
      have hread : read before (c :: text) = none := by simpa [happend] using hfirst
      rw [search, hread, ih hmore]
      rfl

/-- A text with a mark in it lacks a word exactly when the parts around the mark do. -/
theorem lacks_append_mark_iff {front : List Char} {c : Char} (hc : isWord c = false) :
    Lacks read (front ++ c :: rest) ↔ Lacks read front ∧ Lacks read rest := by
  have hhalts : Halts isWord (c :: rest) := halts_cons hc rest
  have hbehind : afterWord (some c) = false := hc
  constructor
  · intro hlacks
    have hpasses := passes_of_search_eq_none hlacks
    unfold Lacks at hlacks
    rw [search_of_passes hpasses, Option.map_eq_none_iff, search, h.halted _ _ hhalts] at hlacks
    dsimp only at hlacks
    rw [Option.map_eq_none_iff, h.search_outside hbehind] at hlacks
    exact ⟨h.lacks_of_passes rfl hhalts hpasses, hlacks⟩
  · rintro ⟨hfront, hrest⟩
    exact h.lacks_append hfront hhalts (h.lacks_cons hc hrest)

theorem lacks_append_space {front : List Char} (hfront : Lacks read front)
    (hrest : Lacks read rest) : Lacks read (front ++ ' ' :: rest) := by
  have hspace : isWord ' ' = false := by decide
  exact h.lacks_append hfront (halts_cons hspace rest) (h.lacks_cons hspace hrest)

/-- A run of word characters lacks every word but itself. -/
theorem lacks_run {run : List Char} (hrun : ∀ c ∈ run, isWord c = true)
    (hnone : read none run = none) : Lacks read run := by
  unfold Lacks
  cases run with
  | nil => exact h.lacks_nil
  | cons c run =>
      -- Nothing is read inside the run, so only its start counts.
      have hinside : ∀ before, afterWord before = true → search read before run = none := by
        have htail : ∀ d ∈ run, isWord d = true := fun d hd => hrun d (List.mem_cons_of_mem _ hd)
        clear hnone hrun
        induction run with
        | nil =>
            intro before hbefore
            rw [search, h.inside before [] hbefore]
            rfl
        | cons d run ih =>
            intro before hbefore
            have hd : afterWord (some d) = true := htail d List.mem_cons_self
            rw [search, h.inside before _ hbefore,
              ih (fun e he => htail e (List.mem_cons_of_mem _ he)) (some d) hd]
            rfl
      rw [search, hnone, hinside (some c) (hrun c List.mem_cons_self)]
      rfl

/-- Marks are passed over whatever stands behind them. -/
theorem passes_marks {marks : List Char} (hmarks : ∀ c ∈ marks, isWord c = false)
    (before : Option Char) :
    Passes (fun before text => (read before text).isSome) rest before marks := by
  induction marks generalizing before with
  | nil => trivial
  | cons c marks ih =>
      have hc := hmarks c List.mem_cons_self
      exact ⟨by simp [h.halted _ _ (halts_cons hc _)],
        ih (fun d hd => hmarks d (List.mem_cons_of_mem _ hd)) (some c)⟩

/-- Marks behind a text add no words. -/
theorem lacks_append_marks {marks : List Char} (hlacks : Lacks read text)
    (hmarks : ∀ c ∈ marks, isWord c = false) : Lacks read (text ++ marks) := by
  have hnone : Lacks read marks := by
    clear hlacks
    induction marks with
    | nil => exact h.lacks_nil
    | cons c marks ih =>
        exact h.lacks_cons (hmarks c List.mem_cons_self)
          (ih fun d hd => hmarks d (List.mem_cons_of_mem _ hd))
  exact h.lacks_append hlacks (fun c hc => hmarks c (List.mem_of_mem_head? hc)) hnone

end ReadsWord

/-! ## Keywords -/

/-- A literal of word characters is read alike in front of what goes on with no word. -/
theorem afterLiteral_append_of_halts {literal rest : List Char}
    (hliteral : ∀ c ∈ literal, isWord c = true) (hrest : Halts isWord rest) (text : List Char) :
    afterLiteral? literal (text ++ rest) = (afterLiteral? literal text).map (· ++ rest) := by
  refine afterLiteral_append_of_head (fun c hc hmem => ?_) text
  have hword := hliteral c hmem
  rw [hrest c hc] at hword
  contradiction

/-- A word of its own, which is read by its letters in front of any boundary. -/
def wholeWord (letters : List Char → Option (List Char)) : Reader (List Char) := fun before text =>
  if afterWord before then none else (letters text).filter fun rest => !startsWord rest

/-- Letters that are read alike in front of a boundary make a word of its own. -/
theorem readsWord_wholeWord {letters : List Char → Option (List Char)}
    (hhalted : ∀ text, Halts isWord text → letters text = none)
    (happend : ∀ text rest, Halts isWord rest →
      letters (text ++ rest) = (letters text).map (· ++ rest)) :
    ReadsWord (wholeWord letters) where
  inside := by
    intro before text hbefore
    simp [wholeWord, hbefore]
  outside := by
    intro before text hbefore
    have hnone : afterWord none = false := rfl
    simp [wholeWord, hbefore, hnone]
  halted := by
    intro before text htext
    simp [wholeWord, hhalted text htext]
  append := by
    intro before text rest hrest
    unfold wholeWord
    rw [happend text rest hrest]
    split
    · rfl
    · cases letters text with
      | none => rfl
      | some behind =>
          have hboundary := startsWord_append (startsWord_of_halts hrest)
          simp only [Option.map_some, Option.filter_some, hboundary]
          split <;> rfl

theorem readsWord_keyword {word : String} (hne : word.toList ≠ [])
    (hword : ∀ c ∈ word.toList, isWord c = true) : ReadsWord (keyword? word) := by
  show ReadsWord (wholeWord (afterLiteral? word.toList))
  refine readsWord_wholeWord ?_ ?_
  · intro text htext
    have happend := afterLiteral_append_of_halts hword htext []
    obtain ⟨letter, letters, heq⟩ := List.exists_cons_of_ne_nil hne
    rw [heq] at happend ⊢
    exact happend
  · intro text rest hrest
    exact afterLiteral_append_of_halts hword hrest text

theorem readsWord_keywordAnyCase {word : String} (hne : word.toList ≠ [])
    (hcapitals : Capitals word.toList) : ReadsWord (keywordAnyCase? word) := by
  show ReadsWord (wholeWord (afterLiteralAnyCase? word.toList))
  refine readsWord_wholeWord ?_ ?_
  · intro text htext
    have happend := afterLiteralAnyCase_append_of_halts hcapitals htext []
    obtain ⟨letter, letters, heq⟩ := List.exists_cons_of_ne_nil hne
    rw [heq] at happend ⊢
    exact happend
  · intro text rest hrest
    exact afterLiteralAnyCase_append_of_halts hcapitals hrest text

/-- A keyword is read where its letters stand between two boundaries. -/
theorem keyword_eq_some {word : String} {before : Option Char} {text rest : List Char}
    (hbefore : afterWord before = false) (hliteral : afterLiteral? word.toList text = some rest)
    (hrest : startsWord rest = false) : keyword? word before text = some rest := by
  simp [keyword?, hbefore, hliteral, hrest]

/-- A run that is not a keyword lacks it. -/
theorem lacks_keyword_of_run {word : String} (hne : word.toList ≠ [])
    (hword : ∀ c ∈ word.toList, isWord c = true) {run : List Char}
    (hrun : ∀ c ∈ run, isWord c = true) (h : run ≠ word.toList) : Lacks (keyword? word) run := by
  refine (readsWord_keyword hne hword).lacks_run hrun ?_
  rw [Option.eq_none_iff_forall_ne_some]
  intro rest hrest
  obtain ⟨hliteral, hboundary⟩ := Option.filter_eq_some_iff.mp hrest
  have hsplit := List.append_eq_of_isPrefixOf?_eq_some hliteral
  cases rest with
  | nil =>
      rw [List.append_nil] at hsplit
      exact h hsplit.symm
  | cons c rest =>
      have hc : isWord c = true := hrun c (by rw [← hsplit]; simp)
      simp [startsWord, hc] at hboundary

/-- A run that does not spell a keyword lacks it in either case. -/
theorem lacks_keywordAnyCase_of_run {word : String} (hne : word.toList ≠ [])
    (hcapitals : Capitals word.toList) {run : List Char}
    (hrun : ∀ c ∈ run, isWord c = true) (h : ¬ Spells word.toList run) :
    Lacks (keywordAnyCase? word) run := by
  refine (readsWord_keywordAnyCase hne hcapitals).lacks_run hrun ?_
  rw [Option.eq_none_iff_forall_ne_some]
  intro rest hrest
  have hspells := spells_of_keywordAnyCase hcapitals hrest
  rw [List.takeWhile_eq_self_iff.mpr hrun] at hspells
  exact h hspells

end Text
end SurrealSchema
