import SurrealSchema.Proofs.Text.Class
import SurrealSchema.Text.Trim
import Mathlib.Data.List.TakeWhile

namespace SurrealSchema
namespace Text

/-!
# Facts about trimming

A text is trimmed when it neither starts nor ends with a blank.  Trimming gives such a text and
leaves such a text alone.
-/

/-- Whether a text neither starts nor ends with a blank. -/
def Trimmed (text : List Char) : Prop :=
  (∀ c, text.head? = some c → isBlank c = false) ∧ (∀ c, text.getLast? = some c → isBlank c = false)

/-- What is left after dropping the end of a text that already ends well is the text. -/
theorem dropTrailing_eq_self {drop : Char → Bool} {text : List Char}
    (hlast : ∀ c, text.getLast? = some c → drop c = false) : dropTrailing drop text = text := by
  obtain ⟨dropped, hsplit, hall⟩ := dropTrailing_append drop text
  cases hd : dropped.getLast? with
  | none =>
      rw [List.getLast?_eq_none_iff] at hd
      rw [hd, List.append_nil] at hsplit
      exact hsplit.symm
  | some c =>
      have hkept : drop c = true := hall c (List.mem_of_getLast? hd)
      have hend : text.getLast? = some c := by
        rw [hsplit, List.getLast?_append, hd]
        rfl
      rw [hlast c hend] at hkept
      contradiction

/-- A text that does not start with a blank keeps its start. -/
theorem trimStart_eq_self {text : List Char}
    (hhead : ∀ c, text.head? = some c → isBlank c = false) : trimStart text = text := by
  cases text with
  | nil => rfl
  | cons c text => simp [trimStart, hhead c rfl]

/-- A trimmed text is left alone. -/
theorem trim_eq_self {text : List Char} (h : Trimmed text) : trim text = text := by
  unfold trim
  rw [trimStart_eq_self h.1]
  exact dropTrailing_eq_self h.2

/-- The first character that is left of a text is its first character. -/
theorem head?_dropTrailing {drop : Char → Bool} {text : List Char} {c : Char}
    (h : (dropTrailing drop text).head? = some c) : text.head? = some c := by
  obtain ⟨dropped, hsplit, -⟩ := dropTrailing_append drop text
  cases hkept : dropTrailing drop text with
  | nil => rw [hkept] at h; contradiction
  | cons d rest =>
      rw [hkept] at h hsplit
      rw [hsplit]
      exact h

/-- Trimming gives a trimmed text. -/
theorem trimmed_trim (text : List Char) : Trimmed (trim text) := by
  constructor
  · intro c hc
    have hstart : (text.dropWhile isBlank).head? = some c := head?_dropTrailing hc
    have hnot := List.head?_dropWhile_not isBlank text
    rw [hstart] at hnot
    exact hnot
  · intro c hc
    exact getLast?_dropTrailing isBlank (trimStart text) c hc

/-- Trimming twice is trimming once. -/
@[simp] theorem trim_trim (text : List Char) : trim (trim text) = trim text :=
  trim_eq_self (trimmed_trim text)

/-- Up to a character that is kept, everything is kept. -/
theorem dropTrailing_append_of_last {drop : Char → Bool} {front : List Char} {c : Char}
    (hc : drop c = false) (rest : List Char) :
    dropTrailing drop (front ++ c :: rest) = front ++ c :: dropTrailing drop rest := by
  induction front with
  | nil =>
      rw [List.nil_append, List.nil_append, dropTrailing]
      cases dropTrailing drop rest with
      | nil => simp [hc]
      | cons d kept => rfl
  | cons d front ih =>
      rw [List.cons_append, dropTrailing, ih]
      cases front with
      | nil => rfl
      | cons e front => rfl

/-- Where everything may be dropped nothing is left. -/
theorem dropTrailing_eq_nil {drop : Char → Bool} {text : List Char}
    (h : ∀ c ∈ text, drop c = true) : dropTrailing drop text = [] := by
  induction text with
  | nil => rfl
  | cons c text ih =>
      rw [dropTrailing, ih fun d hd => h d (List.mem_cons_of_mem _ hd)]
      simp [h c List.mem_cons_self]

/-- The blanks behind a trimmed text are trimmed off. -/
theorem trimEnd_append_blanks {text blanks : List Char} (h : Trimmed text)
    (hblanks : ∀ c ∈ blanks, isBlank c = true) : trimEnd (text ++ blanks) = text := by
  unfold trimEnd
  rcases List.eq_nil_or_concat text with rfl | ⟨front, c, rfl⟩
  · exact dropTrailing_eq_nil hblanks
  · rw [List.concat_eq_append] at h ⊢
    have hc : isBlank c = false := h.2 c (by simp)
    rw [List.append_assoc, List.singleton_append, dropTrailing_append_of_last hc,
      dropTrailing_eq_nil hblanks]

/-- Trimming the end first makes no difference. -/
theorem trim_trimEnd (text : List Char) : trim (trimEnd text) = trim text := by
  obtain ⟨blanks, hsplit, hblanks⟩ := dropTrailing_append isBlank text
  have hends : ∀ c, (trimEnd text).getLast? = some c → isBlank c = false :=
    getLast?_dropTrailing isBlank text
  have hwhole : trim text = trim (trimEnd text ++ blanks) := congrArg trim hsplit
  rw [hwhole]
  generalize trimEnd text = kept at hends
  have hstart : trimStart blanks = [] := List.dropWhile_eq_nil_iff.mpr hblanks
  unfold trim
  cases hcore : trimStart kept with
  | nil =>
      have hnil : trimStart (kept ++ blanks) = [] := by
        have hempty : (kept.dropWhile isBlank).isEmpty = true := List.isEmpty_iff.mpr hcore
        rw [trimStart, List.dropWhile_append, if_pos hempty]
        exact hstart
      rw [hnil]
  | cons c rest =>
      have hsome : trimStart (kept ++ blanks) = trimStart kept ++ blanks := by
        have hne : (kept.dropWhile isBlank).isEmpty ≠ true :=
          fun hempty => by rw [trimStart, List.isEmpty_iff.mp hempty] at hcore; contradiction
        rw [trimStart, List.dropWhile_append, if_neg hne]
        rfl
      have hsuffix : trimStart kept <:+ kept := List.dropWhile_suffix _
      have htrimmed : Trimmed (trimStart kept) := by
        refine ⟨fun d hd => ?_, fun d hd => hends d ?_⟩
        · have hnot := List.head?_dropWhile_not isBlank kept
          have hd' : (kept.dropWhile isBlank).head? = some d := hd
          rw [hd'] at hnot
          exact hnot
        · obtain ⟨front, hfront⟩ := hsuffix
          rw [← hfront, List.getLast?_append, hd]
          rfl
      rw [hsome, trimEnd_append_blanks htrimmed hblanks, ← hcore]
      exact dropTrailing_eq_self htrimmed.2

/-- What is left of a text is part of the text. -/
theorem mem_of_mem_dropTrailing {drop : Char → Bool} {text : List Char} {c : Char}
    (h : c ∈ dropTrailing drop text) : c ∈ text := by
  obtain ⟨dropped, hsplit, -⟩ := dropTrailing_append drop text
  rw [hsplit]
  exact List.mem_append_left _ h

end Text
end SurrealSchema
