import SurrealSchema.Text.Keyword
import Mathlib.Tactic

namespace SurrealSchema
namespace Text

/-!
# Facts about character classes

How the classes of characters lie to each other: a blank is never part of a word, and a letter of
a keyword only stands for characters that are.  Facts about ASCII alone are decided by running
through its 128 code points.
-/

/-- What holds of every ASCII code point holds of every ASCII character. -/
theorem of_ascii {P : Char → Prop} (hall : ∀ code < 128, P (Char.ofNat code)) {c : Char}
    (hascii : c.toNat < 128) : P c := by
  have hc := hall c.toNat hascii
  rwa [Char.ofNat_toNat] at hc

/-- A blank is not part of a word. -/
theorem isWord_of_isBlank {c : Char} (hblank : isBlank c = true) : isWord c = false := by
  by_cases hascii : c.toNat < 128
  · revert hblank
    exact of_ascii (P := fun c => isBlank c = true → isWord c = false) (by decide) hascii
  · -- Above ASCII there are so few blanks that each can be looked up among the words.
    unfold isBlank at hblank
    unfold isWord
    rw [if_neg hascii] at hblank ⊢
    generalize c.toNat = code at hblank hascii
    simp only [inRanges, blankRanges, Bool.or_eq_true, Bool.and_eq_true, decide_eq_true_eq,
      Bool.or_false] at hblank
    rcases hblank with h | h | h | h | h | h | h | h <;> obtain ⟨hfirst, hlast⟩ := h <;>
      interval_cases code <;> decide +kernel

/-- A character that is part of a word is no blank. -/
theorem isBlank_of_isWord {c : Char} (hword : isWord c = true) : isBlank c = false := by
  cases hblank : isBlank c with
  | false => rfl
  | true => rw [isWord_of_isBlank hblank] at hword; contradiction

/-- A blank is no digit. -/
theorem isDigit_of_isBlank {c : Char} (hblank : isBlank c = true) : isDigit c = false := by
  by_cases hascii : c.toNat < 128
  · revert hblank
    exact of_ascii (P := fun c => isBlank c = true → isDigit c = false) (by decide) hascii
  · unfold isBlank at hblank
    unfold isDigit digitValue?
    rw [if_neg hascii] at hblank ⊢
    generalize c.toNat = code at hblank hascii
    simp only [inRanges, blankRanges, Bool.or_eq_true, Bool.and_eq_true, decide_eq_true_eq,
      Bool.or_false] at hblank
    rcases hblank with h | h | h | h | h | h | h | h <;> obtain ⟨hfirst, hlast⟩ := h <;>
      interval_cases code <;> decide +kernel

/-- The letters of keywords. -/
def isCapital (letter : Char) : Bool :=
  'A' ≤ letter && letter ≤ 'Z'

/-- Whatever stands for a letter of a keyword is part of a word. -/
theorem isWord_of_matchesLetter {letter c : Char} (hcapital : isCapital letter = true)
    (hmatch : matchesLetter letter c = true) : isWord c = true := by
  have hletter : letter.toNat < 128 := by
    simp only [isCapital, Bool.and_eq_true, decide_eq_true_eq, Char.le_def, UInt32.le_iff_toNat_le]
      at hcapital
    exact Nat.lt_of_le_of_lt hcapital.2 (by decide)
  have hself : isCapital letter = true → isWord letter = true ∧ isWord letter.toLower = true :=
    of_ascii (P := fun l => isCapital l = true → isWord l = true ∧ isWord l.toLower = true)
      (by decide) hletter
  simp only [matchesLetter, Bool.or_eq_true, Bool.and_eq_true, beq_iff_eq] at hmatch
  rcases hmatch with (((rfl | rfl) | ⟨-, rfl | rfl⟩) | ⟨-, rfl⟩) | ⟨-, rfl⟩
  · exact (hself hcapital).1
  · exact (hself hcapital).2
  all_goals decide +kernel

end Text
end SurrealSchema
