import SurrealSchema.Proofs.Text.Keyword
import Mathlib.Data.Nat.Digits.Defs

namespace SurrealSchema
namespace Text

/-!
# Decimal digits

The digits in which a number is written are decimal digits, and they denote the number.  They are
parts of words, but of no keyword.
-/

theorem toList_toString (count : Nat) : (toString count).toList = Nat.toDigits 10 count := by
  rw [Nat.toString_eq_ofList_toDigits, String.toList_ofList]

theorem isDigit_of_mem_toDigits {count : Nat} {c : Char} (hc : c ∈ Nat.toDigits 10 count) :
    c.isDigit = true :=
  Nat.isDigit_of_mem_toDigits (by decide) (by decide) hc

theorem toNat_lt_of_isDigit {c : Char} (h : c.isDigit = true) : c.toNat < 0x80 := by
  simp only [Char.isDigit, Bool.and_eq_true, decide_eq_true_eq, UInt32.le_iff_toNat_le] at h
  exact Nat.lt_of_le_of_lt h.2 (by decide)

theorem digitValue?_of_isDigit {c : Char} (h : c.isDigit = true) :
    digitValue? c = some (c.toNat - 0x30) := by
  unfold digitValue?
  rw [if_pos (toNat_lt_of_isDigit h), if_pos h]

theorem isWord_of_isDigit {c : Char} (h : c.isDigit = true) : isWord c = true := by
  unfold isWord
  rw [if_pos (toNat_lt_of_isDigit h), Char.isAlphanum, h, Bool.or_true, Bool.true_or]

/-- The decimal digits of a number spell no keyword. -/
theorem not_spells_toDigits {keyword : List Char} (hcapitals : Capitals keyword)
    (hne : keyword ≠ []) {count : Nat} {front rest : List Char}
    (hsplit : Nat.toDigits 10 count = front ++ rest) : ¬ Spells keyword front := by
  intro hspells
  cases hspells with
  | nil => contradiction
  | @cons letter c letters front hmatch _ =>
      have hno := isDigit_of_matchesLetter (hcapitals _ List.mem_cons_self) hmatch
      have hmem : c ∈ Nat.toDigits 10 count := by
        rw [hsplit]
        exact List.mem_cons_self
      rw [isDigit_of_mem_toDigits hmem] at hno
      contradiction

/-- A number is written in decimal digits. -/
theorem isDigit_of_mem_toString {count : Nat} {c : Char} (hc : c ∈ (toString count).toList) :
    isDigit c = true := by
  rw [toList_toString] at hc
  unfold isDigit
  rw [digitValue?_of_isDigit (isDigit_of_mem_toDigits hc)]
  rfl

theorem exists_digit_toString (count : Nat) :
    ∃ c more, (toString count).toList = c :: more ∧ isDigit c = true := by
  have hne : (toString count).toList ≠ [] := by
    rw [toList_toString]
    exact Nat.toDigits_ne_nil
  obtain ⟨c, more, htext⟩ := List.exists_cons_of_ne_nil hne
  have hmem : c ∈ (toString count).toList := by
    rw [htext]
    exact List.mem_cons_self
  exact ⟨c, more, htext, isDigit_of_mem_toString hmem⟩

/-- A number below zero is written with a minus sign. -/
theorem toList_toString_negSucc (count : Nat) :
    (toString (Int.negSucc count)).toList = '-' :: (toString (count + 1)).toList := by
  have hrepr : toString (Int.negSucc count) = "-" ++ toString (count + 1) := rfl
  rw [hrepr, String.toList_append]
  rfl

/-- The digits of a number denote it. -/
theorem natOfDigits_toDigits (count : Nat) : natOfDigits (Nat.toDigits 10 count) = count := by
  have hfold : ∀ (digits : List Char) (total : Nat), (∀ c ∈ digits, c.isDigit = true) →
      digits.foldl (fun total c => 10 * total + (digitValue? c).getD 0) total =
        Nat.ofDigitChars 10 digits total := by
    intro digits
    induction digits with
    | nil =>
        intro total _
        rfl
    | cons c digits ih =>
        intro total hdigits
        rw [List.foldl_cons, digitValue?_of_isDigit (hdigits c List.mem_cons_self),
          ih _ fun d hd => hdigits d (List.mem_cons_of_mem _ hd), Nat.ofDigitChars_cons]
        rfl
  unfold natOfDigits
  rw [hfold _ _ fun c hc => isDigit_of_mem_toDigits hc, Nat.ofDigitChars_ten_toDigits]

theorem natOfDigits_toString (count : Nat) : natOfDigits (toString count).toList = count := by
  rw [toList_toString]
  exact natOfDigits_toDigits count

end Text
end SurrealSchema
