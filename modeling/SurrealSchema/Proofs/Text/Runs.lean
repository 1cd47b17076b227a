import SurrealSchema.Text.Scan
import SurrealSchema.Text.Trim
import Mathlib.Data.List.TakeWhile

namespace SurrealSchema
namespace Text

/-!
# Runs of characters

Where a text starts with a run of characters of a class and goes on with another character, the run
is what `takeWhile` takes and the rest is what `dropWhile` leaves.
-/

/-- Whether a text does not start with a character of a class. -/
def Halts (p : Char → Bool) (text : List Char) : Prop :=
  ∀ c, text.head? = some c → p c = false

theorem halts_nil (p : Char → Bool) : Halts p [] := by
  intro c h
  contradiction

theorem halts_cons {p : Char → Bool} {c : Char} (h : p c = false) (text : List Char) :
    Halts p (c :: text) := by
  intro d hd
  rw [← Option.some.inj hd]
  exact h

theorem takeWhile_of_halts {p : Char → Bool} {text : List Char} (h : Halts p text) :
    text.takeWhile p = [] := by
  cases text with
  | nil => rfl
  | cons c text => rw [List.takeWhile_cons_of_neg (by rw [h c rfl]; exact Bool.false_ne_true)]

theorem dropWhile_of_halts {p : Char → Bool} {text : List Char} (h : Halts p text) :
    text.dropWhile p = text := by
  cases text with
  | nil => rfl
  | cons c text => rw [List.dropWhile_cons_of_neg (by rw [h c rfl]; exact Bool.false_ne_true)]

theorem startsWord_of_halts {text : List Char} (h : Halts isWord text) :
    startsWord text = false := by
  cases text with
  | nil => rfl
  | cons c text => exact h c rfl

/-- A run is taken up to where the rest halts. -/
theorem takeWhile_run {p : Char → Bool} {run rest : List Char} (hrun : ∀ c ∈ run, p c = true)
    (hrest : Halts p rest) : (run ++ rest).takeWhile p = run := by
  rw [List.takeWhile_append_of_pos hrun, takeWhile_of_halts hrest, List.append_nil]

/-- A run is dropped up to where the rest halts. -/
theorem dropWhile_run {p : Char → Bool} {run rest : List Char} (hrun : ∀ c ∈ run, p c = true)
    (hrest : Halts p rest) : (run ++ rest).dropWhile p = rest := by
  rw [List.dropWhile_append_of_pos hrun, dropWhile_of_halts hrest]

/-- What follows a text does not lengthen the run it starts with. -/
theorem takeWhile_append_of_halts {p : Char → Bool} {text rest : List Char} (h : Halts p rest) :
    (text ++ rest).takeWhile p = text.takeWhile p := by
  induction text with
  | nil => exact takeWhile_of_halts h
  | cons c text ih =>
      rw [List.cons_append, List.takeWhile_cons, List.takeWhile_cons, ih]

/-- Items with a separator between them: the first one, and the separator before every other. -/
theorem intercalate_cons {α : Type} (separator item : List α) (items : List (List α)) :
    separator.intercalate (item :: items) =
      item ++ items.flatMap fun other => separator ++ other := by
  induction items generalizing item with
  | nil => rw [List.intercalate_singleton, List.flatMap_nil, List.append_nil]
  | cons next items ih =>
      rw [List.intercalate_cons_cons, ih, List.flatMap_cons]
      simp only [List.append_assoc]

/-- Two runs of the same class in front of rests that halt are the same run. -/
theorem run_eq_run {p : Char → Bool} {run run' rest rest' : List Char}
    (hrun : ∀ c ∈ run, p c = true) (hrun' : ∀ c ∈ run', p c = true) (hrest : Halts p rest)
    (hrest' : Halts p rest') (h : run ++ rest = run' ++ rest') : run = run' ∧ rest = rest' := by
  have hfront := congrArg (List.takeWhile p) h
  rw [takeWhile_run hrun hrest, takeWhile_run hrun' hrest'] at hfront
  subst hfront
  exact ⟨rfl, List.append_cancel_left h⟩

/-- What follows a space is read without it. -/
theorem afterBlanks_space {text : List Char} (h : Halts isBlank text) :
    afterBlanks? (' ' :: text) = some text := by
  have hspace : isBlank ' ' = true := by decide
  rw [afterBlanks?, if_pos hspace, dropWhile_of_halts h]

theorem afterBlanks_of_halts {text : List Char} (h : Halts isBlank text) :
    afterBlanks? text = none := by
  cases text with
  | nil => rfl
  | cons c text =>
      have hc : isBlank c = false := h c rfl
      simp [afterBlanks?, hc]

/-- What is read behind blanks has blanks in front of it, at least one. -/
theorem blanks_of_afterBlanks {text rest : List Char} (h : afterBlanks? text = some rest) :
    ∃ b blanks, text = b :: (blanks ++ rest) ∧ isBlank b = true ∧
      ∀ c ∈ blanks, isBlank c = true := by
  cases text with
  | nil => contradiction
  | cons b text =>
      rw [afterBlanks?] at h
      split at h
      · next hb =>
          have hrest : text.dropWhile isBlank = rest := Option.some.inj h
          refine ⟨b, text.takeWhile isBlank, ?_, hb, fun c hc => List.mem_takeWhile_imp hc⟩
          rw [← hrest, List.takeWhile_append_dropWhile]
      · contradiction

end Text
end SurrealSchema
