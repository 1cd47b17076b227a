import SurrealSchema.Text.Class

namespace SurrealSchema
namespace Text

/-!
# Trimming and splitting

Blanks at the ends of a text, the words between blanks, and the items between separators.
-/

/-- The text without the blanks it starts with. -/
def trimStart (text : List Char) : List Char :=
  text.dropWhile isBlank

/-- The text without the characters of one class that it ends with. -/
def dropTrailing (drop : Char → Bool) : List Char → List Char
  | [] => []
  | c :: text =>
    match dropTrailing drop text with
    | [] => if drop c then [] else [c]
    | d :: kept => c :: d :: kept

/-- The text without the blanks it ends with. -/
def trimEnd (text : List Char) : List Char :=
  dropTrailing isBlank text

/-- The text without the blanks at both ends. -/
def trim (text : List Char) : List Char :=
  trimEnd (trimStart text)

/-- Puts a character in front of the first piece of a list of pieces. -/
def consFirst (c : Char) : List (List Char) → List (List Char)
  | [] => [[c]]
  | piece :: pieces => (c :: piece) :: pieces

/-- The maximal runs of non-blank characters, in order. -/
def words : List Char → List (List Char)
  | [] => []
  | c :: text =>
    if isBlank c then words text
    else
      match text with
      | [] => [[c]]
      | d :: rest =>
        if isBlank d then [c] :: words (d :: rest) else consFirst c (words (d :: rest))

/-- The words of a text with one space between any two of them. -/
def collapseBlanks (text : List Char) : List Char :=
  [' '].intercalate (words text)

/-- The pieces between the occurrences of a separator; there is always at least one. -/
def splitAt (separator : Char) : List Char → List (List Char)
  | [] => [[]]
  | c :: text =>
    if c == separator then [] :: splitAt separator text
    else consFirst c (splitAt separator text)

/-! ## Pieces and the whole -/

/-- Putting a character in front of the first piece puts it in front of the whole. -/
theorem flatten_consFirst (c : Char) (pieces : List (List Char)) :
    (consFirst c pieces).flatten = c :: pieces.flatten := by
  cases pieces <;> rfl

/-- Without its trailing characters a text is one of its own beginnings, and only characters of the
class are missing. -/
theorem dropTrailing_append (drop : Char → Bool) (text : List Char) :
    ∃ dropped, text = dropTrailing drop text ++ dropped ∧ ∀ c ∈ dropped, drop c := by
  induction text with
  | nil => exact ⟨[], rfl, by simp⟩
  | cons c text ih =>
    obtain ⟨dropped, split, all⟩ := ih
    unfold dropTrailing
    cases kept : dropTrailing drop text with
    | nil =>
      rw [kept] at split
      by_cases h : drop c
      · exact ⟨c :: dropped, by simp [h, split], by simpa [h] using all⟩
      · exact ⟨dropped, by simpa [h] using split, all⟩
    | cons d rest =>
      rw [kept] at split
      exact ⟨dropped, by simpa using split, all⟩

/-- What is left of a text does not end in a character of the class. -/
theorem getLast?_dropTrailing (drop : Char → Bool) (text : List Char) (c : Char)
    (last : (dropTrailing drop text).getLast? = some c) : drop c = false := by
  induction text with
  | nil => simp [dropTrailing] at last
  | cons d text ih =>
    unfold dropTrailing at last
    cases kept : dropTrailing drop text with
    | nil =>
      rw [kept] at last
      by_cases h : drop d
      · simp [h] at last
      · simp [h] at last
        simpa [last] using h
    | cons e rest =>
      rw [kept] at last
      exact ih (by rw [kept]; simpa using last)

end Text
end SurrealSchema
