import SurrealSchema.Text.Class

namespace SurrealSchema
namespace Text

/-!
# Scanning

Searching a text for the first place at which something can be read.  A reader sees the character
just before its place, so that it can insist on the start of a word, and the text from its place
on.
-/

/-- Reads something at a place of a text, given the character just before the place. -/
abbrev Reader (α : Type) := Option Char → List Char → Option α

/-- The first place at which the reader succeeds: the text skipped to reach it and what is read
there. -/
def search {α : Type} (read : Reader α) : Option Char → List Char → Option (List Char × α)
  | before, [] => (read before []).map fun found => ([], found)
  | before, c :: text =>
    match read before (c :: text) with
    | some found => some ([], found)
    | none => (search read (some c) text).map fun (skipped, found) => (c :: skipped, found)

/-- The text up to the first place at which the test holds, or all of it. -/
def upTo (stop : Option Char → List Char → Bool) : Option Char → List Char → List Char
  | _, [] => []
  | before, c :: text =>
    if stop before (c :: text) then [] else c :: upTo stop (some c) text

/-- Whether the character before a place is part of a word. -/
def afterWord (before : Option Char) : Bool :=
  before.any isWord

/-- Whether the text from a place on begins with a character that is part of a word. -/
def startsWord : List Char → Bool
  | [] => false
  | c :: _ => isWord c

/-- What follows the blanks at the front, provided there is at least one. -/
def afterBlanks? : List Char → Option (List Char)
  | [] => none
  | c :: text => if isBlank c then some (text.dropWhile isBlank) else none

/-! ## Where a scan stops -/

/-- A search that succeeds passes over a beginning of the text and reads right behind it. -/
theorem read_of_search {α : Type} {read : Reader α} {before : Option Char}
    {text skipped : List Char} {found : α} (h : search read before text = some (skipped, found)) :
    ∃ rest, text = skipped ++ rest ∧ read (skipped.getLast?.or before) rest = some found := by
  induction text generalizing before skipped with
  | nil =>
    simp only [search, Option.map_eq_some_iff, Prod.mk.injEq] at h
    obtain ⟨_, hread, rfl, rfl⟩ := h
    exact ⟨[], rfl, by simpa using hread⟩
  | cons c text ih =>
    unfold search at h
    split at h
    · next hread =>
      simp only [Option.some.injEq, Prod.mk.injEq] at h
      obtain ⟨rfl, rfl⟩ := h
      exact ⟨c :: text, rfl, by simpa using hread⟩
    · simp only [Option.map_eq_some_iff, Prod.mk.injEq] at h
      obtain ⟨⟨skipped', found'⟩, hsearch, rfl, rfl⟩ := h
      obtain ⟨rest, rfl, hread⟩ := ih hsearch
      refine ⟨rest, rfl, ?_⟩
      cases skipped' with
      | nil => simpa using hread
      | cons d skipped' => simpa [List.getLast?_cons, Option.or] using hread

/-- The text up to a place is a beginning of the text. -/
theorem upTo_append (stop : Option Char → List Char → Bool) (before : Option Char)
    (text : List Char) : ∃ rest, text = upTo stop before text ++ rest := by
  induction text generalizing before with
  | nil => exact ⟨[], rfl⟩
  | cons c text ih =>
    unfold upTo
    split
    · exact ⟨c :: text, rfl⟩
    · obtain ⟨rest, h⟩ := ih (some c)
      exact ⟨rest, by rw [List.cons_append, ← h]⟩

end Text
end SurrealSchema
