import SurrealSchema.Proofs.Text.Runs
import SurrealSchema.Text.Lines

namespace SurrealSchema
namespace Text

/-!
# Lines of joined items

Items joined by line feeds have the lines of the items, an empty item being an empty line.  This
holds of items that do not end in a line break; a line feed behind a carriage return would make one
break with it.  An empty item at the very end opens no line.
-/

/-- Whether a text has no line breaks. -/
def Unbroken (text : List Char) : Prop :=
  ∀ c ∈ text, isLineBreak c = false

/-- Whether a text does not end in a line break. -/
def EndsInLine (text : List Char) : Prop :=
  ∀ c, text.getLast? = some c → isLineBreak c = false

-- Only the last character of the text is looked at, not all characters there are.
instance (text : List Char) : Decidable (EndsInLine text) :=
  decidable_of_iff ((text.getLast?.all fun c => !isLineBreak c) = true) (by
    cases h : text.getLast? with
    | none => simp [EndsInLine, h]
    | some c => simp [EndsInLine, h])

theorem Unbroken.endsInLine {text : List Char} (h : Unbroken text) : EndsInLine text := by
  intro c hc
  exact h c (List.mem_of_getLast? hc)

/-- A line break is a blank. -/
theorem isBlank_of_isLineBreak {c : Char} (h : isLineBreak c = true) : isBlank c = true := by
  simp only [isLineBreak, List.contains_eq_mem, decide_eq_true_eq, List.mem_cons,
    List.not_mem_nil, or_false] at h
  rcases h with rfl | rfl | rfl | rfl | rfl | rfl | rfl | rfl | rfl | rfl <;> decide

/-- The lines of an item that is followed by another one. -/
def itemLines (item : List Char) : List (List Char) :=
  if item.isEmpty then [[]] else lines item

theorem lines_cons_of_not_break {c : Char} (hc : isLineBreak c = false) (text : List Char) :
    lines (c :: text) = consFirst c (lines text) := by
  have hne : c ≠ '\r' := by
    rintro rfl
    exact absurd hc (by decide)
  rw [lines.eq_def]
  split
  · contradiction
  · next heq => exact absurd (List.cons.inj heq).1 hne
  · next heq =>
      obtain ⟨rfl, rfl⟩ := List.cons.inj heq
      simp [hc]

/-- A break ends a line, unless it is the first half of a longer break. -/
theorem lines_cons_of_break {c : Char} (hc : isLineBreak c = true) {text : List Char}
    (hhalf : c = '\r' → text.head? ≠ some '\n') : lines (c :: text) = [] :: lines text := by
  rw [lines.eq_def]
  split
  · contradiction
  · next heq =>
      obtain ⟨rfl, rfl⟩ := List.cons.inj heq
      exact absurd rfl (hhalf rfl)
  · next heq =>
      obtain ⟨rfl, rfl⟩ := List.cons.inj heq
      simp [hc]

theorem lines_newline (text : List Char) : lines ('\n' :: text) = [] :: lines text :=
  lines_cons_of_break (by decide) fun h => absurd h (by decide)

/-- The characters of a line are characters of the text. -/
theorem mem_of_mem_lines {text line : List Char} (h : line ∈ lines text) {c : Char}
    (hc : c ∈ line) : c ∈ text := by
  fun_induction lines text generalizing line with
  | case1 => contradiction
  | case2 text ih =>
      rcases List.mem_cons.mp h with rfl | h
      · contradiction
      · exact List.mem_cons_of_mem _ (List.mem_cons_of_mem _ (ih h hc))
  | case3 d text _ _ ih =>
      rcases List.mem_cons.mp h with rfl | h
      · contradiction
      · exact List.mem_cons_of_mem _ (ih h hc)
  | case4 d text _ _ ih =>
      cases hlines : lines text with
      | nil =>
          rw [hlines] at h
          rw [List.mem_singleton.mp h] at hc
          rw [List.mem_singleton.mp hc]
          exact List.mem_cons_self
      | cons first more =>
          rw [hlines] at h ih
          rcases List.mem_cons.mp h with rfl | h
          · rcases List.mem_cons.mp hc with rfl | hc
            · exact List.mem_cons_self
            · exact List.mem_cons_of_mem _ (ih List.mem_cons_self hc)
          · exact List.mem_cons_of_mem _ (ih (List.mem_cons_of_mem _ h) hc)

theorem lines_ne_nil {text : List Char} (hne : text ≠ []) : lines text ≠ [] := by
  rw [lines.eq_def]
  split
  · contradiction
  · exact List.cons_ne_nil _ _
  · split
    · exact List.cons_ne_nil _ _
    · next text' _ _ =>
        cases lines text' with
        | nil => exact List.cons_ne_nil _ _
        | cons piece pieces => exact List.cons_ne_nil _ _

/-- A text without line breaks is one line. -/
theorem lines_of_unbroken {text : List Char} (hne : text ≠ []) (h : Unbroken text) :
    lines text = [text] := by
  induction text with
  | nil => contradiction
  | cons c text ih =>
      rw [lines_cons_of_not_break (h c List.mem_cons_self)]
      cases text with
      | nil => rfl
      | cons d text =>
          rw [ih (List.cons_ne_nil _ _) fun e he => h e (List.mem_cons_of_mem _ he)]
          rfl

theorem itemLines_of_unbroken {item : List Char} (h : Unbroken item) : itemLines item = [item] := by
  cases item with
  | nil => rfl
  | cons c item => exact lines_of_unbroken (List.cons_ne_nil _ _) h

theorem EndsInLine.tail {c : Char} {text : List Char} (hne : text ≠ [])
    (h : EndsInLine (c :: text)) : EndsInLine text := by
  intro d hd
  apply h d
  rw [List.getLast?_cons_of_ne_nil hne]
  exact hd

/-- A line feed behind a text that is not empty ends its last line. -/
theorem lines_append_newline {item : List Char} (hne : item ≠ []) (hend : EndsInLine item)
    (text : List Char) : lines (item ++ '\n' :: text) = lines item ++ lines text := by
  fun_induction lines item with
  | case1 => contradiction
  | case2 rest ih =>
      have hrest : rest ≠ [] := by
        rintro rfl
        exact absurd (hend '\n' rfl) (by decide)
      have hfirst : lines (['\r', '\n'] ++ (rest ++ '\n' :: text)) =
          [] :: lines (rest ++ '\n' :: text) := by
        rw [List.cons_append, List.cons_append, lines]
        rfl
      have htail := (hend.tail (List.cons_ne_nil _ _)).tail hrest
      rw [List.cons_append, List.cons_append]
      exact hfirst.trans (by rw [ih hrest htail]; rfl)
  | case3 c rest hhalf hbreak ih =>
      have hrest : rest ≠ [] := by
        rintro rfl
        rw [hend c rfl] at hbreak
        contradiction
      have hhead : c = '\r' → (rest ++ '\n' :: text).head? ≠ some '\n' := by
        intro hc
        obtain ⟨d, more, rfl⟩ := List.exists_cons_of_ne_nil hrest
        intro hd
        rw [List.cons_append, List.head?_cons] at hd
        exact hhalf more hc (by rw [Option.some.inj hd])
      rw [List.cons_append, lines_cons_of_break hbreak hhead, ih hrest (hend.tail hrest)]
      rfl
  | case4 c rest hhalf hbreak ih =>
      have hc : isLineBreak c = false := by simpa using hbreak
      rw [List.cons_append, lines_cons_of_not_break hc]
      cases rest with
      | nil =>
          rw [List.nil_append, lines_newline]
          rfl
      | cons d rest =>
          rw [ih (List.cons_ne_nil _ _) (hend.tail (List.cons_ne_nil _ _))]
          cases hlines : lines (d :: rest) with
          | nil => exact absurd hlines (lines_ne_nil (List.cons_ne_nil _ _))
          | cons line more => rfl

/-- Two line feeds behind a text end its last line, if it is still open, and leave at least one
empty line. -/
theorem lines_append_newlines (text rest : List Char) :
    ∃ count, lines (text ++ '\n' :: '\n' :: rest) =
      lines text ++ List.replicate (count + 1) [] ++ lines rest := by
  fun_induction lines text with
  | case1 => exact ⟨1, by simp [lines_newline, List.replicate]⟩
  | case2 text ih =>
      obtain ⟨count, hcount⟩ := ih
      refine ⟨count, ?_⟩
      rw [List.cons_append, List.cons_append, lines, hcount]
      rfl
  | case3 c text hhalf hbreak ih =>
      by_cases hopen : c = '\r' ∧ text = []
      · -- The first line feed makes one break with the carriage return.
        obtain ⟨rfl, rfl⟩ := hopen
        have hfirst : lines ('\r' :: '\n' :: '\n' :: rest) = [] :: lines ('\n' :: rest) := by
          rw [lines]
        exact ⟨0, by rw [List.cons_append, List.nil_append, hfirst, lines_newline]; rfl⟩
      · obtain ⟨count, hcount⟩ := ih
        have hhead : c = '\r' → (text ++ '\n' :: '\n' :: rest).head? ≠ some '\n' := by
          intro hc hd
          cases text with
          | nil => exact hopen ⟨hc, rfl⟩
          | cons d more =>
              rw [List.cons_append, List.head?_cons] at hd
              exact hhalf more hc (by rw [Option.some.inj hd])
        exact ⟨count, by rw [List.cons_append, lines_cons_of_break hbreak hhead, hcount]; rfl⟩
  | case4 c text hhalf hbreak ih =>
      have hc : isLineBreak c = false := by simpa using hbreak
      rw [List.cons_append, lines_cons_of_not_break hc]
      cases text with
      | nil => exact ⟨0, by rw [List.nil_append, lines_newline, lines_newline]; rfl⟩
      | cons d text =>
          obtain ⟨count, hcount⟩ := ih
          refine ⟨count, ?_⟩
          rw [hcount]
          cases hlines : lines (d :: text) with
          | nil => exact absurd hlines (lines_ne_nil (List.cons_ne_nil _ _))
          | cons line more => rfl

/-- **Joined items have the lines of the items**, but for an empty line at the very end. -/
theorem lines_intercalate {items : List (List Char)} (hends : ∀ item ∈ items, EndsInLine item) :
    items.flatMap itemLines = lines (['\n'].intercalate items) ∨
      items.flatMap itemLines = lines (['\n'].intercalate items) ++ [[]] := by
  induction items with
  | nil => exact Or.inl rfl
  | cons item items ih =>
      have hitem := hends item List.mem_cons_self
      cases items with
      | nil =>
          rw [List.intercalate_singleton, List.flatMap_singleton]
          cases item with
          | nil => exact Or.inr rfl
          | cons c item => exact Or.inl rfl
      | cons next items =>
          have hrest := ih fun other hmem => hends other (List.mem_cons_of_mem _ hmem)
          have hfirst : lines (['\n'].intercalate (item :: next :: items)) =
              itemLines item ++ lines (['\n'].intercalate (next :: items)) := by
            rw [List.intercalate_cons_cons, List.append_assoc, List.singleton_append]
            cases item with
            | nil => exact lines_newline _
            | cons c item => exact lines_append_newline (List.cons_ne_nil _ _) hitem _
          rw [List.flatMap_cons, hfirst]
          rcases hrest with hrest | hrest
          · exact Or.inl (by rw [hrest])
          · exact Or.inr (by rw [hrest, List.append_assoc])

end Text
end SurrealSchema
