import SurrealSchema.Proofs.Info.Overwrite

namespace SurrealSchema
namespace Info

/-!
# Definitions of other kinds that overwrite

A definition that is neither of a table nor of a field is read alike when it is made to overwrite,
whatever it is: the word is put on the line on which the word for the kind stands.  If that line
starts with `DEFINE`, it ends the statement before it with and without the word.  Otherwise it goes
on with a line on which `DEFINE` stands alone, and such a line leaves no statement open.
-/

/-- A kind of definition other than tables and fields. -/
structure IsOtherKind (kind : String) : Prop extends IsKind kind where
  notDefine : kind ≠ "DEFINE"
  notTable : kind ≠ "TABLE"
  notField : kind ≠ "FIELD"

instance (kind : String) : Decidable (IsOtherKind kind) :=
  decidable_of_iff (IsKind kind ∧ kind ≠ "DEFINE" ∧ kind ≠ "TABLE" ∧ kind ≠ "FIELD")
    ⟨fun h => ⟨h.1, h.2.1, h.2.2.1, h.2.2.2⟩,
      fun h => ⟨h.toIsKind, h.notDefine, h.notTable, h.notField⟩⟩

/-! ## Statements -/

section Statements

variable {kind : String} (hkind : IsOtherKind kind) {word rest : List Char}
  (hspells : Text.Spells kind.toList word) (hrest : Text.Halts Text.isWord rest)
include hkind hspells

theorem not_spells_of_ne {other : String} (hother : Text.Capitals other.toList)
    (hne : kind ≠ other) : ¬ Text.Spells other.toList word := by
  intro h
  exact hne (String.toList_inj.mp (Text.eq_of_spells hkind.capitals hother hspells h))

include hrest

/-- No other word is read where the word for the kind stands. -/
theorem startsWith_eq_false {other : String} (hother : Text.Capitals other.toList)
    (hne : kind ≠ other) : Ddl.startsWith other (word ++ rest) = false := by
  rw [Bool.eq_false_iff]
  intro hstarts
  obtain ⟨behind, hbehind⟩ := Option.isSome_iff_exists.mp hstarts
  have hfront := Text.spells_of_keywordAnyCase hother hbehind
  rw [Text.takeWhile_run (isWord_of_spellsKind hkind.toIsKind hspells) hrest] at hfront
  exact not_spells_of_ne hkind hspells hother hne hfront

/-- **A definition of another kind ends the statement before it and does nothing else.** -/
theorem step_of_opening {opening : List Char} (hopening : IsOpening opening)
    (htrimmed : Text.Trimmed (opening ++ (word ++ rest))) (state : Ddl.State) :
    state.step (opening ++ (word ++ rest)) = state.close := by
  have hhalts := Ddl.halts_of_startsWord
    ((isPhrase_of_spellsKind hkind.toIsKind hspells).startsWord_append rest)
  have hread := hopening.keywordThenBlanks_define hhalts
  have hdefine := Ddl.startsWith_of_keywordThenBlanks hread
  have htable : Ddl.definedTable? (opening ++ (word ++ rest)) = none := by
    have hnone : Text.keywordThenBlanks? "TABLE" (word ++ rest) = none :=
      Text.keywordThenBlanks_eq_none (by decide) Text.delimits_isWord
        (isWord_of_spellsKind hkind.toIsKind hspells) hrest
        (not_spells_of_ne hkind hspells (by decide) hkind.notTable)
    rw [Ddl.definedTable?, Ddl.afterDefine?, hread, Option.bind_some, hnone]
    rfl
  have hfield : Ddl.startsField (opening ++ (word ++ rest)) = false := by
    rw [Ddl.startsField, hread, Option.map_some, Option.getD_some,
      startsWith_eq_false hkind hspells hrest (by decide) hkind.notField]
  exact Ddl.State.step_eq_close htrimmed hdefine htable hfield state

/-- **Where no statement is open, a line that starts with the word for the kind does nothing.** -/
theorem step_of_word (htrimmed : Text.Trimmed (word ++ rest)) {state : Ddl.State}
    (hclosed : state.ongoing = none) : state.step (word ++ rest) = state := by
  have hword := (isPhrase_of_spellsKind hkind.toIsKind hspells).startsWord_append rest
  have hne : (word ++ rest).isEmpty = false := by
    rw [List.isEmpty_eq_false_iff]
    intro hnil
    rw [hnil] at hword
    contradiction
  apply Ddl.State.step_of_closed_of_continues hclosed
  rw [Text.trim_eq_self htrimmed, Ddl.continues, hne, Ddl.startsComment_of_startsWord hword,
    startsWith_eq_false hkind hspells hrest (by decide) hkind.notDefine]
  rfl

end Statements

/-! ## Definitions -/

/-- The word that makes a definition overwrite is not part of the word for the kind. -/
theorem halts_overwrite (rest : List Char) :
    Text.Halts Text.isWord (" OVERWRITE".toList ++ rest) :=
  Text.halts_cons (by decide) _

section Overwriting

variable {kind : String} (hkind : IsOtherKind kind) {word rear : List Char}
  (hspells : Text.Spells kind.toList word) (hrear : Text.Halts Text.isWord rear)
include hkind hspells hrear

/-- Where the first two words of a definition stand on one line, the word that makes it overwrite
makes no difference. -/
theorem readText_overwriting_of_plain {opening : List Char} (hopening : IsOpening opening)
    (hplain : Ddl.Plain opening) (state : Ddl.State) :
    state.readText (opening ++ (word ++ rear)) =
      state.readText (opening ++ (overwriting word ++ rear)) := by
  have htrim : Text.trimStart opening = opening := by
    have hhalts := Ddl.halts_of_startsWord (hopening.startsWord_append [])
    rw [List.append_nil] at hhalts
    exact Text.dropWhile_of_halts hhalts
  have hnil : ([] : List Char).getLast?.all Text.isLineBreak = true := rfl
  refine Ddl.readText_phrase hnil hplain
    (fun rest _ => by rw [htrim]; exact hopening.startsWord_append rest) hrear
    (isPhrase_of_spellsKind hkind.toIsKind hspells) (isPhrase_overwriting hkind.toIsKind hspells)
    state fun next hnext htrimmed htrimmed' => ?_
  rw [htrim] at htrimmed htrimmed' ⊢
  rw [overwriting, List.append_assoc word] at htrimmed' ⊢
  rw [step_of_opening hkind hspells hnext hopening htrimmed,
    step_of_opening hkind hspells (halts_overwrite next) hopening htrimmed']

/-- Neither does it where the word for the kind is the first one of its line, if no statement is
open there. -/
theorem readText_overwriting_of_closed {before blanks : List Char}
    (hbefore : before.getLast?.all Text.isLineBreak = true)
    (hblanks : ∀ c ∈ blanks, Text.isBlank c = true ∧ Text.isLineBreak c = false)
    {state : Ddl.State} (hclosed : (state.readText before).ongoing = none) :
    state.readText (before ++ (blanks ++ (word ++ rear))) =
      state.readText (before ++ (blanks ++ (overwriting word ++ rear))) := by
  have htrim : Text.trimStart blanks = [] :=
    List.dropWhile_eq_nil_iff.mpr fun c hc => (hblanks c hc).1
  refine Ddl.readText_phrase hbefore (fun c hc => Or.inr (hblanks c hc))
    (fun rest hrest => by rw [htrim]; exact hrest) hrear
    (isPhrase_of_spellsKind hkind.toIsKind hspells) (isPhrase_overwriting hkind.toIsKind hspells)
    state fun next hnext htrimmed htrimmed' => ?_
  rw [htrim, List.nil_append] at htrimmed htrimmed' ⊢
  rw [overwriting, List.append_assoc word] at htrimmed' ⊢
  rw [step_of_word hkind hspells hnext htrimmed hclosed, List.nil_append,
    step_of_word hkind hspells (halts_overwrite next) htrimmed' hclosed]

/-- A definition of another kind is read alike with and without the word that makes it
overwrite. -/
theorem readText_overwriting {opening : List Char} (hopening : IsOpening opening)
    (state : Ddl.State) :
    state.readText (opening ++ (word ++ rear)) =
      state.readText (opening ++ (overwriting word ++ rear)) := by
  obtain ⟨define, b, blanks, hsplit, hdefine, hblanks⟩ := hopening.split
  obtain ⟨gap, start, hgap, hended, hstart⟩ := Ddl.exists_last_line (b :: blanks)
  have hblank : ∀ c ∈ start, Text.isBlank c = true ∧ Text.isLineBreak c = false := by
    intro c hc
    refine ⟨hblanks c ?_, hstart c hc⟩
    rw [hgap]
    exact List.mem_append_right _ hc
  by_cases hnil : gap = []
  · refine readText_overwriting_of_plain hkind hspells hrear hopening ?_ state
    rw [hsplit, hgap, hnil]
    intro c hc
    rcases List.mem_append.mp hc with hc | hc
    · exact Or.inl (Text.isWord_of_spells (by decide) hdefine c hc)
    · exact Or.inr (hblank c hc)
  · have hwhole : ∀ phrase, opening ++ (phrase ++ rear) =
        define ++ gap ++ (start ++ (phrase ++ rear)) := by
      intro phrase
      rw [hsplit, hgap]
      simp only [List.append_assoc]
    rw [hwhole, hwhole]
    refine readText_overwriting_of_closed hkind hspells hrear ?_ hblank
      (Ddl.ongoing_readText_define hdefine (fun c hc => hblanks c ?_) state)
    · rw [List.getLast?_append_of_ne_nil _ hnil]
      exact hended
    · rw [hgap]
      exact List.mem_append_left _ hc

end Overwriting

/-- **A definition of another kind is read alike when it is made to overwrite.** -/
theorem readAlike_writeDefinition {kind : String} (hkind : IsOtherKind kind) (overwrite : Bool)
    (definition : List Char) :
    Ddl.ReadAlike (Ddl.terminated definition) (writeDefinition overwrite kind definition) := by
  unfold writeDefinition
  split
  · rcases insertOverwrite_cases kind definition with
      hsame | ⟨front, word, rest, hsplit, hopening, hspells, hhalts, hinsert⟩
    · rw [hsame]
      exact Ddl.ReadAlike.refl _
    · obtain ⟨rear, hrear, hterminated⟩ := Ddl.exists_terminated front hhalts
      rw [hinsert, hterminated _ (isPhrase_overwriting hkind.toIsKind hspells), hsplit,
        hterminated word (isPhrase_of_spellsKind hkind.toIsKind hspells)]
      intro state newline hnewline
      have hhalts' : Text.Halts Text.isWord (rear ++ newline) := by
        cases rear with
        | nil =>
            rcases hnewline with rfl | rfl
            · exact Text.halts_nil _
            · exact Text.halts_cons (by decide) []
        | cons c rear => exact hrear
      simp only [List.append_assoc]
      exact readText_overwriting hkind hspells hhalts' hopening state
  · exact Ddl.ReadAlike.refl _

end Info
end SurrealSchema
