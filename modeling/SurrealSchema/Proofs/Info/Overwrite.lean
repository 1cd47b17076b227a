import SurrealSchema.Info.Script
import SurrealSchema.Proofs.Ddl.TablePhrases

namespace SurrealSchema
namespace Info

/-!
# Definitions that are made to overwrite

The word that makes a definition overwrite is put behind its first two words.  There it is read as a
modifier of the definition of a table or a field, unless the definition already has the modifier
`IF NOT EXISTS`, which would then be read as a name.  Definitions of any other kind define neither
tables nor fields with or without the word; they may span lines, and the two words may even stand on
different ones.
-/

/-! ## Where the word is put -/

/-- The beginning of a definition: its first word and the blanks behind it. -/
structure IsOpening (opening : List Char) : Prop where
  split : ∃ define b blanks, opening = define ++ b :: blanks ∧ Text.Spells "DEFINE".toList define ∧
    ∀ c ∈ b :: blanks, Text.isBlank c = true

/-- A definition that overwrites has a word more behind the word for its kind. -/
def overwriting (word : List Char) : List Char :=
  word ++ " OVERWRITE".toList

/-- Where a definition has its first two words, it has a word in front of the place at which the
definition is made to overwrite. -/
theorem exists_of_afterKind {kind : String} {definition rest : List Char}
    (h : afterKind? kind definition = some rest) :
    ∃ front word, definition = front ++ (word ++ rest) ∧ IsOpening (Text.trimStart front) ∧
      Text.Spells kind.toList word ∧ Text.Halts Text.isWord rest ∧
      insertOverwrite kind definition = front ++ (overwriting word ++ rest) := by
  obtain ⟨middle, hdefine, hkind⟩ := Option.bind_eq_some_iff.mp h
  obtain ⟨define, b, blanks, hstart, hspells, hblanks⟩ := Text.exists_of_keywordThenBlanks hdefine
  obtain ⟨-, hhalts, word, rfl, hwordSpells⟩ := Text.exists_of_keywordAnyCase hkind
  have hdefineNe : define ≠ [] := Text.ne_nil_of_spells (by decide) hspells
  have hdefineHalts : Text.Halts Text.isBlank (define ++ b :: blanks) := by
    obtain ⟨c, more, rfl⟩ := List.exists_cons_of_ne_nil hdefineNe
    exact Text.halts_cons (Text.isBlank_of_isWord
      (Text.isWord_of_spells (by decide) hspells c List.mem_cons_self)) _
  have hlead : ∀ c ∈ definition.takeWhile Text.isBlank, Text.isBlank c = true :=
    fun c hc => List.mem_takeWhile_imp hc
  have hsplit : definition = definition.takeWhile Text.isBlank ++ (define ++ b :: blanks) ++
      (word ++ rest) := by
    calc definition
        = definition.takeWhile Text.isBlank ++ Text.trimStart definition :=
          List.takeWhile_append_dropWhile.symm
      _ = _ := by rw [hstart]; simp only [List.append_assoc]
  refine ⟨definition.takeWhile Text.isBlank ++ (define ++ b :: blanks), word, hsplit, ?_,
    hwordSpells, hhalts, ?_⟩
  · have htrim : Text.trimStart (definition.takeWhile Text.isBlank ++ (define ++ b :: blanks)) =
        define ++ b :: blanks := Text.dropWhile_run hlead hdefineHalts
    rw [htrim]
    exact ⟨define, b, blanks, rfl, hspells, hblanks⟩
  · unfold insertOverwrite
    rw [h]
    dsimp only
    generalize definition.takeWhile Text.isBlank ++ (define ++ b :: blanks) = front at hsplit
    have htake : definition.take (definition.length - rest.length) = front ++ word := by
      rw [hsplit, ← List.append_assoc, List.length_append, Nat.add_sub_cancel, List.take_left]
    rw [htake, overwriting]
    simp only [List.append_assoc]

/-- Either a definition does not have its first two words and is left as it is, or the word is put
behind them. -/
theorem insertOverwrite_cases (kind : String) (definition : List Char) :
    insertOverwrite kind definition = definition ∨
      ∃ front word rest, definition = front ++ (word ++ rest) ∧ IsOpening (Text.trimStart front) ∧
        Text.Spells kind.toList word ∧ Text.Halts Text.isWord rest ∧
        insertOverwrite kind definition = front ++ (overwriting word ++ rest) := by
  cases hafter : afterKind? kind definition with
  | none =>
      left
      unfold insertOverwrite
      rw [hafter]
  | some rest =>
      obtain ⟨front, word, h⟩ := exists_of_afterKind hafter
      exact Or.inr ⟨front, word, rest, h⟩

section Opening

variable {opening word : List Char} {kind : String} (hopening : IsOpening opening)
include hopening

/-- The beginning of a definition ends in a blank. -/
theorem IsOpening.leaves : Text.Leaves Text.isWord opening := by
  obtain ⟨define, b, blanks, rfl, -, hblanks⟩ := hopening.split
  intro c hc
  rw [List.getLast?_append_of_ne_nil _ (List.cons_ne_nil _ _)] at hc
  exact Text.isWord_of_isBlank (hblanks c (List.mem_of_getLast? hc))

theorem IsOpening.startsWord_append (rest : List Char) :
    Text.startsWord (opening ++ rest) = true := by
  obtain ⟨define, b, blanks, rfl, hspells, -⟩ := hopening.split
  obtain ⟨c, more, rfl⟩ :=
    List.exists_cons_of_ne_nil (Text.ne_nil_of_spells (by decide) hspells)
  exact Text.isWord_of_spells (by decide) hspells c List.mem_cons_self

/-- Behind the first word a definition goes on with the word for its kind. -/
theorem IsOpening.keywordThenBlanks_define {rest : List Char}
    (hrest : Text.Halts Text.isBlank rest) :
    Text.keywordThenBlanks? "DEFINE" (opening ++ rest) = some rest := by
  obtain ⟨define, b, blanks, rfl, hspells, hblanks⟩ := hopening.split
  obtain ⟨hb, hall⟩ := List.forall_mem_cons.mp hblanks
  rw [List.append_assoc, Text.keywordThenBlanks?, Text.afterLiteralAnyCase_of_spells hspells,
    Option.bind_some, List.cons_append, Text.afterBlanks?, if_pos hb, Text.dropWhile_run hall hrest]

end Opening

/-- The word for a kind of definition: capitals only. -/
structure IsKind (kind : String) : Prop where
  capitals : Text.Capitals kind.toList
  ne_nil : kind.toList ≠ []

instance (kind : String) : Decidable (IsKind kind) :=
  decidable_of_iff (Text.Capitals kind.toList ∧ kind.toList ≠ [])
    ⟨fun h => ⟨h.1, h.2⟩, fun h => ⟨h.capitals, h.ne_nil⟩⟩

section Kind

variable {kind : String} (hkind : IsKind kind) {word : List Char}
  (hspells : Text.Spells kind.toList word)
include hkind hspells

theorem isWord_of_spellsKind : ∀ c ∈ word, Text.isWord c = true :=
  Text.isWord_of_spells hkind.capitals hspells

theorem isPhrase_of_spellsKind : Ddl.IsPhrase word :=
  Ddl.isPhrase_of_isWord (Text.ne_nil_of_spells hkind.ne_nil hspells)
    (isWord_of_spellsKind hkind hspells)

theorem isPhrase_overwriting : Ddl.IsPhrase (overwriting word) := by
  have hoverwrite : Ddl.IsPhrase "OVERWRITE".toList :=
    Ddl.isPhrase_of_isWord (by decide) (List.all_eq_true.mp (by decide))
  have hspace : ∀ c ∈ [' '], Text.isBlank c = true ∧ Text.isLineBreak c = false :=
    List.forall_mem_singleton.mpr (by decide)
  exact (isPhrase_of_spellsKind hkind hspells).append hoverwrite hspace

/-- Behind its first two words a definition goes on with what follows the blanks there. -/
theorem IsOpening.afterDefine {opening : List Char} (hopening : IsOpening opening)
    (rest : List Char) :
    Ddl.afterDefine? kind (opening ++ (word ++ rest)) = Text.afterBlanks? rest := by
  have hhalts := Ddl.halts_of_startsWord
    ((isPhrase_of_spellsKind hkind hspells).startsWord_append rest)
  rw [Ddl.afterDefine?, hopening.keywordThenBlanks_define hhalts, Option.bind_some,
    Text.keywordThenBlanks?, Text.afterLiteralAnyCase_of_spells hspells, Option.bind_some]

/-- Where the definition overwrites, the word for that comes next. -/
theorem IsOpening.afterDefine_overwriting {opening : List Char} (hopening : IsOpening opening)
    (rest : List Char) :
    Ddl.afterDefine? kind (opening ++ (overwriting word ++ rest)) =
      some ("OVERWRITE".toList ++ rest) := by
  rw [overwriting, List.append_assoc, hopening.afterDefine hkind hspells]
  exact Text.afterBlanks_space (Text.halts_cons (by decide) _)

end Kind

/-! ## Tables and fields -/

/-- The first two words of a definition are read alike in front of a semicolon. -/
theorem afterDefine_append_semicolon {kind : String} (hkind : IsKind kind) (text : List Char) :
    Ddl.afterDefine? kind (text ++ [';']) = (Ddl.afterDefine? kind text).map (· ++ [';']) := by
  have hword : Text.isWord ';' = false := by decide
  have hblank : Text.isBlank ';' = false := by decide
  unfold Ddl.afterDefine?
  rw [Text.keywordThenBlanks_append (by decide) hword hblank]
  cases Text.keywordThenBlanks? "DEFINE" text with
  | none => rfl
  | some behind => exact Text.keywordThenBlanks_append hkind.capitals hword hblank behind

/-- A definition that does not overwrite does not do so where it is written, either. -/
theorem keywordThenBlanks_overwrite_eq_none {kind : String} (hkind : IsKind kind)
    {definition rest : List Char} (h : overwrites kind (Text.trim definition) = false)
    (hrest : Ddl.afterDefine? kind (Ddl.terminated definition) = some rest) :
    Text.keywordThenBlanks? "OVERWRITE" rest = none := by
  have hno : ∀ {rest : List Char}, Ddl.afterDefine? kind (Text.trim definition) = some rest →
      Text.keywordThenBlanks? "OVERWRITE" rest = none := by
    intro rest hrest
    unfold overwrites at h
    rw [hrest, Option.bind_some] at h
    rw [Option.eq_none_iff_forall_ne_some]
    intro after hafter
    have hstarts := Ddl.startsWith_of_keywordThenBlanks hafter
    unfold Ddl.startsWith at hstarts
    obtain ⟨behind, hbehind⟩ := Option.isSome_iff_exists.mp hstarts
    rw [hbehind] at h
    contradiction
  unfold Ddl.terminated at hrest
  dsimp only at hrest
  split at hrest
  · exact hno hrest
  · rw [afterDefine_append_semicolon hkind] at hrest
    obtain ⟨behind, hbehind, rfl⟩ := Option.map_eq_some_iff.mp hrest
    rw [Text.keywordThenBlanks_append (by decide) (by decide) (by decide), hno hbehind]
    rfl

/-- Whether a definition of a kind has the modifier `IF NOT EXISTS` where it is written. -/
def IsConditional (kind : String) (definition : List Char) : Prop :=
  (Ddl.afterDefine? kind (Ddl.terminated definition)).bind Ddl.afterCondition? ≠ none

instance (kind : String) (definition : List Char) : Decidable (IsConditional kind definition) :=
  inferInstanceAs (Decidable (_ ≠ _))

/-- **What is read behind the first two words of a definition is read of it when it is made to
overwrite**, too. -/
theorem bind_afterDefine_insertOverwrite {α : Type} {kind : String} (hkind : IsKind kind)
    {definition : List Char} (hcondition : ¬ IsConditional kind definition)
    (hoverwrites : overwrites kind (Text.trim definition) = false) {read : List Char → Option α}
    {value : α} (hread : (Ddl.afterDefine? kind (Ddl.terminated definition)).bind
      (Ddl.behindOptional Ddl.afterModifier? read) = some value) :
    (Ddl.afterDefine? kind (Ddl.terminated (insertOverwrite kind definition))).bind
      (Ddl.behindOptional Ddl.afterModifier? read) = some value := by
  rcases insertOverwrite_cases kind definition with
    hsame | ⟨front, word, rest, hsplit, hopening, hspells, hhalts, hinsert⟩
  · rw [hsame]
    exact hread
  · obtain ⟨rear, -, hterminated⟩ := Ddl.exists_terminated front hhalts
    obtain ⟨name, hname, hvalue⟩ := Option.bind_eq_some_iff.mp hread
    have hoverwrite := keywordThenBlanks_overwrite_eq_none hkind hoverwrites hname
    have hnone : Ddl.afterCondition? name = none := by
      unfold IsConditional at hcondition
      rw [hname, Option.bind_some, ne_eq, not_not] at hcondition
      exact hcondition
    -- Without a modifier the name is read right behind the blanks.
    have hmodifier : Ddl.afterModifier? name = none := by
      show (Text.keywordThenBlanks? "OVERWRITE" name).or (Ddl.afterCondition? name) = none
      rw [hoverwrite, hnone]
      rfl
    have hbare : read name = some value := by
      unfold Ddl.behindOptional at hvalue
      rw [hmodifier, Option.bind_none, Option.none_or] at hvalue
      exact hvalue
    have hblanks : Text.afterBlanks? rear = some name := by
      rw [hsplit, hterminated word (isPhrase_of_spellsKind hkind hspells),
        hopening.afterDefine hkind hspells] at hname
      exact hname
    have hskip : Text.keywordThenBlanks? "OVERWRITE" ("OVERWRITE".toList ++ rear) = some name := by
      rw [Text.keywordThenBlanks?,
        Text.afterLiteralAnyCase_of_spells (Text.spells_self (by decide)), Option.bind_some,
        hblanks]
    rw [hinsert, hterminated _ (isPhrase_overwriting hkind hspells),
      hopening.afterDefine_overwriting hkind hspells, Option.bind_some]
    unfold Ddl.behindOptional Ddl.afterModifier?
    rw [hskip, Option.some_or, Option.bind_some, hbare, Option.some_or]

/-- Whether a definition is written on one line as one statement. -/
structure IsOneLine (definition : List Char) : Prop where
  unbroken : Text.Unbroken definition
  uncut : Ddl.Uncut none (Ddl.terminated definition)

instance (definition : List Char) : Decidable (IsOneLine definition) :=
  decidable_of_iff (Text.Unbroken definition ∧ Ddl.Uncut none (Ddl.terminated definition))
    ⟨fun h => ⟨h.1, h.2⟩, fun h => ⟨h.unbroken, h.uncut⟩⟩

namespace IsOneLine

/-- A phrase on the line may be replaced. -/
theorem replace {front rear phrase other : List Char} (h : IsOneLine (front ++ (phrase ++ rear)))
    (hphrase : Ddl.IsPhrase phrase) (hother : Ddl.IsPhrase other)
    (hrear : Text.Halts Text.isWord rear) : IsOneLine (front ++ (other ++ rear)) where
  unbroken := by
    intro c hc
    rcases List.mem_append.mp hc with hc | hc
    · exact h.unbroken c (List.mem_append_left _ hc)
    · rcases List.mem_append.mp hc with hc | hc
      · exact hother.plain.unbroken c hc
      · exact h.unbroken c (List.mem_append_right _ (List.mem_append_right _ hc))
  uncut := by
    obtain ⟨rear', -, hterminated⟩ := Ddl.exists_terminated front hrear
    have huncut := h.uncut
    rw [hterminated phrase hphrase] at huncut
    rw [hterminated other hother]
    exact huncut.replace hphrase hother

theorem insertOverwrite {kind : String} (hkind : IsKind kind) {definition : List Char}
    (h : IsOneLine definition) : IsOneLine (insertOverwrite kind definition) := by
  rcases insertOverwrite_cases kind definition with
    hsame | ⟨front, word, rest, hsplit, -, hspells, hhalts, hinsert⟩
  · rw [hsame]
    exact h
  · rw [hinsert]
    rw [hsplit] at h
    exact h.replace (isPhrase_of_spellsKind hkind hspells) (isPhrase_overwriting hkind hspells)
      hhalts

/-- What is written is one line of a document with one statement. -/
theorem isStatementLine {kind : String} {definition rest : List Char} (h : IsOneLine definition)
    (hread : Ddl.afterDefine? kind (Ddl.terminated definition) = some rest) :
    Ddl.IsStatementLine (Ddl.terminated definition) where
  unbroken := Ddl.unbroken_terminated h.unbroken
  trimmed := Ddl.trimmed_terminated definition
  define := Ddl.startsWith_define_of_afterDefine hread
  uncut := h.uncut

end IsOneLine

/-- Whether a definition is one line that defines a table. -/
structure IsTableLine (definition : List Char) : Prop extends IsOneLine definition where
  named : (Ddl.definedTable? (Ddl.terminated definition)).isSome

instance (definition : List Char) : Decidable (IsTableLine definition) :=
  decidable_of_iff
    (IsOneLine definition ∧ (Ddl.definedTable? (Ddl.terminated definition)).isSome)
    ⟨fun h => ⟨h.1, h.2⟩, fun h => ⟨h.toIsOneLine, h.named⟩⟩

/-- Whether a definition is one line that defines a field. -/
structure IsFieldLine (definition : List Char) : Prop extends IsOneLine definition where
  named : (Ddl.fieldParts? (Ddl.terminated definition)).isSome

instance (definition : List Char) : Decidable (IsFieldLine definition) :=
  decidable_of_iff (IsOneLine definition ∧ (Ddl.fieldParts? (Ddl.terminated definition)).isSome)
    ⟨fun h => ⟨h.1, h.2⟩, fun h => ⟨h.toIsOneLine, h.named⟩⟩

theorem IsTableLine.exists_head {definition : List Char} (h : IsTableLine definition) :
    ∃ name rest, Ddl.tableHead? (Ddl.terminated definition) = some (name, rest) ∧
      Ddl.definedTable? (Ddl.terminated definition) = some (String.ofList name) := by
  obtain ⟨name, hname⟩ := Option.isSome_iff_exists.mp h.named
  obtain ⟨⟨characters, rest⟩, hhead, rfl⟩ := Option.map_eq_some_iff.mp hname
  exact ⟨characters, rest, hhead, hname⟩

/-- Two lines that define a table read alike if they give it the same name and comment. -/
theorem IsTableLine.readAlike {definition other : List Char} (h : IsTableLine definition)
    (hother : IsTableLine other) (hname : Ddl.definedTable? (Ddl.terminated other) =
      Ddl.definedTable? (Ddl.terminated definition))
    (hcomment : Ddl.comment? (Ddl.terminated other) = Ddl.comment? (Ddl.terminated definition)) :
    Ddl.ReadAlike (Ddl.terminated definition) (Ddl.terminated other) := by
  obtain ⟨name, rest, hhead, hdefined⟩ := h.exists_head
  obtain ⟨name', rest', hhead', -⟩ := hother.exists_head
  obtain ⟨_, hafter, -⟩ := Option.bind_eq_some_iff.mp hhead
  obtain ⟨_, hafter', -⟩ := Option.bind_eq_some_iff.mp hhead'
  apply (h.isStatementLine hafter).readAlike (hother.isStatementLine hafter')
  rw [hdefined] at hname
  exact Ddl.State.step_eq_of_table (Ddl.trimmed_terminated _) (Ddl.trimmed_terminated _) hdefined
    hname hcomment.symm (by rw [Ddl.isTerminated_terminated, Ddl.isTerminated_terminated])

theorem isKind_table : IsKind "TABLE" := by decide

theorem isKind_field : IsKind "FIELD" := by decide

/-- A text that is too short has no keyword of a comment. -/
theorem not_infix_comment_of_length {text : List Char} (h : text.length < 7) :
    ¬ "COMMENT".toList <:+: text := by
  intro hin
  have hle := hin.length_le
  have hseven : "COMMENT".toList.length = 7 := rfl
  omega

/-- The beginning of a definition has none. -/
theorem IsOpening.not_infix_comment {opening : List Char} (hopening : IsOpening opening) :
    ¬ "COMMENT".toList <:+: opening := by
  obtain ⟨define, b, blanks, rfl, hspells, hblanks⟩ := hopening.split
  obtain ⟨hb, hall⟩ := List.forall_mem_cons.mp hblanks
  have hmark : b ∉ "COMMENT".toList := by
    intro hmem
    have hsolid : Text.Solid "COMMENT".toList := by decide
    rw [hsolid.2 b hmem] at hb
    contradiction
  intro hin
  rcases Text.infix_append_mark hmark hin with hin | hin
  · refine not_infix_comment_of_length ?_ hin
    rw [← hspells.length_eq]
    decide
  · have hc := hall 'C' (hin.subset List.mem_cons_self)
    exact absurd hc (by decide)

/-- Neither have the words behind it in the definition of a table. -/
theorem not_infix_comment_overwriting {word : List Char}
    (hspells : Text.Spells "TABLE".toList word) :
    ¬ "COMMENT".toList <:+: word ∧ ¬ "COMMENT".toList <:+: overwriting word := by
  have hword : ¬ "COMMENT".toList <:+: word := by
    apply not_infix_comment_of_length
    rw [← hspells.length_eq]
    decide
  have hspace : ' ' ∉ "COMMENT".toList := by decide
  have hoverwrite : ¬ "COMMENT".toList <:+: "OVERWRITE".toList := by decide
  refine ⟨hword, fun hin => ?_⟩
  rcases Text.infix_append_mark hspace hin with hin | hin
  · exact hword hin
  · exact hoverwrite hin

/-- A definition of a table keeps its comment when it is made to overwrite. -/
theorem comment_insertOverwrite (definition : List Char) :
    Ddl.comment? (Ddl.terminated (insertOverwrite "TABLE" definition)) =
      Ddl.comment? (Ddl.terminated definition) := by
  rcases insertOverwrite_cases "TABLE" definition with
    hsame | ⟨front, word, rest, hsplit, hopening, hspells, hhalts, hinsert⟩
  · rw [hsame]
  · obtain ⟨rear, hrear, hterminated⟩ := Ddl.exists_terminated front hhalts
    have hphrase := isPhrase_of_spellsKind isKind_table hspells
    have hoverwriting := isPhrase_overwriting isKind_table hspells
    obtain ⟨hword, hboth⟩ := not_infix_comment_overwriting hspells
    have houtside : Ddl.OutsideComment (Text.trimStart front) word := by
      unfold Ddl.OutsideComment
      rw [Ddl.cutAt_eq_none hopening.not_infix_comment]
      exact hword
    rw [hinsert, hterminated _ hoverwriting]
    conv_rhs => rw [hsplit, hterminated _ hphrase]
    exact (Ddl.comment_replace hopening.leaves hrear hphrase hoverwriting houtside hboth).symm

/-- **A definition of a table is read alike when it is made to overwrite.** -/
theorem IsTableLine.readAlike_writeDefinition {definition : List Char} (h : IsTableLine definition)
    {overwrite : Bool} (hcondition : overwrite = true → ¬ IsConditional "TABLE" definition) :
    Ddl.ReadAlike (Ddl.terminated definition) (writeDefinition overwrite "TABLE" definition) := by
  unfold writeDefinition
  split
  · next hchanged =>
      obtain ⟨rfl, hoverwrites⟩ : overwrite = true ∧
          overwrites "TABLE" (Text.trim definition) = false := by simpa using hchanged
      obtain ⟨name, rest, hhead, hdefined⟩ := h.exists_head
      have hhead' : Ddl.tableHead? (Ddl.terminated (insertOverwrite "TABLE" definition)) =
          some (name, rest) :=
        bind_afterDefine_insertOverwrite isKind_table (hcondition rfl) hoverwrites hhead
      have hdefined' := Ddl.definedTable_of_tableHead hhead'
      have hline : IsTableLine (insertOverwrite "TABLE" definition) :=
        ⟨h.toIsOneLine.insertOverwrite isKind_table, by rw [hdefined']; rfl⟩
      exact h.readAlike hline (by rw [hdefined', hdefined]) (comment_insertOverwrite definition)
  · exact Ddl.ReadAlike.refl _

/-- **So is a definition of a field.** -/
theorem IsFieldLine.readAlike_writeDefinition {definition : List Char} (h : IsFieldLine definition)
    {overwrite : Bool} (hcondition : overwrite = true → ¬ IsConditional "FIELD" definition) :
    Ddl.ReadAlike (Ddl.terminated definition) (writeDefinition overwrite "FIELD" definition) := by
  have hparts : ∀ definition, Ddl.fieldParts? (Ddl.terminated definition) =
      (Ddl.afterDefine? "FIELD" (Ddl.terminated definition)).bind
        (Ddl.behindOptional Ddl.afterModifier? Ddl.fieldAndTable?) := by
    intro definition
    rw [Ddl.fieldParts?, Text.trim_eq_self (Ddl.trimmed_terminated definition)]
  unfold writeDefinition
  split
  · next hchanged =>
      obtain ⟨rfl, hoverwrites⟩ : overwrite = true ∧
          overwrites "FIELD" (Text.trim definition) = false := by simpa using hchanged
      obtain ⟨parts, hread⟩ := Option.isSome_iff_exists.mp h.named
      rw [hparts] at hread
      have hread' := bind_afterDefine_insertOverwrite isKind_field (hcondition rfl) hoverwrites hread
      obtain ⟨_, hafter, -⟩ := Option.bind_eq_some_iff.mp hread
      obtain ⟨_, hafter', -⟩ := Option.bind_eq_some_iff.mp hread'
      have hfield : Ddl.definedField? (Ddl.terminated definition) =
          Ddl.definedField? (Ddl.terminated (insertOverwrite "FIELD" definition)) := by
        rw [Ddl.definedField?, Ddl.definedField?, hparts, hparts, hread, hread']
      have hline := h.toIsOneLine.insertOverwrite isKind_field
      apply (h.isStatementLine hafter).readAlike (hline.isStatementLine hafter')
      exact Ddl.State.step_eq_of_field (Ddl.trimmed_terminated _) (Ddl.trimmed_terminated _) hafter
        hafter' hfield (by rw [Ddl.isTerminated_terminated, Ddl.isTerminated_terminated])
  · exact Ddl.ReadAlike.refl _

end Info
end SurrealSchema
