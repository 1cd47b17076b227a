import SurrealSchema.Ddl.Definition
import SurrealSchema.Proofs.Text.Boundary
import SurrealSchema.Proofs.Text.Trim
import SurrealSchema.Proofs.Token

namespace SurrealSchema
namespace Ddl

/-!
# Heads of written definitions

What the head of a `DEFINE TABLE` or a `DEFINE FIELD` is read as.  The first word of what follows
may be a modifier and not a name; a name that spells a modifier is read as a name only where what
follows rules the modifier out.
-/

/-- The definition of a kind, with what follows its first two words. -/
def definition (kind : String) (rest : List Char) : List Char :=
  "DEFINE".toList ++ ' ' :: (kind.toList ++ ' ' :: rest)

/-- Whether a text is a name without backticks. -/
def IsWordName (name : List Char) : Prop :=
  name ≠ [] ∧ ∀ c ∈ name, Text.isWord c = true

/-- Whether a name ends in front of a text and no backtick follows it. -/
def EndsName (rest : List Char) : Prop :=
  Text.Halts (fun c => Text.isWord c || c == '`') rest

theorem EndsName.halts {rest : List Char} (h : EndsName rest) : Text.Halts Text.isWord rest := by
  intro c hc
  have := h c hc
  simp only [Bool.or_eq_false_iff] at this
  exact this.1

theorem EndsName.afterBacktick {rest : List Char} (h : EndsName rest) :
    Text.afterLiteral? ['`'] rest = none := by
  cases rest with
  | nil => rfl
  | cons c rest =>
      have hc := h c rfl
      simp only [Bool.or_eq_false_iff, beq_eq_false_iff_ne] at hc
      simp [Text.afterLiteral?, List.isPrefixOf?, Ne.symm hc.2]

theorem isWordName_of_isIdentifier {name : List Char} (h : Token.isIdentifier name = true) :
    IsWordName name := by
  refine ⟨?_, Token.isWord_of_isIdentifier h⟩
  rintro rfl
  contradiction

theorem IsWordName.solid {name : List Char} (h : IsWordName name) : Text.Solid name :=
  ⟨h.1, fun c hc => Text.isBlank_of_isWord (h.2 c hc)⟩

theorem IsWordName.not_mem {name : List Char} (h : IsWordName name) {mark : Char}
    (hmark : Text.isWord mark = false) : mark ∉ name := by
  intro hmem
  rw [h.2 mark hmem] at hmark
  contradiction

/-- A word names no part of a field. -/
theorem IsWordName.isPartName {name : String} (h : IsWordName name.toList) :
    isPartName name = false := by
  have hbracket : '[' ∉ name.toList := h.not_mem (by decide)
  have hdot : '.' ∉ name.toList := h.not_mem (by decide)
  simp [Ddl.isPartName, hbracket, hdot]

theorem tableName_append {name rest : List Char} (hname : IsWordName name) (hrest : EndsName rest) :
    tableName? (name ++ rest) = some (name, rest) := by
  have hbare : Text.afterLiteral? ['`'] (name ++ rest) = none := by
    obtain ⟨c, more, rfl⟩ := List.exists_cons_of_ne_nil hname.1
    have hc : '`' ≠ c := by
      rintro rfl
      exact absurd (hname.2 '`' List.mem_cons_self) (by decide)
    simp [Text.afterLiteral?, List.isPrefixOf?, hc]
  have hne : name.isEmpty = false := List.isEmpty_eq_false_iff.mpr hname.1
  unfold tableName?
  dsimp only
  rw [hbare, Option.getD_none, Text.takeWhile_run hname.2 hrest.halts,
    Text.dropWhile_run hname.2 hrest.halts, hne, hrest.afterBacktick]
  rfl

/-- The first two words of a definition are read. -/
theorem afterDefine_definition {kind : String} (hcapitals : Text.Capitals kind.toList)
    (hkind : Text.Solid kind.toList) {rest : List Char} (hrest : Text.Halts Text.isBlank rest) :
    afterDefine? kind (definition kind rest) = some rest := by
  unfold afterDefine? definition
  rw [Text.keywordThenBlanks_self (by decide) (hkind.halts_append _), Option.bind_some,
    Text.keywordThenBlanks_self hcapitals hrest]

/-! ## Modifiers -/

/-- What follows `IF NOT EXISTS` at the front of a text. -/
def afterCondition? (text : List Char) : Option (List Char) :=
  ((Text.keywordThenBlanks? "IF" text).bind (Text.keywordThenBlanks? "NOT")).bind
    (Text.keywordThenBlanks? "EXISTS")

section Modifiers

variable {text rest : List Char} (h : Text.Leaves Text.isWord text)
  (hhalts : Text.Halts Text.isBlank rest)
  (hif : text = [] → Text.keywordThenBlanks? "IF" rest = none)
  (hnot : Text.keywordThenBlanks? "NOT" rest = none)
  (hexists : Text.keywordThenBlanks? "EXISTS" rest = none)
include h hhalts hif hnot hexists

/-- A condition is read alike in front of a rest that cannot go on with it. -/
theorem afterCondition_append :
    afterCondition? (text ++ rest) = (afterCondition? text).map (· ++ rest) := by
  have hsuffix : ∀ {word : String} {text behind : List Char}, Text.Capitals word.toList →
      word.toList ≠ [] → Text.keywordThenBlanks? word text = some behind → behind <:+ text :=
    fun hcapitals hne hread => (Text.behind_of_keywordThenBlanks hcapitals hne hread).suffix
  unfold afterCondition?
  rw [h.keywordThenBlanks_append (by decide) hhalts hif]
  cases hfirst : Text.keywordThenBlanks? "IF" text with
  | none => rfl
  | some second =>
      have hsecond := h.of_suffix (hsuffix (by decide) (by decide) hfirst)
      rw [Option.map_some, Option.bind_some, Option.bind_some,
        hsecond.keywordThenBlanks_append (by decide) hhalts fun _ => hnot]
      cases hmiddle : Text.keywordThenBlanks? "NOT" second with
      | none => rfl
      | some third =>
          have hthird := hsecond.of_suffix (hsuffix (by decide) (by decide) hmiddle)
          exact hthird.keywordThenBlanks_append (by decide) hhalts fun _ => hexists

/-- So is a modifier. -/
theorem afterModifier_append
    (hoverwrite : text = [] → Text.keywordThenBlanks? "OVERWRITE" rest = none) :
    afterModifier? (text ++ rest) = (afterModifier? text).map (· ++ rest) := by
  show (Text.keywordThenBlanks? "OVERWRITE" (text ++ rest)).or (afterCondition? (text ++ rest)) =
    ((Text.keywordThenBlanks? "OVERWRITE" text).or (afterCondition? text)).map (· ++ rest)
  rw [h.keywordThenBlanks_append (by decide) hhalts hoverwrite,
    afterCondition_append h hhalts hif hnot hexists, Option.map_or]

end Modifiers

/-! ## Tables -/

/-- Whether the first two words of a text are `NOT EXISTS`. -/
def StartsNotExists (text : List Char) : Prop :=
  ∃ first second more, Text.words text = first :: second :: more ∧
    Text.Spells "NOT".toList first ∧ Text.Spells "EXISTS".toList second

theorem afterModifier_eq_none {name rest : List Char} (hname : IsWordName name)
    (hrest : Text.Halts Text.isWord rest) (hoverwrite : ¬ Text.Spells "OVERWRITE".toList name)
    (hif : Text.Spells "IF".toList name → ¬ StartsNotExists rest) :
    afterModifier? (name ++ rest) = none := by
  have hfirst : Text.keywordThenBlanks? "OVERWRITE" (name ++ rest) = none :=
    Text.keywordThenBlanks_eq_none (by decide) Text.delimits_isWord hname.2 hrest hoverwrite
  unfold afterModifier?
  rw [hfirst, Option.none_or, Option.eq_none_iff_forall_ne_some]
  intro after hafter
  obtain ⟨behindNot, hbehindNot, hexists⟩ := Option.bind_eq_some_iff.mp hafter
  obtain ⟨behindIf, hbehindIf, hnot⟩ := Option.bind_eq_some_iff.mp hbehindNot
  obtain ⟨hspells, hblanks⟩ :=
    Text.spells_of_keywordThenBlanks (by decide) Text.delimits_isWord hname.2 hrest hbehindIf
  obtain ⟨b, blanks, rfl, hb, hall⟩ := Text.blanks_of_afterBlanks hblanks
  obtain ⟨first, hfirst, hwords⟩ := Text.words_of_keywordThenBlanks (by decide) (by decide) hnot
  obtain ⟨second, hsecond, hwords'⟩ :=
    Text.words_of_keywordThenBlanks (by decide) (by decide) hexists
  refine hif hspells ⟨first, second, Text.words after, ?_, hfirst, hsecond⟩
  rw [Text.words_of_blank hb, Text.words_blanks_append hall, hwords, hwords']

theorem definition_append (kind : String) (rest mark : List Char) :
    definition kind rest ++ mark = definition kind (rest ++ mark) := by
  unfold definition
  rw [List.append_assoc, List.cons_append, List.append_assoc, List.cons_append]

/-- A definition is its first two words with a space behind them and what follows. -/
theorem definition_eq_append (kind : String) (rest : List Char) :
    definition kind rest = definition kind [] ++ rest :=
  (definition_append kind [] rest).symm

theorem EndsName.append_semicolon {rest : List Char} (h : EndsName rest) :
    EndsName (rest ++ [';']) := by
  cases rest with
  | nil => exact Text.halts_cons (by decide) []
  | cons c rest => exact h

/-- A semicolon is no part of a modifier. -/
theorem afterModifier_append_semicolon (text : List Char) :
    afterModifier? (text ++ [';']) = (afterModifier? text).map (· ++ [';']) := by
  have hword : Text.isWord ';' = false := by decide
  have hblank : Text.isBlank ';' = false := by decide
  have happend : ∀ {word : String}, Text.Capitals word.toList → ∀ text,
      Text.keywordThenBlanks? word (text ++ [';']) =
        (Text.keywordThenBlanks? word text).map (· ++ [';']) := by
    intro word hcapitals text
    exact Text.keywordThenBlanks_append hcapitals hword hblank text
  unfold afterModifier?
  rw [happend (by decide), happend (by decide)]
  cases Text.keywordThenBlanks? "OVERWRITE" text with
  | some rest => rfl
  | none =>
      rw [Option.map_none, Option.none_or, Option.none_or]
      cases Text.keywordThenBlanks? "IF" text with
      | none => rfl
      | some rest =>
          rw [Option.map_some, Option.bind_some, Option.bind_some, happend (by decide)]
          cases Text.keywordThenBlanks? "NOT" rest with
          | none => rfl
          | some rest =>
              rw [Option.map_some, Option.bind_some, Option.bind_some, happend (by decide)]

/-- **A written definition of a table is read as the definition of the table it names.** -/
theorem definedTable_definition {name rest : List Char} (hname : IsWordName name)
    (hrest : EndsName rest) (hoverwrite : ¬ Text.Spells "OVERWRITE".toList name)
    (hif : Text.Spells "IF".toList name → ¬ StartsNotExists rest) :
    definedTable? (definition "TABLE" (name ++ rest) ++ [';']) = some (String.ofList name) := by
  have hnone : afterModifier? (name ++ (rest ++ [';'])) = none := by
    rw [← List.append_assoc, afterModifier_append_semicolon,
      afterModifier_eq_none hname hrest.halts hoverwrite hif]
    rfl
  unfold definedTable? behindOptional
  rw [definition_append, List.append_assoc,
    afterDefine_definition (by decide) (by decide) (hname.solid.halts_append _), Option.bind_some,
    hnone, tableName_append hname hrest.append_semicolon]
  rfl

/-! ## Fields -/

/-- The key of a field, its table and what follows. -/
def onTable (key table rest : List Char) : List Char :=
  key ++ ' ' :: ("ON".toList ++ ' ' :: (table ++ rest))

/-- Behind its first two words a definition of a field may have a modifier. -/
theorem fieldParts_eq_behindOptional {key table rest : List Char} (hkey : Text.Solid key)
    (htrimmed : Text.Trimmed (definition "FIELD" (onTable key table rest))) :
    fieldParts? (definition "FIELD" (onTable key table rest)) =
      behindOptional afterModifier? fieldAndTable? (onTable key table rest) := by
  have hstart : Text.Halts Text.isBlank (onTable key table rest) := hkey.halts_append _
  unfold fieldParts?
  rw [Text.trim_eq_self htrimmed, afterDefine_definition (by decide) (by decide) hstart,
    Option.bind_some]

/-- What follows the name of a field and the keyword behind it is read as a table with clauses. -/
theorem fieldAndTable_spelled {key on behind : List Char} (hkey : Text.Solid key)
    (hon : Text.Spells "ON".toList on) (hhalts : Text.Halts Text.isBlank behind) :
    fieldAndTable? (key ++ ' ' :: (on ++ ' ' :: behind)) =
      (behindOptional (Text.keywordThenBlanks? "TABLE") tableName? behind).map
        fun (table, clauses) => ⟨String.ofList key, String.ofList table, clauses⟩ := by
  have hrun : ∀ c ∈ key, (!Text.isBlank c) = true := by
    intro c hc
    rw [hkey.2 c hc]
    rfl
  have hspace : Text.Halts (fun c => !Text.isBlank c) (' ' :: (on ++ ' ' :: behind)) :=
    Text.halts_cons (by decide) _
  have hsolid : Text.Solid on := by
    have hcapitals : Text.Capitals "ON".toList := by decide
    exact ⟨Text.ne_nil_of_spells (by decide) hon, fun c hc =>
      Text.isBlank_of_isWord (Text.isWord_of_spells hcapitals hon c hc)⟩
  have hne : key.isEmpty = false := List.isEmpty_eq_false_iff.mpr hkey.1
  unfold fieldAndTable?
  dsimp only
  rw [Text.takeWhile_run hrun hspace, Text.dropWhile_run hrun hspace, hne,
    Text.afterBlanks_space (hsolid.halts_append _), Option.bind_some,
    Text.keywordThenBlanks_of_spells hon hhalts, Option.bind_some]
  rfl

section OnTable

variable {key text rest : List Char} (hhalts : Text.Halts Text.isBlank (text ++ rest))
include hhalts

/-- What follows the name of a field up to its table is read. -/
theorem fieldAndTable_onTable (hkey : Text.Solid key)
    (hword : Text.keywordThenBlanks? "TABLE" (text ++ rest) = none) {table : List Char}
    (htable : tableName? (text ++ rest) = some (table, rest)) :
    fieldAndTable? (onTable key text rest) =
      some ⟨String.ofList key, String.ofList table, rest⟩ := by
  rw [onTable, fieldAndTable_spelled hkey (Text.spells_self (by decide)) hhalts]
  unfold behindOptional
  rw [hword, htable]
  rfl

/-- Behind a modifier a field would be named `ON`, and its table would have to be, too. -/
theorem fieldAndTable_on (hword : Text.keywordThenBlanks? "ON" (text ++ rest) = none) :
    fieldAndTable? ("ON".toList ++ ' ' :: (text ++ rest)) = none := by
  have hrun : ∀ c ∈ "ON".toList, (!Text.isBlank c) = true := List.all_eq_true.mp (by decide)
  have hspace : Text.Halts (fun c => !Text.isBlank c) (' ' :: (text ++ rest)) :=
    Text.halts_cons (by decide) _
  have hne : "ON".toList.isEmpty = false := by decide
  unfold fieldAndTable?
  dsimp only
  rw [Text.takeWhile_run hrun hspace, Text.dropWhile_run hrun hspace, hne,
    Text.afterBlanks_space hhalts, Option.bind_some, hword]
  rfl

/-- A key that spells a modifier is not read as one. -/
theorem bind_afterModifier_onTable (hkey : Text.Solid key)
    (hword : Text.Spells "OVERWRITE".toList key →
      Text.keywordThenBlanks? "ON" (text ++ rest) = none) :
    (afterModifier? (onTable key text rest)).bind fieldAndTable? = none := by
  have hrun : ∀ c ∈ key, (!Text.isBlank c) = true := by
    intro c hc
    rw [hkey.2 c hc]
    rfl
  have hspace : Text.Halts (fun c => !Text.isBlank c)
      (' ' :: ("ON".toList ++ ' ' :: (text ++ rest))) := Text.halts_cons (by decide) _
  have hon : Text.Solid "ON".toList := by decide
  have hblanks := Text.afterBlanks_space (hon.halts_append (' ' :: (text ++ rest)))
  unfold afterModifier? onTable
  cases hoverwrite : Text.keywordThenBlanks? "OVERWRITE"
      (key ++ ' ' :: ("ON".toList ++ ' ' :: (text ++ rest))) with
  | some behind =>
      obtain ⟨hspells, hbehind⟩ := Text.spells_of_keywordThenBlanks (by decide)
        Text.delimits_not_isBlank hrun hspace hoverwrite
      rw [hblanks] at hbehind
      rw [← Option.some.inj hbehind, Option.some_or, Option.bind_some]
      exact fieldAndTable_on hhalts (hword hspells)
  | none =>
      rw [Option.none_or]
      cases hif : Text.keywordThenBlanks? "IF"
          (key ++ ' ' :: ("ON".toList ++ ' ' :: (text ++ rest))) with
      | none => rfl
      | some behind =>
          obtain ⟨-, hbehind⟩ := Text.spells_of_keywordThenBlanks (by decide)
            Text.delimits_not_isBlank hrun hspace hif
          rw [hblanks] at hbehind
          have hnot :
              Text.keywordThenBlanks? "NOT" ("ON".toList ++ ' ' :: (text ++ rest)) = none :=
            Text.keywordThenBlanks_eq_none (by decide) Text.delimits_isWord
              (List.all_eq_true.mp (by decide)) (Text.halts_cons (by decide) _) (by decide)
          rw [← Option.some.inj hbehind, Option.bind_some, hnot]
          rfl

/-- What follows the first two words of the definition of a field is read. -/
theorem fieldParts_onTable (hkey : Text.Solid key)
    (htrimmed : Text.Trimmed (definition "FIELD" (onTable key text rest)))
    (hword : Text.keywordThenBlanks? "TABLE" (text ++ rest) = none)
    (hkeyWord : Text.Spells "OVERWRITE".toList key →
      Text.keywordThenBlanks? "ON" (text ++ rest) = none)
    {table : List Char} (htable : tableName? (text ++ rest) = some (table, rest)) :
    fieldParts? (definition "FIELD" (onTable key text rest)) =
      some ⟨String.ofList key, String.ofList table, rest⟩ := by
  rw [fieldParts_eq_behindOptional hkey htrimmed, behindOptional,
    bind_afterModifier_onTable hhalts hkey hkeyWord, fieldAndTable_onTable hhalts hkey hword htable]
  rfl

end OnTable

/-- **A definition of a field is read as the definition of the field it names.** -/
theorem fieldParts_definition {key table rest : List Char} (hkey : Text.Solid key)
    (htable : IsWordName table) (hrest : EndsName rest)
    (htrimmed : Text.Trimmed (definition "FIELD" (onTable key table rest)))
    (htableWord : ¬ Text.Spells "TABLE".toList table)
    (hkeyWord : Text.Spells "OVERWRITE".toList key → ¬ Text.Spells "ON".toList table) :
    fieldParts? (definition "FIELD" (onTable key table rest)) =
      some ⟨String.ofList key, String.ofList table, rest⟩ := by
  have hnone : ∀ {word : String}, Text.Capitals word.toList → ¬ Text.Spells word.toList table →
      Text.keywordThenBlanks? word (table ++ rest) = none := by
    intro word hcapitals hword
    exact Text.keywordThenBlanks_eq_none hcapitals Text.delimits_isWord htable.2 hrest.halts hword
  exact fieldParts_onTable (htable.solid.halts_append rest) hkey htrimmed
    (hnone (by decide) htableWord) (fun hspells => hnone (by decide) (hkeyWord hspells))
    (tableName_append htable hrest)

/-! ## Names between backticks -/

/-- Between backticks a name is read as it is. -/
theorem tableName_backticked {name : List Char} (hname : IsWordName name) (rest : List Char) :
    tableName? (Token.backticked name ++ rest) = some (name, rest) := by
  have hhalts : Text.Halts Text.isWord ('`' :: rest) := Text.halts_cons (by decide) rest
  have hopening : Text.afterLiteral? ['`'] ('`' :: (name ++ '`' :: rest)) =
      some (name ++ '`' :: rest) := rfl
  have hclosing : Text.afterLiteral? ['`'] ('`' :: rest) = some rest := rfl
  have hne : name.isEmpty = false := List.isEmpty_eq_false_iff.mpr hname.1
  unfold tableName?
  dsimp only
  rw [Token.backticked_append, hopening, Option.getD_some, Text.takeWhile_run hname.2 hhalts,
    Text.dropWhile_run hname.2 hhalts, hne, hclosing]
  rfl

/-- A backtick is part of no keyword. -/
theorem keywordThenBlanks_backticked {word : String} (hcapitals : Text.Capitals word.toList)
    (hne : word.toList ≠ []) (name rest : List Char) :
    Text.keywordThenBlanks? word (Token.backticked name ++ rest) = none := by
  have hrun : ∀ c ∈ ([] : List Char), Text.isWord c = true := List.forall_mem_nil _
  have hhalts : Text.Halts Text.isWord (Token.backticked name ++ rest) :=
    Text.halts_cons (by decide) _
  show Text.keywordThenBlanks? word ([] ++ (Token.backticked name ++ rest)) = none
  exact Text.keywordThenBlanks_eq_none hcapitals Text.delimits_isWord hrun hhalts fun hspells =>
    Text.ne_nil_of_spells hne hspells rfl

/-- The definition of a table by its name between backticks is read as such. -/
theorem definedTable_backticked {name : List Char} (hname : IsWordName name) :
    definedTable? (definition "TABLE" (Token.backticked name) ++ [';']) =
      some (String.ofList name) := by
  have hstart : Text.Halts Text.isBlank (Token.backticked name ++ [';']) :=
    Text.halts_cons (by decide) _
  have hmodifier : afterModifier? (Token.backticked name ++ [';']) = none := by
    unfold afterModifier?
    rw [keywordThenBlanks_backticked (by decide) (by decide),
      keywordThenBlanks_backticked (by decide) (by decide)]
    rfl
  unfold definedTable? behindOptional
  rw [definition_append, afterDefine_definition (by decide) (by decide) hstart, Option.bind_some,
    hmodifier, tableName_backticked hname]
  rfl

/-- The definition of a field of a table between backticks is read as such. -/
theorem fieldParts_backticked {key table rest : List Char} (hkey : Text.Solid key)
    (htable : IsWordName table)
    (htrimmed : Text.Trimmed (definition "FIELD" (onTable key (Token.backticked table) rest))) :
    fieldParts? (definition "FIELD" (onTable key (Token.backticked table) rest)) =
      some ⟨String.ofList key, String.ofList table, rest⟩ :=
  fieldParts_onTable (Text.halts_cons (by decide) _) hkey htrimmed
    (keywordThenBlanks_backticked (by decide) (by decide) _ _)
    (fun _ => keywordThenBlanks_backticked (by decide) (by decide) _ _)
    (tableName_backticked htable rest)

end Ddl
end SurrealSchema
