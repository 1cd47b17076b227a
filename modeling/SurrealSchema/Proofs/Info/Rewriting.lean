import SurrealSchema.Proofs.Info.Overwrite
import SurrealSchema.Proofs.Token

namespace SurrealSchema
namespace Info

/-!
# Definitions of tables with another type or mode

A forced type or schema mode takes the place of the first clause of its kind, wherever in the
definition that is found: the text is searched without telling names, clauses and comments apart.
Where the clause stands behind the name of the table and outside of the comment, the definition
keeps the name and the comment, it stays one statement on one line, and no modifier appears in front
of the name.
-/

/-! ## Clauses -/

/-- Whether a phrase is a clause: it starts with a word that no modifier goes on with. -/
structure IsClause (phrase : List Char) : Prop extends Ddl.IsPhrase phrase where
  starts : ∀ rest, Text.Halts Text.isWord rest → Ddl.StartsPhrase (phrase ++ rest)

/-- What starts with a word other than `NOT` and `EXISTS` starts like a clause. -/
theorem startsPhrase_of_isWord {word rest : List Char} (hne : word ≠ [])
    (hword : ∀ c ∈ word, Text.isWord c = true) (hrest : Text.Halts Text.isWord rest)
    (hnot : ¬ Text.Spells "NOT".toList word) (hexists : ¬ Text.Spells "EXISTS".toList word) :
    Ddl.StartsPhrase (word ++ rest) where
  word := (Ddl.isPhrase_of_isWord hne hword).startsWord_append rest
  notNot := Text.keywordThenBlanks_eq_none (by decide) Text.delimits_isWord hword hrest hnot
  notExists := Text.keywordThenBlanks_eq_none (by decide) Text.delimits_isWord hword hrest hexists

theorem isClause_of_isWord {word : List Char} (hne : word ≠ [])
    (hword : ∀ c ∈ word, Text.isWord c = true) (hnot : ¬ Text.Spells "NOT".toList word)
    (hexists : ¬ Text.Spells "EXISTS".toList word) : IsClause word where
  toIsPhrase := Ddl.isPhrase_of_isWord hne hword
  starts := fun _ hrest => startsPhrase_of_isWord hne hword hrest hnot hexists

/-- A word for a clause is a clause. -/
theorem isClause_of_spells {keyword word : List Char} (hcapitals : Text.Capitals keyword)
    (hne : keyword ≠ []) (hnot : keyword ≠ "NOT".toList) (hexists : keyword ≠ "EXISTS".toList)
    (h : Text.Spells keyword word) : IsClause word :=
  isClause_of_isWord (Text.ne_nil_of_spells hne h) (Text.isWord_of_spells hcapitals h)
    (fun hother => hnot (Text.eq_of_spells hcapitals (by decide) h hother))
    (fun hother => hexists (Text.eq_of_spells hcapitals (by decide) h hother))

/-- A clause may go on with another word. -/
theorem IsClause.append {phrase gap word : List Char} (h : IsClause phrase)
    (hgap : ∀ c ∈ gap, Text.isBlank c = true ∧ Text.isLineBreak c = false) (hgapNe : gap ≠ [])
    (hword : Ddl.IsPhrase word) : IsClause (phrase ++ (gap ++ word)) where
  toIsPhrase := h.toIsPhrase.append hword hgap
  starts := by
    intro rest _
    have hhalts : Text.Halts Text.isWord (gap ++ word ++ rest) := by
      obtain ⟨b, blanks, rfl⟩ := List.exists_cons_of_ne_nil hgapNe
      exact Text.halts_cons (Text.isWord_of_isBlank (hgap b List.mem_cons_self).1) _
    rw [List.append_assoc]
    exact h.starts _ hhalts

/-! ## Readers of clauses -/

/-- What a reader of clauses reads: a clause between two places at which no word goes on. -/
structure ReadsClause (before : Option Char) (text rest : List Char) : Prop where
  bounded : Text.afterWord before = false
  halts : Text.Halts Text.isWord rest
  split : ∃ phrase, text = phrase ++ rest ∧ IsClause phrase

/-- Whether a reader reads clauses only, on one line. -/
def IsClauseReader (read : Text.Reader (List Char)) : Prop :=
  ∀ {before text rest}, Text.Unbroken text → read before text = some rest →
    ReadsClause before text rest

theorem isClauseReader_schemaModeWord : IsClauseReader schemaModeWord? := by
  have hword : ∀ {word : String}, Text.Capitals word.toList → word.toList ≠ [] →
      word.toList ≠ "NOT".toList → word.toList ≠ "EXISTS".toList → ∀ {before text rest},
      Text.keywordAnyCase? word before text = some rest → ReadsClause before text rest := by
    intro word hcapitals hne hnot hexists before text rest h
    obtain ⟨hbefore, hhalts, front, hsplit, hspells⟩ := Text.exists_of_keywordAnyCase h
    exact ⟨hbefore, hhalts, front, hsplit,
      isClause_of_spells hcapitals hne hnot hexists hspells⟩
  intro before text rest _ h
  rcases Option.or_eq_some_iff.mp h with hfull | ⟨-, hless⟩
  · exact hword (by decide) (by decide) (by decide) (by decide) hfull
  · exact hword (by decide) (by decide) (by decide) (by decide) hless

theorem isClauseReader_tableTypeClause : IsClauseReader tableTypeClause? := by
  intro before text rest hunbroken h
  unfold tableTypeClause? at h
  split at h
  · contradiction
  · next hbefore =>
      obtain ⟨behind, hbehind, rfl⟩ := Option.map_eq_some_iff.mp h
      obtain ⟨htype, hstarts⟩ := Option.filter_eq_some_iff.mp hbehind
      obtain ⟨front, b, blanks, rfl, hspells, hblanks⟩ := Text.exists_of_keywordThenBlanks htype
      have hclause : IsClause front :=
        isClause_of_spells (by decide) (by decide) (by decide) (by decide) hspells
      have hgap : ∀ c ∈ b :: blanks, Text.isBlank c = true ∧ Text.isLineBreak c = false :=
        fun c hc => ⟨hblanks c hc,
          hunbroken c (List.mem_append_left _ (List.mem_append_right _ hc))⟩
      have hword : Ddl.IsPhrase (behind.takeWhile Text.isWord) := by
        refine Ddl.isPhrase_of_isWord ?_ fun c hc => List.mem_takeWhile_imp hc
        obtain ⟨c, more, rfl⟩ : ∃ c more, behind = c :: more := by
          cases behind with
          | nil => contradiction
          | cons c more => exact ⟨c, more, rfl⟩
        have hc : Text.isWord c = true := hstarts
        rw [List.takeWhile_cons_of_pos hc]
        exact List.cons_ne_nil _ _
      refine ⟨by simpa using hbefore, ?_, _, ?_,
        hclause.append hgap (List.cons_ne_nil _ _) hword⟩
      · intro c hc
        have hnot := List.head?_dropWhile_not Text.isWord behind
        rw [hc] at hnot
        exact hnot
      · rw [List.append_assoc, List.append_assoc, List.append_assoc,
          List.takeWhile_append_dropWhile]

/-! ## Replacing a clause -/

/-- What a reader finds first in a definition: what stands before it, what is read and what
follows. -/
def around? (read : Text.Reader (List Char)) (definition : List Char) :
    Option (List Char × List Char × List Char) :=
  (Text.search read none definition).map fun (skipped, rest) =>
    (skipped, (definition.drop skipped.length).take
      (definition.length - skipped.length - rest.length), rest)

/-- Whether a clause in the definition of a table stands behind the name of the table and outside of
the comment. -/
structure StandsClear (front clause rear : List Char) : Prop where
  behindName : ∃ head ∈ Ddl.tableHead? (front ++ (clause ++ rear)), clause ++ rear <:+ head.2
  outside : Ddl.OutsideComment front clause

instance (front clause rear : List Char) : Decidable (StandsClear front clause rear) :=
  decidable_of_iff ((∃ head ∈ Ddl.tableHead? (front ++ (clause ++ rear)),
      clause ++ rear <:+ head.2) ∧ Ddl.OutsideComment front clause)
    ⟨fun h => ⟨h.1, h.2⟩, fun h => ⟨h.behindName, h.outside⟩⟩

/-- Whether the clause that a reader finds first, if it finds one, stands clear. -/
def FindsClear (read : Text.Reader (List Char)) (definition : List Char) : Prop :=
  ∀ parts ∈ around? read definition,
    StandsClear (Text.trimStart parts.1) parts.2.1 parts.2.2

instance (read : Text.Reader (List Char)) (definition : List Char) :
    Decidable (FindsClear read definition) :=
  inferInstanceAs (Decidable (∀ parts ∈ around? read definition, _))

/-- A reader of clauses finds one between two places at which no word goes on. -/
theorem exists_of_search {read : Text.Reader (List Char)} (hread : IsClauseReader read)
    {definition skipped rest : List Char} (hunbroken : Text.Unbroken definition)
    (h : Text.search read none definition = some (skipped, rest)) :
    ∃ clause, definition = skipped ++ (clause ++ rest) ∧ IsClause clause ∧
      Text.Leaves Text.isWord skipped ∧ Text.Halts Text.isWord rest ∧
      around? read definition = some (skipped, clause, rest) := by
  obtain ⟨tail, rfl, htail⟩ := Text.read_of_search h
  have hclause := hread (fun c hc => hunbroken c (List.mem_append_right _ hc)) htail
  obtain ⟨clause, rfl, hphrase⟩ := hclause.split
  refine ⟨clause, rfl, hphrase, ?_, hclause.halts, ?_⟩
  · intro c hc
    have hbounded := hclause.bounded
    rw [hc] at hbounded
    exact hbounded
  · have hlength : (skipped ++ (clause ++ rest)).length - skipped.length - rest.length =
        clause.length := by
      simp only [List.length_append]
      omega
    rw [around?, h, Option.map_some]
    dsimp only
    rw [hlength, List.drop_left, List.take_left]

/-- What a definition of a table keeps when it is changed. -/
structure Keeps (definition other : List Char) : Prop where
  line : IsTableLine other
  name : Ddl.definedTable? (Ddl.terminated other) = Ddl.definedTable? (Ddl.terminated definition)
  comment : Ddl.comment? (Ddl.terminated other) = Ddl.comment? (Ddl.terminated definition)
  condition : IsConditional "TABLE" other → IsConditional "TABLE" definition

namespace Keeps

theorem refl {definition : List Char} (h : IsTableLine definition) : Keeps definition definition :=
  ⟨h, rfl, rfl, id⟩

theorem trans {definition middle other : List Char} (h : Keeps definition middle)
    (hother : Keeps middle other) : Keeps definition other :=
  ⟨hother.line, hother.name.trans h.name, hother.comment.trans h.comment,
    h.condition ∘ hother.condition⟩

end Keeps

/-- The name in front of a clause that stands clear is there whatever the clause is and whatever
follows it. -/
theorem StandsClear.exists_tableHead {front clause rest : List Char}
    (h : StandsClear front clause rest) (hfront : Text.Leaves Text.isWord front)
    (hclause : IsClause clause) (hrest : Text.Halts Text.isWord rest) :
    ∃ name between, ∀ other rear, IsClause other → Text.Halts Text.isWord rear →
      Ddl.tableHead? (front ++ (other ++ rear)) = some (name, between ++ (other ++ rear)) := by
  obtain ⟨⟨name, after⟩, hhead, between, hafter⟩ := h.behindName
  dsimp only at hafter
  subst hafter
  exact ⟨name, between, fun other rear hother hrear =>
    Ddl.tableHead_replace hfront (hclause.starts rest hrest) (hother.starts rear hrear) hhead⟩

/-- **The first clause of a kind may be replaced where it stands clear.** -/
theorem IsTableLine.keeps_replaceFirst {definition : List Char} (h : IsTableLine definition)
    {read : Text.Reader (List Char)} (hread : IsClauseReader read)
    (hclear : FindsClear read definition) {replacement : List Char}
    (hreplacement : IsClause replacement) (hno : ¬ "COMMENT".toList <:+: replacement) :
    Keeps definition (replaceFirst read replacement definition) := by
  cases hfound : Text.search read none definition with
  | none =>
      unfold replaceFirst
      rw [hfound]
      exact Keeps.refl h
  | some found =>
      obtain ⟨skipped, rest⟩ := found
      have hreplaced : replaceFirst read replacement definition =
          skipped ++ (replacement ++ rest) := by
        unfold replaceFirst
        rw [hfound, ← List.append_assoc]
      obtain ⟨clause, rfl, hclause, hleaves, hhalts, haround⟩ :=
        exists_of_search hread h.unbroken hfound
      rw [hreplaced]
      obtain ⟨rear, hrear, hterminated⟩ := Ddl.exists_terminated skipped hhalts
      have hstands := hclear _ haround
      have hfront : Text.Leaves Text.isWord (Text.trimStart skipped) :=
        hleaves.of_suffix (List.dropWhile_suffix _)
      obtain ⟨name, between, hname⟩ := hstands.exists_tableHead hfront hclause hhalts
      have hdefinition := hterminated clause hclause.toIsPhrase
      have hother := hterminated replacement hreplacement.toIsPhrase
      have hdefined := Ddl.definedTable_of_tableHead (hname clause rear hclause hrear)
      have hdefined' := Ddl.definedTable_of_tableHead (hname replacement rear hreplacement hrear)
      refine ⟨⟨h.toIsOneLine.replace hclause.toIsPhrase hreplacement.toIsPhrase hhalts, ?_⟩, ?_,
        ?_, ?_⟩
      · rw [hother, hdefined']
        rfl
      · rw [hdefinition, hother, hdefined, hdefined']
      · rw [hdefinition, hother]
        exact (Ddl.comment_replace hfront hrear hclause.toIsPhrase hreplacement.toIsPhrase
          hstands.outside hno).symm
      · unfold IsConditional
        rw [hdefinition, hother]
        exact mt (Ddl.condition_replace hfront (hclause.starts rear hrear)
          (hreplacement.starts rear hrear) (hname clause rear hclause hrear))

/-! ## Forced words -/

/-- Whether a word may be forced on the definitions of tables: an ASCII word that does not bring the
keyword of comments with it. -/
structure IsForcedWord (word : String) : Prop where
  nonempty : word ≠ ""
  ascii : ∀ c ∈ word.toList, Token.continuesName c = true
  noComment : ¬ "COMMENT".toList <:+: Text.upper word.toList

/-- Whether a word may be forced as a mode, which is not to be taken for the end of a modifier. -/
structure IsForcedMode (word : String) : Prop extends IsForcedWord word where
  notNot : Text.upper word.toList ≠ "NOT".toList
  notExists : Text.upper word.toList ≠ "EXISTS".toList

-- Only the characters of the word are looked at, not all characters there are.
instance (word : String) : Decidable (IsForcedWord word) :=
  decidable_of_iff (word ≠ "" ∧ word.toList.all Token.continuesName = true ∧
      ¬ "COMMENT".toList <:+: Text.upper word.toList)
    ⟨fun h => ⟨h.1, List.all_eq_true.mp h.2.1, h.2.2⟩,
      fun h => ⟨h.nonempty, List.all_eq_true.mpr h.ascii, h.noComment⟩⟩

instance (word : String) : Decidable (IsForcedMode word) :=
  decidable_of_iff (IsForcedWord word ∧ Text.upper word.toList ≠ "NOT".toList ∧
      Text.upper word.toList ≠ "EXISTS".toList)
    ⟨fun h => ⟨h.1, h.2.1, h.2.2⟩, fun h => ⟨h.toIsForcedWord, h.notNot, h.notExists⟩⟩

namespace IsForcedWord

variable {word : String} (h : IsForcedWord word)
include h

theorem toNat_lt : ∀ c ∈ word.toList, c.toNat < 128 :=
  fun c hc => (Token.isWord_of_continuesName (h.ascii c hc)).1

/-- A forced word is written in upper case. -/
theorem chosen_eq : chosen? (some word) = some (word.toList.map Char.toUpper) := by
  have hkept : (some word).filter (· != "") = some word := by
    simp [h.nonempty]
  rw [chosen?, hkept, Option.map_some, Text.upper_of_ascii h.toNat_lt]

theorem isWord : ∀ c ∈ word.toList.map Char.toUpper, Text.isWord c = true := by
  intro c hc
  obtain ⟨d, hd, rfl⟩ := List.mem_map.mp hc
  exact Text.of_ascii (P := fun c => Text.isWord c = true → Text.isWord c.toUpper = true)
    (by decide) (h.toNat_lt d hd) (Token.isWord_of_continuesName (h.ascii d hd)).2

theorem ne_nil : word.toList.map Char.toUpper ≠ [] := by
  intro hnil
  exact h.nonempty (String.toList_eq_nil_iff.mp (List.map_eq_nil_iff.mp hnil))

theorem not_infix : ¬ "COMMENT".toList <:+: word.toList.map Char.toUpper := by
  rw [← Text.upper_of_ascii h.toNat_lt]
  exact h.noComment

/-- A type clause with a forced word is a clause. -/
theorem isClause_type : IsClause ("TYPE ".toList ++ word.toList.map Char.toUpper) := by
  have htype : IsClause "TYPE".toList :=
    isClause_of_spells (by decide) (by decide) (by decide) (by decide)
      (Text.spells_self (by decide))
  have hspace : ∀ c ∈ [' '], Text.isBlank c = true ∧ Text.isLineBreak c = false :=
    List.forall_mem_singleton.mpr (by decide)
  exact htype.append hspace (List.cons_ne_nil _ _) (Ddl.isPhrase_of_isWord h.ne_nil h.isWord)

/-- It is no keyword of a comment. -/
theorem not_infix_type :
    ¬ "COMMENT".toList <:+: "TYPE ".toList ++ word.toList.map Char.toUpper := by
  have hspace : ' ' ∉ "COMMENT".toList := by decide
  have htype : ¬ "COMMENT".toList <:+: "TYPE".toList := by decide
  have hsplit : "TYPE ".toList ++ word.toList.map Char.toUpper =
      "TYPE".toList ++ ' ' :: word.toList.map Char.toUpper := rfl
  rw [hsplit]
  intro hin
  rcases Text.infix_append_mark hspace hin with hin | hin
  · exact htype hin
  · exact h.not_infix hin

end IsForcedWord

/-- A mode is a clause by itself. -/
theorem IsForcedMode.isClause {word : String} (h : IsForcedMode word) :
    IsClause (word.toList.map Char.toUpper) := by
  have hupper := Text.upper_of_ascii h.toNat_lt
  have hno : ∀ {keyword : List Char}, Text.Capitals keyword →
      Text.upper word.toList ≠ keyword →
        ¬ Text.Spells keyword (word.toList.map Char.toUpper) := by
    intro keyword hcapitals hne hspells
    exact hne (hupper.trans (Text.upper_eq_of_spells hcapitals h.toNat_lt hspells))
  exact isClause_of_isWord h.ne_nil h.isWord (hno (by decide) h.notNot)
    (hno (by decide) h.notExists)

/-- Whether the words that options force may be forced. -/
structure ForcesWords (options : ScriptOptions) : Prop where
  type : ∀ word ∈ options.tableType, IsForcedWord word
  mode : ∀ word ∈ options.schemaMode, IsForcedMode word

instance (options : ScriptOptions) : Decidable (ForcesWords options) :=
  decidable_of_iff ((∀ word ∈ options.tableType, IsForcedWord word) ∧
      ∀ word ∈ options.schemaMode, IsForcedMode word)
    ⟨fun h => ⟨h.1, h.2⟩, fun h => ⟨h.type, h.mode⟩⟩

/-! ## Written tables -/

/-- Whether options change nothing but what they name in a definition: it is one line that defines a
table, the clauses that are replaced stand clear, and no modifier is in the place of another one. -/
structure IsKeptTable (options : ScriptOptions) (definition : List Char) : Prop
    extends IsTableLine definition where
  type : options.tableType.isSome → FindsClear tableTypeClause? definition
  mode : options.schemaMode.isSome →
    FindsClear schemaModeWord? (retype options.tableType definition)
  condition : options.overwrite = true → ¬ IsConditional "TABLE" definition

instance (options : ScriptOptions) (definition : List Char) :
    Decidable (IsKeptTable options definition) :=
  decidable_of_iff (IsTableLine definition ∧
      (options.tableType.isSome → FindsClear tableTypeClause? definition) ∧
      (options.schemaMode.isSome →
        FindsClear schemaModeWord? (retype options.tableType definition)) ∧
      (options.overwrite = true → ¬ IsConditional "TABLE" definition))
    ⟨fun h => ⟨h.1, h.2.1, h.2.2.1, h.2.2.2⟩,
      fun h => ⟨h.toIsTableLine, h.type, h.mode, h.condition⟩⟩

theorem IsTableLine.keeps_retype {definition : List Char} (h : IsTableLine definition)
    {choice : Option String} (hwords : ∀ word ∈ choice, IsForcedWord word)
    (hclear : choice.isSome → FindsClear tableTypeClause? definition) :
    Keeps definition (retype choice definition) := by
  cases choice with
  | none => exact Keeps.refl h
  | some word =>
      have hword := hwords word rfl
      unfold retype
      rw [hword.chosen_eq]
      exact h.keeps_replaceFirst isClauseReader_tableTypeClause (hclear rfl) hword.isClause_type
        hword.not_infix_type

theorem IsTableLine.keeps_changeMode {definition : List Char} (h : IsTableLine definition)
    {choice : Option String} (hwords : ∀ word ∈ choice, IsForcedMode word)
    (hclear : choice.isSome → FindsClear schemaModeWord? definition) :
    Keeps definition (changeMode choice definition) := by
  cases choice with
  | none => exact Keeps.refl h
  | some word =>
      have hword := hwords word rfl
      unfold changeMode
      rw [hword.chosen_eq]
      exact h.keeps_replaceFirst isClauseReader_schemaModeWord (hclear rfl) hword.isClause
        hword.not_infix

/-- The definition of a table that is written to a script. -/
def tableDefinition (name : String) : Value → List Char
  | .text definition => definition.toList
  | _ => plainDefinition name

theorem writeTable_eq (options : ScriptOptions) (name : String) (raw : Value) :
    writeTable options name raw = writeDefinition options.overwrite "TABLE"
      (changeMode options.schemaMode (retype options.tableType (tableDefinition name raw))) := by
  cases raw <;> rfl

/-- **A table is read alike with and without options** that keep its definition. -/
theorem readAlike_writeTable {options : ScriptOptions} (hwords : ForcesWords options)
    {name : String} {raw : Value} (h : IsKeptTable options (tableDefinition name raw)) :
    Ddl.ReadAlike (writeTable .unchanged name raw) (writeTable options name raw) := by
  have hkeeps := (h.keeps_retype hwords.type h.type).trans
    ((h.keeps_retype hwords.type h.type).line.keeps_changeMode hwords.mode h.mode)
  have hplain : writeTable .unchanged name raw = Ddl.terminated (tableDefinition name raw) :=
    writeTable_eq .unchanged name raw
  rw [hplain, writeTable_eq]
  exact (h.readAlike hkeeps.line hkeeps.name hkeeps.comment).trans
    (hkeeps.line.readAlike_writeDefinition fun hoverwrite => mt hkeeps.condition
      (h.condition hoverwrite))

end Info
end SurrealSchema
