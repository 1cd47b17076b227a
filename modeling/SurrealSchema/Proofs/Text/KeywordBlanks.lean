import SurrealSchema.Proofs.Text.Append
import SurrealSchema.Proofs.Text.Keyword
import SurrealSchema.Proofs.Text.Words

namespace SurrealSchema
namespace Text

/-!
# Keywords with blanks behind them

The words at the front of a statement are keywords in either case with blanks behind them.  Such a
keyword is spelled by the whole run at the front of a text, whether runs are taken to be of word
characters or of characters that are no blanks, and it is the first word of the text.
-/

/-- A class of characters between the word characters and those that are no blanks. -/
def Delimits (p : Char → Bool) : Prop :=
  (∀ c, isWord c = true → p c = true) ∧ (∀ c, isBlank c = true → p c = false)

theorem delimits_isWord : Delimits isWord :=
  ⟨fun _ hc => hc, fun _ hc => isWord_of_isBlank hc⟩

theorem delimits_not_isBlank : Delimits fun c => !isBlank c := by
  constructor
  · intro c hc
    show (!isBlank c) = true
    rw [isBlank_of_isWord hc]
    rfl
  · intro c hc
    show (!isBlank c) = false
    rw [hc]
    rfl

/-- No word goes on into blanks. -/
theorem startsWord_of_afterBlanks {text rest : List Char} (h : afterBlanks? text = some rest) :
    startsWord text = false := by
  obtain ⟨b, blanks, rfl, hb, -⟩ := blanks_of_afterBlanks h
  exact isWord_of_isBlank hb

/-- A keyword is read alike in front of what goes on with no word. -/
theorem afterLiteralAnyCase_append_of_halts {keyword rest : List Char}
    (hcapitals : Capitals keyword) (hrest : Halts isWord rest) (text : List Char) :
    afterLiteralAnyCase? keyword (text ++ rest) =
      (afterLiteralAnyCase? keyword text).map (· ++ rest) := by
  induction keyword generalizing text with
  | nil => rfl
  | cons letter keyword ih =>
      have hmore := ih fun other hmem => hcapitals other (List.mem_cons_of_mem _ hmem)
      cases text with
      | nil =>
          cases rest with
          | nil => rfl
          | cons c rest =>
              -- A keyword that goes on behind the text would go on with a word.
              have hno : ¬ matchesLetter letter c = true := by
                intro hmatch
                have hc := isWord_of_matchesLetter (hcapitals letter List.mem_cons_self) hmatch
                rw [hrest c rfl] at hc
                contradiction
              rw [List.nil_append, afterLiteralAnyCase?, afterLiteralAnyCase?, if_neg hno]
              rfl
      | cons c text =>
          rw [List.cons_append, afterLiteralAnyCase?, afterLiteralAnyCase?]
          split
          · exact hmore text
          · rfl

/-- A keyword that is read with the blanks behind it is spelled at the front of the text. -/
theorem exists_of_keywordThenBlanks {word : String} {text rest : List Char}
    (h : keywordThenBlanks? word text = some rest) :
    ∃ front b blanks, text = front ++ (b :: blanks) ++ rest ∧ Spells word.toList front ∧
      (∀ c ∈ b :: blanks, isBlank c = true) := by
  obtain ⟨behind, hliteral, hblanks⟩ := Option.bind_eq_some_iff.mp h
  obtain ⟨front, rfl, hspells⟩ := spells_of_afterLiteralAnyCase hliteral
  obtain ⟨b, blanks, rfl, hb, hall⟩ := blanks_of_afterBlanks hblanks
  exact ⟨front, b, blanks, by rw [List.append_assoc, List.cons_append], hspells,
    List.forall_mem_cons.mpr ⟨hb, hall⟩⟩

section Spelled

variable {word : String} (hcapitals : Capitals word.toList)
include hcapitals

/-- **A keyword with blanks behind it is the run at the front of a text.** -/
theorem spells_of_keywordThenBlanks {p : Char → Bool} (hp : Delimits p)
    {run rest after : List Char} (hrun : ∀ c ∈ run, p c = true) (hrest : Halts p rest)
    (h : keywordThenBlanks? word (run ++ rest) = some after) :
    Spells word.toList run ∧ afterBlanks? rest = some after := by
  obtain ⟨behind, hliteral, hblanks⟩ := Option.bind_eq_some_iff.mp h
  obtain ⟨front, hsplit, hspells⟩ := spells_of_afterLiteralAnyCase hliteral
  have hfront : ∀ c ∈ front, p c = true := by
    intro c hc
    exact hp.1 c (isWord_of_spells hcapitals hspells c hc)
  have hbehind : Halts p behind := by
    obtain ⟨b, blanks, rfl, hb, -⟩ := blanks_of_afterBlanks hblanks
    exact halts_cons (hp.2 b hb) _
  obtain ⟨rfl, rfl⟩ := run_eq_run hrun hfront hrest hbehind hsplit
  exact ⟨hspells, hblanks⟩

theorem keywordThenBlanks_eq_none {p : Char → Bool} (hp : Delimits p) {run rest : List Char}
    (hrun : ∀ c ∈ run, p c = true) (hrest : Halts p rest) (h : ¬ Spells word.toList run) :
    keywordThenBlanks? word (run ++ rest) = none := by
  rw [Option.eq_none_iff_forall_ne_some]
  intro after hafter
  exact h (spells_of_keywordThenBlanks hcapitals hp hrun hrest hafter).1

/-- Where blanks follow a run of other characters, the keyword is read if it is the run. -/
theorem keywordThenBlanks_run {run gap text : List Char} {b : Char}
    (hrun : ∀ c ∈ run, isBlank c = false) (hb : isBlank b = true)
    (hgap : ∀ c ∈ gap, isBlank c = true) (htext : Halts isBlank text) :
    keywordThenBlanks? word (run ++ b :: (gap ++ text)) =
      if Spells word.toList run then some text else none := by
  split
  · next hspells =>
      unfold keywordThenBlanks?
      rw [afterLiteralAnyCase_of_spells hspells, Option.bind_some, afterBlanks?, if_pos hb,
        dropWhile_run hgap htext]
  · next hspells =>
      have hrun' : ∀ c ∈ run, (!isBlank c) = true := by
        intro c hc
        rw [hrun c hc]
        rfl
      have hhalts : Halts (fun c => !isBlank c) (b :: (gap ++ text)) :=
        halts_cons (by rw [hb]; rfl) _
      exact keywordThenBlanks_eq_none hcapitals delimits_not_isBlank hrun' hhalts hspells

/-- A keyword with blanks behind it is the first word of a text. -/
theorem words_of_keywordThenBlanks (hne : word.toList ≠ []) {text rest : List Char}
    (h : keywordThenBlanks? word text = some rest) :
    ∃ first, Spells word.toList first ∧ words text = first :: words rest := by
  obtain ⟨behind, hliteral, hblanks⟩ := Option.bind_eq_some_iff.mp h
  obtain ⟨front, rfl, hspells⟩ := spells_of_afterLiteralAnyCase hliteral
  obtain ⟨b, blanks, rfl, hb, hall⟩ := blanks_of_afterBlanks hblanks
  have hsolid : Solid front := by
    refine ⟨ne_nil_of_spells hne hspells, fun c hc => ?_⟩
    exact isBlank_of_isWord (isWord_of_spells hcapitals hspells c hc)
  refine ⟨front, hspells, ?_⟩
  rw [words_append_blank hb, words_of_solid hsolid, words_blanks_append hall]
  rfl

omit hcapitals in
/-- What spells a keyword is read together with the space behind it. -/
theorem keywordThenBlanks_of_spells {front rest : List Char} (h : Spells word.toList front)
    (hrest : Halts isBlank rest) : keywordThenBlanks? word (front ++ ' ' :: rest) = some rest := by
  unfold keywordThenBlanks?
  rw [afterLiteralAnyCase_of_spells h, Option.bind_some, afterBlanks_space hrest]

/-- A keyword in capitals with a space behind it is read. -/
theorem keywordThenBlanks_self {rest : List Char} (hrest : Halts isBlank rest) :
    keywordThenBlanks? word (word.toList ++ ' ' :: rest) = some rest :=
  keywordThenBlanks_of_spells (spells_self hcapitals) hrest

/-- A keyword is read alike in front of a mark that is neither a blank nor part of a word. -/
theorem keywordThenBlanks_append {mark : Char} (hword : isWord mark = false)
    (hblank : isBlank mark = false) (text : List Char) :
    keywordThenBlanks? word (text ++ [mark]) =
      (keywordThenBlanks? word text).map (· ++ [mark]) := by
  unfold keywordThenBlanks?
  rw [afterLiteralAnyCase_append_of_halts hcapitals (halts_cons hword [])]
  cases afterLiteralAnyCase? word.toList text with
  | none => rfl
  | some rest => exact afterBlanks_append (halts_cons hblank []) rest

end Spelled

end Text
end SurrealSchema
