import SurrealSchema.Proofs.Text.Class
import SurrealSchema.Proofs.Text.Runs
import SurrealSchema.Text.Case

namespace SurrealSchema
namespace Text

/-!
# Facts about keywords in either case

`Spells keyword front` says that a text is the keyword when case is ignored.  A keyword in capitals
is only spelled by characters that are part of words, so where it is read as a word of its own it is
read from a whole run of such characters.  `Ends keyword text` says that it is the last word of a
text; this is what a search over words with spaces between them has to look at.
-/

/-- Whether a text is a keyword when case is ignored. -/
def Spells (keyword front : List Char) : Prop :=
  List.Forall₂ (fun letter c => matchesLetter letter c = true) keyword front

instance (keyword front : List Char) : Decidable (Spells keyword front) :=
  inferInstanceAs
    (Decidable (List.Forall₂ (fun letter c => matchesLetter letter c = true) keyword front))

/-- Whether all letters of a keyword are capitals. -/
def Capitals (keyword : List Char) : Prop :=
  ∀ letter ∈ keyword, isCapital letter = true

-- Only the letters of the keyword are looked at, not all characters there are.
instance (keyword : List Char) : Decidable (Capitals keyword) :=
  decidable_of_iff (keyword.all isCapital = true) List.all_eq_true

theorem spells_of_afterLiteralAnyCase {keyword text rest : List Char}
    (h : afterLiteralAnyCase? keyword text = some rest) :
    ∃ front, text = front ++ rest ∧ Spells keyword front := by
  induction keyword generalizing text with
  | nil =>
      rw [afterLiteralAnyCase?] at h
      exact ⟨[], Option.some.inj h, List.Forall₂.nil⟩
  | cons letter keyword ih =>
      cases text with
      | nil => contradiction
      | cons c text =>
          rw [afterLiteralAnyCase?] at h
          split at h
          · next hmatch =>
              obtain ⟨front, rfl, hspells⟩ := ih h
              exact ⟨c :: front, rfl, List.Forall₂.cons hmatch hspells⟩
          · contradiction

theorem afterLiteralAnyCase_of_spells {keyword front : List Char} (h : Spells keyword front)
    (rest : List Char) : afterLiteralAnyCase? keyword (front ++ rest) = some rest := by
  induction h with
  | nil => rfl
  | cons hmatch _ ih =>
      rw [List.cons_append, afterLiteralAnyCase?, if_pos hmatch]
      exact ih

/-- A keyword in capitals spells itself. -/
theorem spells_self {keyword : List Char} (h : Capitals keyword) : Spells keyword keyword := by
  induction keyword with
  | nil => exact List.Forall₂.nil
  | cons letter keyword ih =>
      have hletter : matchesLetter letter letter = true := by simp [matchesLetter]
      exact List.Forall₂.cons hletter (ih fun other hmem => h other (List.mem_cons_of_mem _ hmem))

/-- A keyword in capitals is spelled by characters that are part of words. -/
theorem isWord_of_spells {keyword front : List Char} (hcapitals : Capitals keyword)
    (h : Spells keyword front) : ∀ c ∈ front, isWord c = true := by
  induction h with
  | nil =>
      intro c hc
      contradiction
  | @cons letter c keyword front hmatch _ ih =>
      intro d hd
      have hrest : Capitals keyword :=
        fun other hmem => hcapitals other (List.mem_cons_of_mem _ hmem)
      rcases List.mem_cons.mp hd with rfl | hmem
      · exact isWord_of_matchesLetter (hcapitals letter List.mem_cons_self) hmatch
      · exact ih hrest d hmem

theorem ne_nil_of_spells {keyword front : List Char} (hne : keyword ≠ [])
    (h : Spells keyword front) : front ≠ [] := by
  cases h with
  | nil => contradiction
  | cons _ _ => exact List.cons_ne_nil _ _

/-! ## Case -/

/-- An ASCII text is put into lower case letter by letter. -/
theorem lower_of_ascii {text : List Char} (hascii : ∀ c ∈ text, c.toNat < 128) :
    lower text = text.map Char.toLower := by
  have hafter : ∀ afterCased, lowerAfter afterCased text = text.map Char.toLower := by
    induction text with
    | nil =>
        intro afterCased
        rfl
    | cons c text ih =>
        intro afterCased
        have hc : c.toNat < 128 := hascii c List.mem_cons_self
        have hsigma : (c == 'Σ') = false := by
          rw [beq_eq_false_iff_ne]
          rintro rfl
          exact absurd hc (by decide)
        have hrest := ih fun d hd => hascii d (List.mem_cons_of_mem _ hd)
        rw [lowerAfter]
        simp only [hsigma, Bool.false_eq_true, if_false, lowerChar, if_pos hc, hrest, List.map_cons,
          List.cons_append, List.nil_append]
  exact hafter false

/-- An ASCII text is put into upper case character by character. -/
theorem upper_of_ascii {text : List Char} (hascii : ∀ c ∈ text, c.toNat < 128) :
    upper text = text.map Char.toUpper := by
  induction text with
  | nil => rfl
  | cons c text ih =>
      obtain ⟨hc, hmore⟩ := List.forall_mem_cons.mp hascii
      rw [List.map_cons, ← ih hmore, upper, List.flatMap_cons, upperChar, if_pos hc]
      rfl

theorem toNat_lt_of_isCapital {letter : Char} (h : isCapital letter = true) :
    letter.toNat < 128 := by
  simp only [isCapital, Bool.and_eq_true, decide_eq_true_eq, Char.le_def, UInt32.le_iff_toNat_le]
    at h
  exact Nat.lt_of_le_of_lt h.2 (by decide)

/-- An ASCII character that stands for a letter is the letter up to case. -/
theorem toLower_of_matchesLetter {letter c : Char} (hcapital : isCapital letter = true)
    (hascii : c.toNat < 128) (h : matchesLetter letter c = true) : c.toLower = letter.toLower := by
  have htwice : letter.toLower.toLower = letter.toLower :=
    of_ascii (P := fun l => l.toLower.toLower = l.toLower) (by decide)
      (toNat_lt_of_isCapital hcapital)
  simp only [matchesLetter, Bool.or_eq_true, Bool.and_eq_true, beq_iff_eq] at h
  rcases h with (((rfl | rfl) | ⟨-, rfl | rfl⟩) | ⟨-, rfl⟩) | ⟨-, rfl⟩
  · rfl
  · exact htwice
  all_goals exact absurd hascii (by decide)

/-- No character stands for two letters. -/
theorem eq_of_matchesLetter {letter other c : Char} (hletter : isCapital letter = true)
    (hother : isCapital other = true) (h : matchesLetter letter c = true)
    (h' : matchesLetter other c = true) : letter = other := by
  by_cases hascii : c.toNat < 128
  · have hback : ∀ {letter : Char}, isCapital letter = true → letter.toLower.toUpper = letter :=
      fun hcapital => of_ascii (P := fun l => isCapital l = true → l.toLower.toUpper = l)
        (by decide) (toNat_lt_of_isCapital hcapital) hcapital
    rw [← hback hletter, ← hback hother, ← toLower_of_matchesLetter hletter hascii h,
      ← toLower_of_matchesLetter hother hascii h']
  · -- Above ASCII each of the characters that are left belongs to one letter.
    have hplain : ∀ {letter : Char}, isCapital letter = true → c ≠ letter ∧ c ≠ letter.toLower := by
      intro letter hcapital
      have hlower : letter.toLower.toNat < 128 :=
        of_ascii (P := fun l => l.toLower.toNat < 128) (by decide) (toNat_lt_of_isCapital hcapital)
      constructor
      · rintro rfl
        exact hascii (toNat_lt_of_isCapital hcapital)
      · rintro rfl
        exact hascii hlower
    simp only [matchesLetter, Bool.or_eq_true, Bool.and_eq_true, beq_iff_eq, hplain hletter,
      hplain hother, false_or] at h h'
    rcases h with (⟨rfl, rfl | rfl⟩ | ⟨rfl, rfl⟩) | ⟨rfl, rfl⟩ <;>
      rcases h' with (⟨rfl, h' | h'⟩ | ⟨rfl, h'⟩) | ⟨rfl, h'⟩ <;>
        first | rfl | exact absurd h' (by decide)

/-- A text spells one keyword at most. -/
theorem eq_of_spells {keyword other front : List Char} (hkeyword : Capitals keyword)
    (hother : Capitals other) (h : Spells keyword front) (h' : Spells other front) :
    keyword = other := by
  induction h generalizing other with
  | nil =>
      cases h'
      rfl
  | @cons letter c keyword front hmatch _ ih =>
      cases h' with
      | @cons letter' _ other _ hmatch' hrest =>
          obtain ⟨hletter, hmore⟩ := List.forall_mem_cons.mp hkeyword
          obtain ⟨hletter', hmore'⟩ := List.forall_mem_cons.mp hother
          rw [eq_of_matchesLetter hletter hletter' hmatch hmatch', ih hmore hmore' hrest]

/-- An ASCII text in upper case that spells a keyword is the keyword. -/
theorem upper_eq_of_spells {keyword text : List Char} (hcapitals : Capitals keyword)
    (hascii : ∀ c ∈ text, c.toNat < 128) (h : Spells keyword (text.map Char.toUpper)) :
    text.map Char.toUpper = keyword := by
  induction text generalizing keyword with
  | nil =>
      cases h
      rfl
  | cons c text ih =>
      cases h with
      | @cons letter _ keyword _ hmatch hrest =>
          obtain ⟨hletter, hmore⟩ := List.forall_mem_cons.mp hcapitals
          obtain ⟨hc, hascii'⟩ := List.forall_mem_cons.mp hascii
          have hupper : c.toUpper.toNat < 128 ∧ c.toUpper.toLower.toUpper = c.toUpper :=
            of_ascii (P := fun c => c.toUpper.toNat < 128 ∧ c.toUpper.toLower.toUpper = c.toUpper)
              (by decide) hc
          have hback : letter.toLower.toUpper = letter :=
            of_ascii (P := fun l => isCapital l = true → l.toLower.toUpper = l) (by decide)
              (toNat_lt_of_isCapital hletter) hletter
          have hfirst : c.toUpper = letter := by
            rw [← hupper.2, toLower_of_matchesLetter hletter hupper.1 hmatch, hback]
          rw [List.map_cons, hfirst, ih hmore hascii' hrest]

/-- A digit stands for no letter. -/
theorem isDigit_of_matchesLetter {letter c : Char} (hcapital : isCapital letter = true)
    (h : matchesLetter letter c = true) : c.isDigit = false := by
  cases hdigit : c.isDigit with
  | false => rfl
  | true =>
      have hascii : c.toNat < 128 := by
        simp only [Char.isDigit, Bool.and_eq_true, decide_eq_true_eq, UInt32.le_iff_toNat_le]
          at hdigit
        exact Nat.lt_of_le_of_lt hdigit.2 (by decide)
      have hlower := toLower_of_matchesLetter hcapital hascii h
      have hletter : letter.toLower.isDigit = false :=
        of_ascii (P := fun l => isCapital l = true → l.toLower.isDigit = false) (by decide)
          (toNat_lt_of_isCapital hcapital) hcapital
      have hsame : c.toLower.isDigit = true :=
        of_ascii (P := fun l => l.isDigit = true → l.toLower.isDigit = true) (by decide) hascii
          hdigit
      rw [hlower, hletter] at hsame
      contradiction

/-- Letters with no other forms than lower and upper case are spelled in ASCII. -/
theorem ascii_of_spells {keyword front : List Char} (hcapitals : Capitals keyword)
    (hother : 'I' ∉ keyword ∧ 'S' ∉ keyword ∧ 'K' ∉ keyword) (h : Spells keyword front) :
    ∀ c ∈ front, c.toNat < 128 := by
  induction h with
  | nil => exact List.forall_mem_nil _
  | @cons letter c keyword front hmatch _ ih =>
      obtain ⟨hcapital, hmore⟩ := List.forall_mem_cons.mp hcapitals
      simp only [List.mem_cons, not_or] at hother
      obtain ⟨⟨hi, hiMore⟩, ⟨hs, hsMore⟩, hk, hkMore⟩ := hother
      refine List.forall_mem_cons.mpr ⟨?_, ih hmore ⟨hiMore, hsMore, hkMore⟩⟩
      have hletter := toNat_lt_of_isCapital hcapital
      simp only [matchesLetter, Bool.or_eq_true, Bool.and_eq_true, beq_iff_eq, Ne.symm hi,
        Ne.symm hs, Ne.symm hk, false_and, or_false] at hmatch
      rcases hmatch with rfl | rfl
      · exact hletter
      · exact of_ascii (P := fun l => l.toLower.toNat < 128) (by decide) hletter

/-- An ASCII text that spells a keyword is the keyword in lower case. -/
theorem lower_eq_of_spells {keyword front : List Char} (hcapitals : Capitals keyword)
    (hascii : ∀ c ∈ front, c.toNat < 128) (h : Spells keyword front) :
    lower front = lower keyword := by
  rw [lower_of_ascii hascii, lower_of_ascii fun letter hmem =>
    toNat_lt_of_isCapital (hcapitals letter hmem)]
  induction h with
  | nil => rfl
  | @cons letter c keyword front hmatch _ ih =>
      have hrest := ih (fun other hmem => hcapitals other (List.mem_cons_of_mem _ hmem))
        fun d hd => hascii d (List.mem_cons_of_mem _ hd)
      have hfirst := toLower_of_matchesLetter (hcapitals letter List.mem_cons_self)
        (hascii c List.mem_cons_self) hmatch
      rw [List.map_cons, List.map_cons, hrest, hfirst]

/-! ## Words of their own -/

/-- A keyword that is read as a word of its own stands between two places at which no word goes
on. -/
theorem exists_of_keywordAnyCase {word : String} {before : Option Char} {text rest : List Char}
    (h : keywordAnyCase? word before text = some rest) :
    afterWord before = false ∧ Halts isWord rest ∧
      ∃ front, text = front ++ rest ∧ Spells word.toList front := by
  unfold keywordAnyCase? at h
  split at h
  · contradiction
  · next hbefore =>
      obtain ⟨hliteral, hboundary⟩ := Option.filter_eq_some_iff.mp h
      refine ⟨by simpa using hbefore, ?_, spells_of_afterLiteralAnyCase hliteral⟩
      intro c hc
      cases rest with
      | nil => contradiction
      | cons d rest =>
          rw [← Option.some.inj hc]
          simpa [startsWord] using hboundary

/-- It is spelled by the whole run of word characters at the front. -/
theorem spells_of_keywordAnyCase {word : String} {before : Option Char} {text rest : List Char}
    (hcapitals : Capitals word.toList) (h : keywordAnyCase? word before text = some rest) :
    Spells word.toList (text.takeWhile isWord) := by
  obtain ⟨-, hrest, front, rfl, hspells⟩ := exists_of_keywordAnyCase h
  rw [takeWhile_run (isWord_of_spells hcapitals hspells) hrest]
  exact hspells

/-- Whether a keyword is the last word of a text. -/
def Ends (keyword text : List Char) : Prop :=
  ∃ before front, text = before ++ front ∧ Spells keyword front ∧
    afterWord before.getLast? = false

/-- What is the last word of a text is spelled by its last run of word characters. -/
theorem spells_of_ends {keyword before run : List Char} (hcapitals : Capitals keyword)
    (hbefore : afterWord before.getLast? = false) (hrun : ∀ c ∈ run, isWord c = true)
    (h : Ends keyword (before ++ run)) : Spells keyword run := by
  obtain ⟨other, front, hsplit, hspells, hother⟩ := h
  have hfront := isWord_of_spells hcapitals hspells
  rcases List.append_eq_append_iff.mp hsplit with ⟨middle, rfl, rfl⟩ | ⟨middle, rfl, rfl⟩
  · -- The keyword starts inside the run, or where the run starts.
    cases hlast : middle.getLast? with
    | none =>
        rw [List.getLast?_eq_none_iff] at hlast
        rw [hlast]
        exact hspells
    | some c =>
        rw [List.getLast?_append, hlast] at hother
        have hc := hrun c (List.mem_append_left _ (List.mem_of_getLast? hlast))
        simp [afterWord, hc] at hother
  · -- The run starts inside the keyword, or where the keyword starts.
    cases hlast : middle.getLast? with
    | none =>
        rw [List.getLast?_eq_none_iff] at hlast
        rw [hlast] at hspells
        exact hspells
    | some c =>
        rw [List.getLast?_append, hlast] at hbefore
        have hc := hfront c (List.mem_append_left _ (List.mem_of_getLast? hlast))
        simp [afterWord, hc] at hbefore

/-- A text that ends in a mark does not end in a keyword. -/
theorem not_ends_of_getLast {keyword text : List Char} (hcapitals : Capitals keyword)
    (hne : keyword ≠ []) (h : afterWord text.getLast? = false) : ¬ Ends keyword text := by
  intro hends
  rw [← List.append_nil text] at hends
  have hrun : ∀ c ∈ ([] : List Char), isWord c = true := by
    intro c hc
    contradiction
  exact ne_nil_of_spells hne (spells_of_ends hcapitals h hrun hends) rfl

end Text
end SurrealSchema
