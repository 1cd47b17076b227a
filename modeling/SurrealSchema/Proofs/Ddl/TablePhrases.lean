import SurrealSchema.Proofs.Ddl.Phrases

namespace SurrealSchema
namespace Ddl

/-!
# Definitions of tables around a phrase

What the definition of a table says does not change with a phrase in it, if the phrase stands behind
the name of the table and is no part of the comment.  The name is read before anything behind it is
looked at; only the words `NOT` and `EXISTS` behind a table named `IF` would turn the name into a
modifier.  The comment stays if its keyword stands behind the phrase, or if its payload is complete
before it.
-/

/-! ## Places of literals -/

/-- A literal that starts nowhere in the front of a text is found in the rest. -/
theorem cutAt_append_of_passed {literal front rest : List Char}
    (h : ∀ passed, passed ≠ [] → passed <:+ front → ¬ literal <+: passed ++ rest) :
    cutAt? literal (front ++ rest) =
      (cutAt? literal rest).map fun cut => (front ++ cut.1, cut.2) := by
  have hbefore : ∀ (before : Option Char) (text : List Char),
      Text.search (fun _ rest => Text.afterLiteral? literal rest) before text =
        cutAt? literal text := by
    intro before text
    cases text <;> rfl
  have hsearch : ∀ before, Text.search (fun _ rest => Text.afterLiteral? literal rest) before
      (front ++ rest) = (cutAt? literal rest).map fun cut => (front ++ cut.1, cut.2) := by
    induction front with
    | nil =>
        intro before
        rw [List.nil_append, hbefore]
        exact Option.map_id'.symm
    | cons c front ih =>
        intro before
        have hfirst := afterLiteral_eq_none (h (c :: front) (List.cons_ne_nil _ _)
          (List.suffix_refl _))
        have hrest := ih fun passed hne hsuffix =>
          h passed hne (hsuffix.trans (List.suffix_cons c front))
        rw [List.cons_append] at hfirst ⊢
        rw [Text.search, hfirst, hrest, Option.map_map]
        rfl
  exact hsearch none

/-- A literal that stands in a text is found there. -/
theorem not_infix_of_cutAt {literal text : List Char} (hne : literal ≠ [])
    (h : cutAt? literal text = none) : ¬ literal <:+: text := by
  have hsearch : ∀ before, Text.search (fun _ rest => Text.afterLiteral? literal rest) before text =
      none → ¬ literal <:+: text := by
    clear h
    induction text with
    | nil =>
        intro _ _ hin
        exact hne (List.infix_nil.mp hin)
    | cons c text ih =>
        intro before hnone hin
        rw [Text.search] at hnone
        split at hnone
        · contradiction
        · next hread =>
            rcases List.infix_cons_iff.mp hin with hstarts | hin
            · obtain ⟨rest, hrest⟩ := hstarts
              have hliteral : Text.afterLiteral? literal (c :: text) = some rest :=
                List.isPrefixOf?_eq_some_iff_append_eq.mpr hrest
              rw [hread] at hliteral
              contradiction
            · exact ih _ (Option.map_eq_none_iff.mp hnone) hin
  exact hsearch none h

/-- A literal of word characters that is found in a text is found there whatever stands behind the
text. -/
theorem cutAt_append_of_found {literal text before behind : List Char} (hne : literal ≠ [])
    (hliteral : ∀ c ∈ literal, Text.isWord c = true) (h : Text.Leaves Text.isWord text)
    (hcut : cutAt? literal text = some (before, behind)) (rest : List Char) :
    cutAt? literal (text ++ rest) = some (before, behind ++ rest) := by
  have hnil : Text.afterLiteral? literal [] = none := by
    obtain ⟨letter, letters, rfl⟩ := List.exists_cons_of_ne_nil hne
    rfl
  have hread : ∀ more, more ≠ [] → more <:+ text →
      Text.afterLiteral? literal (more ++ rest) =
        (Text.afterLiteral? literal more).map (· ++ rest) := fun more hmore hsuffix =>
    (h.of_suffix hsuffix).afterLiteral_append hliteral hmore rest
  have hfound := Text.search_append_of_found (fun _ => hnil) (fun _ => hread) hcut
  exact hfound

/-! ## Quotes -/

/-- Whether a text has no quotes. -/
def Unquoted (text : List Char) : Prop :=
  ∀ c ∈ text, c ≠ '"' ∧ c ≠ '\''

-- Only the characters of the text are looked at, not all characters there are.
instance (text : List Char) : Decidable (Unquoted text) :=
  decidable_of_iff ((text.all fun c => c != '"' && c != '\'') = true) (by simp [Unquoted])

theorem IsPhrase.unquoted {phrase : List Char} (h : IsPhrase phrase) : Unquoted phrase := by
  intro c hc
  constructor
  · rintro rfl
    exact h.plain.not_mem (by decide) (by decide) hc
  · rintro rfl
    exact h.plain.not_mem (by decide) (by decide) hc

/-- A character that is in a text is found there, whatever stands behind the text. -/
theorem exists_cutAt_of_mem {mark : Char} {text : List Char} (h : mark ∈ text) :
    ∃ before opened, ∀ rest, cutAt? [mark] (text ++ rest) = some (before, opened ++ rest) := by
  obtain ⟨before, opened, rfl, hbefore⟩ := List.eq_append_cons_of_mem h
  refine ⟨before, opened, fun rest => ?_⟩
  have hcut : cutAt? [mark] (before ++ ([mark] ++ (opened ++ rest))) =
      some (before, opened ++ rest) := by
    apply cutAt_of_first
    intro passed hne hsuffix hstarts
    obtain ⟨c, passed, rfl⟩ := List.exists_cons_of_ne_nil hne
    rw [List.cons_append, List.cons_prefix_cons] at hstarts
    exact hbefore (hsuffix.subset (by rw [hstarts.1]; exact List.mem_cons_self))
  simpa using hcut

/-- A character that is not in the front of a text is found in the rest. -/
theorem cutAt_append_of_not_mem {mark : Char} {front : List Char} (h : mark ∉ front)
    (rest : List Char) :
    cutAt? [mark] (front ++ rest) =
      (cutAt? [mark] rest).map fun cut => (front ++ cut.1, cut.2) := by
  apply cutAt_append_of_passed
  intro passed hne hsuffix hstarts
  obtain ⟨c, passed, rfl⟩ := List.exists_cons_of_ne_nil hne
  rw [List.cons_append, List.cons_prefix_cons] at hstarts
  exact h (hsuffix.subset (by rw [hstarts.1]; exact List.mem_cons_self))

/-- A payload that ends in a text ends there whatever stands behind the text. -/
theorem untilQuote_append_of_some {quote before : Char} {text content after : List Char}
    (h : untilQuote? quote before text = some (content, after)) (rest : List Char) :
    untilQuote? quote before (text ++ rest) = some (content, after ++ rest) := by
  induction text generalizing before content with
  | nil => contradiction
  | cons c text ih =>
      rw [List.cons_append, untilQuote?]
      rw [untilQuote?] at h
      split at h
      · next hclose =>
          obtain ⟨rfl, rfl⟩ := Prod.mk.inj (Option.some.inj h)
          rw [if_pos hclose]
      · next hopen =>
          obtain ⟨⟨others, behind⟩, hread, heq⟩ := Option.map_eq_some_iff.mp h
          obtain ⟨rfl, rfl⟩ := Prod.mk.inj heq
          rw [if_neg hopen, ih hread]
          rfl

/-- The payload that is read of what follows a quote, if there is one in a text: it is in the text
if it ends there. -/
theorem map_fst_untilQuote {quote : Char} {opened : List Char}
    (h : untilQuote? quote quote opened ≠ none) (rest rest' : List Char) :
    (untilQuote? quote quote (opened ++ rest)).map Prod.fst =
      (untilQuote? quote quote (opened ++ rest')).map Prod.fst := by
  obtain ⟨⟨content, after⟩, hread⟩ := Option.ne_none_iff_exists'.mp h
  rw [untilQuote_append_of_some hread, untilQuote_append_of_some hread]
  rfl

/-- A payload stands behind the first double quote or, if there is none, the first single one. -/
theorem payload_eq (text : List Char) :
    payload? text = ((cutAt? ['"'] text).map Prod.snd).elim
      (((cutAt? ['\''] text).map Prod.snd).bind (untilQuote? '\'' '\''))
      (untilQuote? '"' '"') := by
  unfold payload?
  cases cutAt? ['"'] text with
  | some cut => rfl
  | none => cases cutAt? ['\''] text <;> rfl

/-- What follows a character in a text does not change with the part in front of it. -/
theorem map_snd_cutAt_replace {mark : Char} {front phrase other : List Char} (hfront : mark ∉ front)
    (hphrase : mark ∉ phrase) (hother : mark ∉ other) (rear : List Char) :
    (cutAt? [mark] (front ++ (phrase ++ rear))).map Prod.snd =
      (cutAt? [mark] (front ++ (other ++ rear))).map Prod.snd := by
  rw [cutAt_append_of_not_mem hfront, cutAt_append_of_not_mem hfront,
    cutAt_append_of_not_mem hphrase, cutAt_append_of_not_mem hother]
  simp only [Option.map_map]
  rfl

/-- **A payload does not change with a text without quotes** behind it or in front of its quotes. -/
theorem map_fst_payload {opened phrase other : List Char}
    (hopened : payload? opened = none → Unquoted opened) (hphrase : Unquoted phrase)
    (hother : Unquoted other) (rear : List Char) :
    (payload? (opened ++ (phrase ++ rear))).map Prod.fst =
      (payload? (opened ++ (other ++ rear))).map Prod.fst := by
  have hdouble : '"' ∉ phrase ∧ '"' ∉ other :=
    ⟨fun hmem => (hphrase _ hmem).1 rfl, fun hmem => (hother _ hmem).1 rfl⟩
  have hsingle : '\'' ∉ phrase ∧ '\'' ∉ other :=
    ⟨fun hmem => (hphrase _ hmem).2 rfl, fun hmem => (hother _ hmem).2 rfl⟩
  by_cases hquoted : '"' ∈ opened
  · obtain ⟨before, inner, hcut⟩ := exists_cutAt_of_mem hquoted
    have hclosed : untilQuote? '"' '"' inner ≠ none := by
      intro hopen
      have hnone : payload? opened = none := by
        rw [← List.append_nil opened, payload_eq, hcut, List.append_nil]
        exact hopen
      exact (hopened hnone _ hquoted).1 rfl
    rw [payload_eq, payload_eq, hcut, hcut]
    exact map_fst_untilQuote hclosed _ _
  · rw [payload_eq, payload_eq, map_snd_cutAt_replace hquoted hdouble.1 hdouble.2]
    cases (cutAt? ['"'] (opened ++ (other ++ rear))).map Prod.snd with
    | some inner => rfl
    | none =>
        by_cases hopen : '\'' ∈ opened
        · obtain ⟨before, inner, hcut⟩ := exists_cutAt_of_mem hopen
          have hclosed : untilQuote? '\'' '\'' inner ≠ none := by
            intro hnone
            have hpayload : payload? opened = none := by
              have hcut' := hcut []
              rw [List.append_nil, List.append_nil] at hcut'
              rw [payload_eq, cutAt_eq_none fun hin => hquoted (hin.subset List.mem_cons_self), hcut']
              exact hnone
            exact (hopened hpayload _ hopen).2 rfl
          rw [hcut, hcut]
          exact map_fst_untilQuote hclosed _ _
        · rw [map_snd_cutAt_replace hopen hsingle.1 hsingle.2]

/-! ## Comments -/

/-- A front part is kept if the keyword of a comment does not start in it. -/
theorem withoutComment_append_of_passed {front rest : List Char}
    (h : ∀ passed, passed ≠ [] → passed <:+ front → ¬ "COMMENT".toList <+: passed ++ rest) :
    withoutComment (front ++ rest) = front ++ withoutComment rest := by
  unfold withoutComment
  rw [cutAt_append_of_passed h]
  cases cutAt? "COMMENT".toList rest with
  | none => rfl
  | some cut =>
      rw [Option.map_some]
      dsimp only
      cases payload? cut.2 with
      | none => rfl
      | some payload => exact List.append_assoc _ _ _

/-- The keyword of a comment starts with no space. -/
theorem not_comment_space (line : List Char) :
    ∀ passed, passed ≠ [] → passed <:+ [' '] → ¬ "COMMENT".toList <+: passed ++ line := by
  intro passed hne hsuffix hstarts
  obtain rfl : passed = [' '] := by
    rcases List.suffix_cons_iff.mp hsuffix with heq | hnil
    · exact heq
    · exact absurd (List.suffix_nil.mp hnil) hne
  exact absurd (List.cons_prefix_cons.mp hstarts).1 (by decide)

theorem cutAt_space (line : List Char) :
    cutAt? "COMMENT".toList (' ' :: line) =
      (cutAt? "COMMENT".toList line).map fun cut => (' ' :: cut.1, cut.2) :=
  cutAt_append_of_passed (not_comment_space line)

/-- A space in front of a line does not change its comment. -/
theorem comment_space (line : List Char) : comment? (' ' :: line) = comment? line := by
  have hcut := cutAt_space line
  unfold comment?
  rw [hcut]
  cases cutAt? "COMMENT".toList line with
  | none => rfl
  | some cut => rfl

theorem withoutComment_space (line : List Char) :
    withoutComment (' ' :: line) = ' ' :: withoutComment line :=
  withoutComment_append_of_passed (not_comment_space line)

/-- Whether a phrase behind a text is no part of the comment: the comment starts behind the phrase,
or its payload is complete, or no payload has started. -/
def OutsideComment (front phrase : List Char) : Prop :=
  match cutAt? "COMMENT".toList front with
  | none => ¬ "COMMENT".toList <:+: phrase
  | some (_, opened) => payload? opened = none → Unquoted opened

instance (front phrase : List Char) : Decidable (OutsideComment front phrase) :=
  match h : cutAt? "COMMENT".toList front with
  | none => decidable_of_iff (¬ "COMMENT".toList <:+: phrase) (by rw [OutsideComment, h])
  | some cut => decidable_of_iff (payload? cut.2 = none → Unquoted cut.2) (by rw [OutsideComment, h])

/-- A word that is in a text is in one of two parts between which no word goes on. -/
theorem infix_append_of_leaves {word front rest : List Char}
    (hword : ∀ c ∈ word, Text.isWord c = true) (h : Text.Leaves Text.isWord front)
    (hin : word <:+: front ++ rest) : word <:+: front ∨ word <:+: rest := by
  rcases List.eq_nil_or_concat front with rfl | ⟨init, mark, rfl⟩
  · exact Or.inr hin
  · rw [List.concat_eq_append] at h hin ⊢
    have hmark : mark ∉ word := by
      intro hmem
      have hlast := h mark List.getLast?_concat
      rw [hword mark hmem] at hlast
      contradiction
    rw [List.append_assoc, List.singleton_append] at hin
    rcases Text.infix_append_mark hmark hin with hin | hin
    · exact Or.inl (hin.trans (List.prefix_append _ _).isInfix)
    · exact Or.inr hin

/-- A word at the front of a text does not go on into a rest that starts with no word. -/
theorem prefix_of_halts {word text rest : List Char} (hword : ∀ c ∈ word, Text.isWord c = true)
    (hrest : Text.Halts Text.isWord rest) (h : word <+: text ++ rest) : word <+: text := by
  obtain ⟨behind, hbehind⟩ := h
  rcases List.append_eq_append_iff.mp hbehind with ⟨more, hmore, -⟩ | ⟨more, hmore, hrest'⟩
  · exact ⟨more, hmore.symm⟩
  · cases more with
    | nil => exact ⟨[], by rw [hmore, List.append_nil, List.append_nil]⟩
    | cons c more =>
        have hc := hword c (by rw [hmore]; exact List.mem_append_right _ List.mem_cons_self)
        rw [hrest c (by rw [hrest']; rfl)] at hc
        contradiction

/-- **The comment stays when a phrase outside of it is replaced.** -/
theorem comment_replace {front rear phrase other : List Char}
    (hfront : Text.Leaves Text.isWord front) (hrear : Text.Halts Text.isWord rear)
    (hphrase : IsPhrase phrase) (hother : IsPhrase other) (houtside : OutsideComment front phrase)
    (hno : ¬ "COMMENT".toList <:+: other) :
    comment? (front ++ (phrase ++ rear)) = comment? (front ++ (other ++ rear)) := by
  have hword : ∀ c ∈ "COMMENT".toList, Text.isWord c = true := List.all_eq_true.mp (by decide)
  unfold OutsideComment at houtside
  cases hcut : cutAt? "COMMENT".toList front with
  | some cut =>
      obtain ⟨before, opened⟩ := cut
      rw [hcut] at houtside
      have hfound : ∀ rest, cutAt? "COMMENT".toList (front ++ rest) =
          some (before, opened ++ rest) :=
        cutAt_append_of_found (by decide) hword hfront hcut
      unfold comment?
      rw [hfound, hfound]
      dsimp only
      rw [map_fst_payload houtside hphrase.unquoted hother.unquoted]
  | none =>
      rw [hcut] at houtside
      have hnone := not_infix_of_cutAt (by decide) hcut
      -- The keyword starts neither in front of the phrase nor in it.
      have hpassed : ∀ {phrase : List Char}, ¬ "COMMENT".toList <:+: phrase →
          cutAt? "COMMENT".toList (front ++ (phrase ++ rear)) =
            (cutAt? "COMMENT".toList rear).map fun cut => (front ++ phrase ++ cut.1, cut.2) := by
        intro phrase hphrase
        rw [← List.append_assoc]
        apply cutAt_append_of_passed
        intro passed hne hsuffix hstarts
        have hin := (prefix_of_halts hword hrear hstarts).isInfix.trans hsuffix.isInfix
        rcases infix_append_of_leaves hword hfront hin with hin | hin
        · exact hnone hin
        · exact hphrase hin
      unfold comment?
      rw [hpassed houtside, hpassed hno]
      cases cutAt? "COMMENT".toList rear <;> rfl

/-! ## Names -/

/-- The name of the table that a text defines and what follows the name. -/
def tableHead? (text : List Char) : Option (List Char × List Char) :=
  (afterDefine? "TABLE" text).bind (behindOptional afterModifier? tableName?)

theorem definedTable_of_tableHead {text name rest : List Char}
    (h : tableHead? text = some (name, rest)) : definedTable? text = some (String.ofList name) := by
  rw [definedTable_eq]
  show ((tableHead? text).map Prod.fst).map String.ofList = _
  rw [h]
  rfl

/-- Whether a text starts with a word, but with none that a modifier goes on with. -/
structure StartsPhrase (text : List Char) : Prop where
  word : Text.startsWord text = true
  notNot : Text.keywordThenBlanks? "NOT" text = none
  notExists : Text.keywordThenBlanks? "EXISTS" text = none

theorem StartsPhrase.halts {text : List Char} (h : StartsPhrase text) :
    Text.Halts Text.isBlank text :=
  halts_of_startsWord h.word

/-- A name takes up at least one character behind its backtick. -/
theorem length_lt_of_tableName {text name rest : List Char}
    (h : tableName? text = some (name, rest)) :
    rest.length < ((Text.afterLiteral? ['`'] text).getD text).length := by
  unfold tableName? at h
  dsimp only at h
  split at h
  · contradiction
  · next hname =>
      obtain ⟨-, hrest⟩ := Prod.mk.inj (Option.some.inj h)
      generalize (Text.afterLiteral? ['`'] text).getD text = bare at hname hrest ⊢
      have hle : rest.length ≤ (bare.dropWhile Text.isWord).length := by
        rw [← hrest]
        exact (afterBacktick_suffix _).length_le
      have hlength := congrArg List.length (List.takeWhile_append_dropWhile (p := Text.isWord)
        (l := bare))
      have hpositive : 0 < (bare.takeWhile Text.isWord).length :=
        List.length_pos_iff.mpr fun hnil => hname (by rw [hnil]; rfl)
      rw [List.length_append] at hlength
      omega

/-- A word is the name of a table, also behind a backtick. -/
theorem isSome_tableName {rest : List Char} (h : Text.startsWord rest = true) :
    (tableName? rest).isSome ∧ (tableName? ('`' :: rest)).isSome := by
  cases rest with
  | nil => contradiction
  | cons c rest =>
      have hc : Text.isWord c = true := h
      have hne : '`' ≠ c := by
        rintro rfl
        exact absurd hc (by decide)
      constructor
      · simp [tableName?, Text.afterLiteral?, List.isPrefixOf?, hne, hc]
      · simp [tableName?, Text.afterLiteral?, List.isPrefixOf?, hc]

section Names

variable {text rest rest' : List Char} (h : Text.Leaves Text.isWord text)
  (hrest : Text.startsWord rest = true)
include h

/-- A name in front of a rest is there whatever the rest is. -/
theorem tableName_replace {name between : List Char}
    (hread : tableName? (text ++ rest) = some (name, between ++ rest)) :
    tableName? (text ++ rest') = some (name, between ++ rest') := by
  have hlength := length_lt_of_tableName hread
  have hne : text ≠ [] := by
    rintro rfl
    have hle := (afterBacktick_suffix rest).length_le
    rw [List.nil_append, List.length_append] at hlength
    omega
  have htick : text ≠ ['`'] := by
    rintro rfl
    have hskip : (Text.afterLiteral? ['`'] (['`'] ++ rest)).getD (['`'] ++ rest) = rest := by
      simp [Text.afterLiteral?, List.isPrefixOf?]
    rw [hskip, List.length_append] at hlength
    omega
  rw [tableName_append_of_leaves h hne htick] at hread ⊢
  obtain ⟨⟨name', behind⟩, hname, heq⟩ := Option.map_eq_some_iff.mp hread
  obtain ⟨rfl, hbehind⟩ := Prod.mk.inj heq
  rw [hname, ← List.append_cancel_right hbehind]
  rfl

include hrest in
/-- Where a text in front of a word has no name, there is none whatever follows it. -/
theorem tableName_eq_none_replace (hread : tableName? (text ++ rest) = none) :
    tableName? (text ++ rest') = none := by
  obtain ⟨hbare, hticked⟩ := isSome_tableName hrest
  have hne : text ≠ [] := by
    rintro rfl
    rw [List.nil_append] at hread
    rw [hread] at hbare
    contradiction
  have htick : text ≠ ['`'] := by
    rintro rfl
    rw [List.singleton_append] at hread
    rw [hread] at hticked
    contradiction
  rw [tableName_append_of_leaves h hne htick] at hread ⊢
  rw [Option.map_eq_none_iff.mp hread]
  rfl

end Names

section Heads

variable {front rest rest' : List Char} (hfront : Text.Leaves Text.isWord front)
  (hrest : StartsPhrase rest)
include hfront hrest

/-- Where a name is read in front of a phrase, the first two words of the definition are, too. -/
theorem exists_afterTable {name between : List Char}
    (h : tableHead? (front ++ rest) = some (name, between ++ rest)) :
    ∃ text, text ≠ [] ∧ Text.Leaves Text.isWord text ∧
      ∀ rest', Text.Halts Text.isBlank rest' →
        afterDefine? "TABLE" (front ++ rest') = some (text ++ rest') := by
  obtain ⟨whole, hafter, hread⟩ := Option.bind_eq_some_iff.mp h
  obtain ⟨middle, hdefine, htable⟩ := Option.bind_eq_some_iff.mp hafter
  -- The name makes what is read longer than the rest.
  have hlong : rest.length < whole.length := by
    have hskip : ∀ {text rest : List Char}, tableName? text = some (name, rest) →
        rest.length < text.length := by
      intro text rest hname
      exact Nat.lt_of_lt_of_le (length_lt_of_tableName hname) (afterBacktick_suffix text).length_le
    have hbetween : (between ++ rest).length < whole.length := by
      rcases Option.or_eq_some_iff.mp hread with hmodified | ⟨-, hbare⟩
      · obtain ⟨behind, hmodifier, hname⟩ := Option.bind_eq_some_iff.mp hmodified
        exact Nat.lt_of_lt_of_le (hskip hname) (behind_of_afterModifier hmodifier).suffix.length_le
      · exact hskip hbare
    rw [List.length_append] at hbetween
    omega
  have hmiddle := (isHeadWord_table.behind htable).suffix.length_le
  have hwhole := (isHeadWord_define.behind hdefine).suffix.length_le
  have hfrontNe : front ≠ [] := by
    rintro rfl
    rw [List.nil_append] at hwhole
    omega
  have hdefine' : ∀ rest', Text.Halts Text.isBlank rest' →
      Text.keywordThenBlanks? "DEFINE" (front ++ rest') =
        (Text.keywordThenBlanks? "DEFINE" front).map (· ++ rest') := fun rest' hhalts =>
    hfront.keywordThenBlanks_append (by decide) hhalts fun hnil => absurd hnil hfrontNe
  rw [hdefine' rest hrest.halts] at hdefine
  obtain ⟨behind, hbehind, rfl⟩ := Option.map_eq_some_iff.mp hdefine
  have hbehindNe : behind ≠ [] := by
    rintro rfl
    rw [List.nil_append] at hmiddle
    omega
  have hleaves := hfront.of_suffix (isHeadWord_define.behind hbehind).suffix
  have htable' : ∀ rest', Text.Halts Text.isBlank rest' →
      Text.keywordThenBlanks? "TABLE" (behind ++ rest') =
        (Text.keywordThenBlanks? "TABLE" behind).map (· ++ rest') := fun rest' hhalts =>
    hleaves.keywordThenBlanks_append (by decide) hhalts fun hnil => absurd hnil hbehindNe
  rw [htable' rest hrest.halts] at htable
  obtain ⟨text, htext, rfl⟩ := Option.map_eq_some_iff.mp htable
  refine ⟨text, ?_, hleaves.of_suffix (isHeadWord_table.behind htext).suffix,
    fun rest' hhalts => ?_⟩
  · rintro rfl
    exact absurd hlong (by simp)
  · rw [afterDefine?, hdefine' rest' hhalts, hbehind, Option.map_some, Option.bind_some,
      htable' rest' hhalts, htext]
    rfl

/-- **The name of a table stays when what follows it is replaced.** -/
theorem tableHead_replace (hrest' : StartsPhrase rest') {name between : List Char}
    (h : tableHead? (front ++ rest) = some (name, between ++ rest)) :
    tableHead? (front ++ rest') = some (name, between ++ rest') := by
  obtain ⟨text, hne, hleaves, hafter⟩ := exists_afterTable hfront hrest h
  have hmodifier : ∀ {rest : List Char}, StartsPhrase rest →
      afterModifier? (text ++ rest) = (afterModifier? text).map (· ++ rest) := fun hrest =>
    afterModifier_append hleaves hrest.halts (fun hnil => absurd hnil hne) hrest.notNot
      hrest.notExists fun hnil => absurd hnil hne
  unfold tableHead? at h ⊢
  rw [hafter rest hrest.halts, Option.bind_some] at h
  rw [hafter rest' hrest'.halts, Option.bind_some]
  unfold behindOptional at h ⊢
  rw [hmodifier hrest] at h
  rw [hmodifier hrest']
  cases hbehind : afterModifier? text with
  | none =>
      rw [hbehind] at h
      exact tableName_replace hleaves h
  | some behind =>
      rw [hbehind, Option.map_some, Option.bind_some] at h
      rw [Option.map_some, Option.bind_some]
      have hbehindLeaves := hleaves.of_suffix (behind_of_afterModifier hbehind).suffix
      rcases Option.or_eq_some_iff.mp h with hname | ⟨hnone, hname⟩
      · rw [tableName_replace hbehindLeaves hname, Option.some_or]
      · rw [tableName_eq_none_replace hbehindLeaves hrest.word hnone, Option.none_or]
        exact tableName_replace hleaves hname

/-- So does whether there is a condition in front of the name. -/
theorem condition_replace (hrest' : StartsPhrase rest') {name between : List Char}
    (h : tableHead? (front ++ rest) = some (name, between ++ rest))
    (hnone : (afterDefine? "TABLE" (front ++ rest)).bind afterCondition? = none) :
    (afterDefine? "TABLE" (front ++ rest')).bind afterCondition? = none := by
  obtain ⟨text, hne, hleaves, hafter⟩ := exists_afterTable hfront hrest h
  have hcondition : ∀ {rest : List Char}, StartsPhrase rest →
      (afterDefine? "TABLE" (front ++ rest)).bind afterCondition? =
        (afterCondition? text).map (· ++ rest) := by
    intro rest hrest
    rw [hafter rest hrest.halts, Option.bind_some]
    exact afterCondition_append hleaves hrest.halts (fun hnil => absurd hnil hne) hrest.notNot
      hrest.notExists
  rw [hcondition hrest, Option.map_eq_none_iff] at hnone
  rw [hcondition hrest', hnone]
  rfl

end Heads

end Ddl
end SurrealSchema
