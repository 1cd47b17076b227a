import SurrealSchema.Proofs.Text.Digits
import SurrealSchema.Proofs.Text.Spaced
import SurrealSchema.Proofs.Token
import SurrealSchema.Proofs.TypeExpr.Sentences

namespace SurrealSchema
namespace TypeExpr

/-!
# Type expressions as texts

The tokens of a type expression may be written with gaps between them or without.  A name or a
number that is not at the end of a text ends where a gap or a punctuation mark follows, and two of
them never stand side by side in a sentence; so a text is cut into the tokens it was written from,
and the parser takes it to the type expression.

Main statement: `parse_of_layout`.
-/

/-! ## Written tokens -/

/-- The characters that end a name or a number: gaps and punctuation marks. -/
def endsTerm (c : Char) : Bool :=
  Tokens.isGap c || c == '<' || c == '>' || c == '|' || c == ','

/-- Whether a text is read as one token at the front of any text.  A token that is no mark has to
be followed by a character that ends it. -/
structure IsSpelling (kind : TokenKind) (spelling : List Char) : Prop where
  first : ∃ c more, spelling = c :: more ∧ Tokens.isGap c = false
  mark : kind.isMark = true → spelling = kind.display.toList
  reads : ∀ rest, kind.isMark = true ∨ Text.Halts (fun c => !endsTerm c) rest →
    readToken (spelling ++ rest) = some (kind, spelling.length - 1)

/-- A text that starts with a punctuation mark ends the term in front of it. -/
theorem IsSpelling.halts {kind : TokenKind} {spelling : List Char} (h : IsSpelling kind spelling)
    (hmark : kind.isMark = true) (rest : List Char) :
    Text.Halts (fun c => !endsTerm c) (spelling ++ rest) := by
  rw [h.mark hmark]
  cases kind with
  | opening | closing | bar | comma => exact Text.halts_cons (by decide) _
  | name _ | text _ | number _ => contradiction

/-- A punctuation mark is a token by itself. -/
theorem isSpelling_mark {kind : TokenKind} (hmark : kind.isMark = true) :
    IsSpelling kind kind.display.toList where
  first := by
    cases kind with
    | opening | closing | bar | comma => exact ⟨_, _, rfl, by decide⟩
    | name _ | text _ | number _ => contradiction
  mark := fun _ => rfl
  reads := by
    intro rest _
    cases kind with
    | opening | closing | bar | comma => rfl
    | name _ | text _ | number _ => contradiction

/-- What ends a term is part of no name, of no word and of no number. -/
theorem not_endsTerm {c : Char} (h : endsTerm c = true) :
    Token.continuesName c = false ∧ Text.isWord c = false ∧ Text.isDigit c = false := by
  have hmem : c = ' ' ∨ c = '\t' ∨ c = '\r' ∨ c = '\n' ∨ c = '<' ∨ c = '>' ∨ c = '|' ∨ c = ',' := by
    simpa [endsTerm, Tokens.isGap, or_assoc] using h
  rcases hmem with rfl | rfl | rfl | rfl | rfl | rfl | rfl | rfl <;> decide

/-- A text that ends a term does not go on with what the term is made of. -/
theorem halts_of_endsTerm {p : Char → Bool} (hp : ∀ c, endsTerm c = true → p c = false)
    {rest : List Char} (h : Text.Halts (fun c => !endsTerm c) rest) : Text.Halts p rest := by
  intro c hc
  apply hp c
  simpa using h c hc

/-! ### Names -/

/-- No other token starts with a letter or an underscore. -/
theorem isDigit_of_startsName {c : Char} (h : Token.startsName c = true) :
    Text.isDigit c = false ∧ c ∉ ['-', '<', '>', '|', ',', '"', '\'', '`'] := by
  have hascii := (Token.isWord_of_continuesName (Token.continuesName_of_startsName h)).1
  revert h
  exact Text.of_ascii (P := fun c => Token.startsName c = true → Text.isDigit c = false ∧
    c ∉ ['-', '<', '>', '|', ',', '"', '\'', '`']) (by decide) hascii

/-- No number starts with a character that is neither a digit nor a minus sign. -/
theorem number?_eq_none {c : Char} (hdigit : Text.isDigit c = false) (hsign : c ≠ '-')
    (text : List Char) : number? (c :: text) = none := by
  unfold number?
  split
  next negative body hparts =>
    split at hparts
    · next heq => exact absurd (List.cons.inj heq).1 hsign
    · obtain ⟨-, rfl⟩ := Prod.mk.inj hparts
      simp [digits?, hdigit]

theorem number?_of_startsName {c : Char} (h : Token.startsName c = true) (text : List Char) :
    number? (c :: text) = none := by
  obtain ⟨hdigit, hmark⟩ := isDigit_of_startsName h
  apply number?_eq_none hdigit
  rintro rfl
  exact hmark (by decide)

/-- What a token at a letter or an underscore is. -/
theorem readToken_of_startsName {c : Char} (h : Token.startsName c = true) (text : List Char) :
    readToken (c :: text) = some (.name (String.ofList (c :: text.takeWhile Token.continuesName)),
      (text.takeWhile Token.continuesName).length) := by
  have hmark := (isDigit_of_startsName h).2
  unfold readToken
  rw [number?_of_startsName h]
  dsimp only
  split
  case h_6 d rest _ _ _ _ heq =>
    obtain ⟨rfl, rfl⟩ := List.cons.inj heq
    have hquote : ¬ (c = '"' ∨ c = '\'') := by
      rintro (rfl | rfl) <;> exact hmark (by decide)
    have hbacktick : c ≠ '`' := by
      rintro rfl
      exact hmark (by decide)
    rw [if_neg hquote, if_neg hbacktick, if_pos h]
  case h_1 heq => contradiction
  all_goals
    next heq =>
      rw [(List.cons.inj heq).1] at hmark
      exact absurd (by decide) hmark

/-- An identifier is read as a name. -/
theorem isSpelling_name {name : String} (h : Token.isIdentifier name.toList = true) :
    IsSpelling (.name name) name.toList := by
  cases hname : name.toList with
  | nil =>
      rw [hname] at h
      contradiction
  | cons c more =>
      rw [hname] at h
      obtain ⟨hc, hmore⟩ := Token.isIdentifier_cons.mp h
      have hword := (Token.isWord_of_continuesName (Token.continuesName_of_startsName hc)).2
      refine ⟨⟨c, more, rfl, Tokens.isGap_of_isWord hword⟩, fun hmark => ?_, fun rest hrest => ?_⟩
      · contradiction
      · have hhalts : Text.Halts Token.continuesName rest := by
          rcases hrest with hmark | hrest
          · contradiction
          · exact halts_of_endsTerm (fun d hd => (not_endsTerm hd).1) hrest
        rw [List.cons_append, readToken_of_startsName hc, Text.takeWhile_run hmore hhalts, ← hname,
          String.ofList_toList, hname]
        rfl

/-! ### Numbers -/

/-- Digits in front of a text that ends a term are a whole number. -/
theorem digits?_run {digits rest : List Char} (hne : digits ≠ [])
    (hdigits : ∀ c ∈ digits, Text.isDigit c = true)
    (hrest : Text.Halts (fun c => !endsTerm c) rest) :
    digits? (digits ++ rest) = some (digits, none) := by
  have hhalts := halts_of_endsTerm (fun d hd => (not_endsTerm hd).2.2) hrest
  have hpoint : ∀ more, rest ≠ '.' :: more := by
    rintro more rfl
    exact absurd (hrest '.' rfl) (by decide)
  unfold digits?
  rw [Text.takeWhile_run hdigits hhalts, Text.dropWhile_run hdigits hhalts]
  cases rest with
  | nil => simp [hne]
  | cons c rest =>
      have hc : c ≠ '.' := fun heq => hpoint rest (by rw [heq])
      simp [hne]

/-- Digits at the front of a text are a natural number. -/
theorem number?_of_digits {c : Char} {text digits : List Char} (hc : Text.isDigit c = true)
    (h : digits? (c :: text) = some (digits, none)) :
    number? (c :: text) = some (.integer (Text.natOfDigits digits), digits.length) := by
  have hsign : c ≠ '-' := by
    rintro rfl
    exact absurd hc (by decide)
  unfold number?
  split
  next negative body hparts =>
    split at hparts
    · next heq => exact absurd (List.cons.inj heq).1 hsign
    · obtain ⟨rfl, rfl⟩ := Prod.mk.inj hparts
      rw [h]
      simp

/-- Digits behind a minus sign are a number below zero. -/
theorem number?_of_negative {text digits : List Char} (h : digits? text = some (digits, none)) :
    number? ('-' :: text) = some (.integer (-Text.natOfDigits digits), 1 + digits.length) := by
  unfold number?
  show Option.map _ (digits? text) = _
  rw [h]
  rfl

theorem readToken_of_number {text : List Char} {value : Literal} {length : Nat}
    (h : number? text = some (value, length)) :
    readToken text = some (.number value, length - 1) := by
  unfold readToken
  rw [h]

theorem isGap_of_isDigit {c : Char} (h : Text.isDigit c = true) : Tokens.isGap c = false := by
  cases hgap : Tokens.isGap c with
  | false => rfl
  | true =>
      have hends : endsTerm c = true := by simp [endsTerm, hgap]
      rw [(not_endsTerm hends).2.2] at h
      contradiction

/-- An integer is read as a number. -/
theorem isSpelling_integer (value : Int) :
    IsSpelling (.number (.integer value)) (toString value).toList where
  first := by
    cases value with
    | ofNat count =>
        obtain ⟨c, more, htext, hc⟩ := Text.exists_digit_toString count
        exact ⟨c, more, htext, isGap_of_isDigit hc⟩
    | negSucc count =>
        exact ⟨'-', _, Text.toList_toString_negSucc count, by decide⟩
  mark := by
    intro hmark
    contradiction
  reads := by
    intro rest hrest
    have hends : Text.Halts (fun c => !endsTerm c) rest := by
      rcases hrest with hmark | hends
      · contradiction
      · exact hends
    have hdigits (count : Nat) : digits? ((toString count).toList ++ rest) =
        some ((toString count).toList, none) := by
      obtain ⟨c, more, htext, -⟩ := Text.exists_digit_toString count
      have hne : (toString count).toList ≠ [] := htext ▸ List.cons_ne_nil c more
      exact digits?_run hne (fun d hd => Text.isDigit_of_mem_toString hd) hends
    cases value with
    | ofNat count =>
        obtain ⟨c, more, htext, hc⟩ := Text.exists_digit_toString count
        have hread := hdigits count
        rw [htext, List.cons_append] at hread
        have hnumber := number?_of_digits hc hread
        rw [← List.cons_append, ← htext, Text.natOfDigits_toString] at hnumber
        exact readToken_of_number hnumber
    | negSucc count =>
        -- The digits behind the sign are those of the magnitude.
        have hnumber := number?_of_negative (hdigits (count + 1))
        rw [Text.natOfDigits_toString, Nat.add_comm 1] at hnumber
        rw [Text.toList_toString_negSucc]
        exact readToken_of_number hnumber

/-! ## Layouts -/

/-- A text of some tokens: each is written in one of its ways, with gaps between them. -/
inductive Layout (Written : TokenKind → List Char → Prop) : List TokenKind → List Char → Prop
  | last {kind : TokenKind} {spelling : List Char} (hwritten : Written kind spelling) :
      Layout Written [kind] spelling
  | cons (kind : TokenKind) {kinds : List TokenKind} {spelling gap text : List Char}
      (hwritten : Written kind spelling) (hgap : ∀ c ∈ gap, Tokens.isGap c = true)
      (hrest : Layout Written kinds text) :
      Layout Written (kind :: kinds) (spelling ++ (gap ++ text))

variable {Written : TokenKind → List Char → Prop} {kind : TokenKind} {kinds : List TokenKind}
  {spelling gap text : List Char}

/-- A spelling in front of a text is a token in front of its tokens. -/
theorem IsSpelling.cuts (h : IsSpelling kind spelling)
    (hends : kind.isMark = true ∨ Text.Halts (fun c => !endsTerm c) text)
    (hrest : Tokens.Cuts readToken text kinds) :
    Tokens.Cuts readToken (spelling ++ text) (kind :: kinds) := by
  obtain ⟨c, more, hspelling, hgap⟩ := h.first
  have hread := h.reads text hends
  rw [hspelling] at hread ⊢
  exact Tokens.Cuts.token hgap hread hrest

theorem Layout.exists_spelling (h : Layout Written kinds text) :
    ∃ kind others spelling rest, kinds = kind :: others ∧ text = spelling ++ rest ∧
      Written kind spelling := by
  cases h with
  | last hwritten => exact ⟨_, [], _, [], rfl, (List.append_nil _).symm, hwritten⟩
  | cons kind hwritten hgap hrest => exact ⟨_, _, _, _, rfl, rfl, hwritten⟩

/-- Behind a term the next token or the gap in front of it ends the term. -/
theorem Layout.boundary (h : Layout Written kinds text) (hgap : ∀ c ∈ gap, Tokens.isGap c = true)
    (hspelling : ∀ kind ∈ kinds, ∀ spelling, Written kind spelling → IsSpelling kind spelling)
    (hchain : (kind :: kinds).IsChain fun kind next => kind.isMark = true ∨ next.isMark = true) :
    kind.isMark = true ∨ Text.Halts (fun c => !endsTerm c) (gap ++ text) := by
  obtain ⟨next, others, first, rest, rfl, rfl, hnext⟩ := h.exists_spelling
  rcases (List.isChain_cons_cons.mp hchain).1 with hmark | hmark
  · exact Or.inl hmark
  · -- Where the gap is left out, the mark that follows ends the token.
    refine Or.inr ?_
    cases gap with
    | nil => exact (hspelling next List.mem_cons_self first hnext).halts hmark rest
    | cons g gap =>
        have hg : endsTerm g = true := by
          simp [endsTerm, hgap g List.mem_cons_self]
        exact Text.halts_cons (by rw [hg]; rfl) _

/-- A text of tokens is cut into them, unless two terms stand side by side. -/
theorem Layout.cuts (h : Layout Written kinds text)
    (hspelling : ∀ kind ∈ kinds, ∀ spelling, Written kind spelling → IsSpelling kind spelling)
    (hchain : kinds.IsChain fun kind next => kind.isMark = true ∨ next.isMark = true) :
    Tokens.Cuts readToken text kinds := by
  induction h with
  | @last kind spelling hwritten =>
      have hkind := hspelling kind List.mem_cons_self spelling hwritten
      have hcuts := hkind.cuts (Or.inr (Text.halts_nil _)) Tokens.cuts_nil
      rw [List.append_nil] at hcuts
      exact hcuts
  | @cons kind kinds spelling gap text hwritten hgap hrest ih =>
      have hkind := hspelling kind List.mem_cons_self spelling hwritten
      have hothers : ∀ other ∈ kinds, ∀ spelling, Written other spelling →
          IsSpelling other spelling :=
        fun other hmem => hspelling other (List.mem_cons_of_mem _ hmem)
      exact hkind.cuts (hrest.boundary hgap hothers hchain)
        (Tokens.Cuts.gaps hgap (ih hothers hchain.tail))

/-- Collapsing the blanks between tokens leaves the tokens as they are written. -/
theorem Layout.collapseBlanks (h : Layout Written kinds text)
    (hsolid : ∀ kind ∈ kinds, ∀ spelling, Written kind spelling → Text.Solid spelling) :
    Layout Written kinds (Text.collapseBlanks text) := by
  induction h with
  | @last kind spelling hwritten =>
      have hspelling := hsolid kind List.mem_cons_self spelling hwritten
      rw [Text.collapseBlanks_of_spaced (.word hspelling)]
      exact .last hwritten
  | @cons kind kinds spelling gap text hwritten hgap hrest ih =>
      have hspelling := hsolid kind List.mem_cons_self spelling hwritten
      have hothers : ∀ other ∈ kinds, ∀ spelling, Written other spelling → Text.Solid spelling :=
        fun other hmem => hsolid other (List.mem_cons_of_mem _ hmem)
      have hbehind := ih hothers
      -- What follows starts with a token, so it has a word and no blank in front of it.
      obtain ⟨next, others, first, rest, rfl, rfl, hnext⟩ := hrest.exists_spelling
      obtain ⟨c, more, rfl, hc⟩ := (hothers next List.mem_cons_self first hnext).exists_cons
      rw [List.cons_append] at hbehind ⊢
      cases gap with
      | nil =>
          rw [List.nil_append, Text.collapseBlanks_solid_append hspelling hc]
          exact .cons kind hwritten hgap hbehind
      | cons g gap =>
          have hblank : ∀ d ∈ g :: gap, Text.isBlank d = true :=
            fun d hd => Tokens.isBlank_of_isGap (hgap d hd)
          rw [List.cons_append, Text.collapseBlanks_append_blank hspelling
            (hblank g List.mem_cons_self) (fun d hd => hblank d (List.mem_cons_of_mem _ hd))
            (Text.words_ne_nil hc _)]
          exact .cons kind hwritten (List.forall_mem_singleton.mpr (by decide)) hbehind

/-- **A text of the tokens of a type expression is parsed to it.** -/
theorem parse_of_layout {type : TypeExpr} (h : isSentence type = true)
    (hlayout : Layout Written type.kinds text)
    (hspelling : ∀ kind ∈ type.kinds, ∀ spelling, Written kind spelling →
      IsSpelling kind spelling) : parse text = .ok type := by
  obtain ⟨final, hsteps, hfinal⟩ := foldlM_kinds h
  exact Grammar.parse_of_cuts (hlayout.cuts hspelling (isChain_of_foldlM hsteps)) hsteps hfinal

end TypeExpr
end SurrealSchema
