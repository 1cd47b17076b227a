import SurrealSchema.Proofs.Lexemes
import SurrealSchema.Proofs.TypeExpr.Layout

namespace SurrealSchema
namespace TypeExpr

/-!
# Lexemes of type expressions

What each kind of token of a type expression looks like, told apart from the way it is read: numbers
with digits of any script, texts in either quote, names bare or between backticks, and punctuation
marks.  The reader of tokens reads these and nothing else, and of several the longest.

Main statement: `isReader_readToken`.
-/

/-! ## Numbers -/

/-- Whether a text is a run of digits. -/
def IsNumeral (digits : List Char) : Prop :=
  digits ≠ [] ∧ ∀ c ∈ digits, Text.isDigit c = true

/-- The sign in front of a number. -/
def sign (negative : Bool) : List Char :=
  if negative then ['-'] else []

/-- A number as it is written: its digits and, if it has any, those behind a point. -/
def numberText (negative : Bool) (whole : List Char) : Option (List Char) → List Char
  | none => sign negative ++ whole
  | some part => sign negative ++ (whole ++ '.' :: part)

/-- The value of a number: an integer, or with digits behind a point the binary fraction closest to
the decimal one. -/
def numberValue (negative : Bool) (whole : List Char) : Option (List Char) → Literal
  | none =>
    let size : Int := Text.natOfDigits whole
    .integer (if negative then -size else size)
  | some part =>
    .decimal (Binary64.ofDecimal negative (Text.natOfDigits (whole ++ part)) (-part.length))

/-- The digits behind a point at the front of a text, if there are any. -/
def fraction? : List Char → Option (List Char)
  | '.' :: text =>
    let part := text.takeWhile Text.isDigit
    if part.isEmpty then none else some part
  | _ => none

theorem digits?_eq (text : List Char) :
    digits? text =
      if (text.takeWhile Text.isDigit).isEmpty then none
      else some (text.takeWhile Text.isDigit, fraction? (text.dropWhile Text.isDigit)) := by
  unfold digits? fraction?
  dsimp only
  congr 3
  generalize text.dropWhile Text.isDigit = rest
  rcases rest with - | ⟨c, rest⟩
  · rfl
  · by_cases hc : c = '.'
    · subst hc
      rfl
    · simp [hc]

/-- Digits in front of a text are read with the digits that go on behind them. -/
theorem digits?_append {digits : List Char} (h : IsNumeral digits) (rest : List Char) :
    digits? (digits ++ rest) =
      some (digits ++ rest.takeWhile Text.isDigit, fraction? (rest.dropWhile Text.isDigit)) := by
  have htake : (digits ++ rest).takeWhile Text.isDigit = digits ++ rest.takeWhile Text.isDigit :=
    List.takeWhile_append_of_pos h.2
  have hdrop : (digits ++ rest).dropWhile Text.isDigit = rest.dropWhile Text.isDigit :=
    List.dropWhile_append_of_pos h.2
  rw [digits?_eq, htake, hdrop, if_neg (by simp [h.1])]

theorem isNumeral_takeWhile {text : List Char} (h : (text.takeWhile Text.isDigit).isEmpty = false) :
    IsNumeral (text.takeWhile Text.isDigit) :=
  ⟨List.isEmpty_eq_false_iff.mp h, fun _ hc => List.mem_takeWhile_imp hc⟩

theorem exists_of_fraction {text part : List Char} (h : fraction? text = some part) :
    IsNumeral part ∧ ∃ rest, text = '.' :: (part ++ rest) := by
  unfold fraction? at h
  split at h
  · next text =>
      dsimp only at h
      split at h
      · contradiction
      · next hne =>
          rw [← Option.some.inj h]
          exact ⟨isNumeral_takeWhile (by simpa using hne), text.dropWhile Text.isDigit,
            by rw [List.takeWhile_append_dropWhile]⟩
  · contradiction

theorem fraction?_append {part : List Char} (h : IsNumeral part) (rest : List Char) :
    fraction? ('.' :: (part ++ rest)) = some (part ++ rest.takeWhile Text.isDigit) := by
  have htake : (part ++ rest).takeWhile Text.isDigit = part ++ rest.takeWhile Text.isDigit :=
    List.takeWhile_append_of_pos h.2
  rw [fraction?, htake, if_neg (by simp [h.1])]

theorem isDigit_point : Text.isDigit '.' = false := by
  decide

/-- The digits of a number and what is left behind them. -/
theorem exists_of_digits {text whole : List Char} {part : Option (List Char)}
    (h : digits? text = some (whole, part)) :
    IsNumeral whole ∧ (∀ digits ∈ part, IsNumeral digits) ∧
      ∃ rest, ∀ negative, sign negative ++ text = numberText negative whole part ++ rest := by
  rw [digits?_eq] at h
  split at h
  · contradiction
  · next hne =>
      obtain ⟨rfl, rfl⟩ := Prod.mk.inj (Option.some.inj h)
      have hsplit : text.takeWhile Text.isDigit ++ text.dropWhile Text.isDigit = text :=
        List.takeWhile_append_dropWhile
      refine ⟨isNumeral_takeWhile (by simpa using hne), ?_, ?_⟩
      · intro digits hdigits
        exact (exists_of_fraction hdigits).1
      · cases hpart : fraction? (text.dropWhile Text.isDigit) with
        | none =>
            refine ⟨text.dropWhile Text.isDigit, fun negative => ?_⟩
            rw [numberText, List.append_assoc, hsplit]
        | some part =>
            obtain ⟨-, rest, hrest⟩ := exists_of_fraction hpart
            refine ⟨rest, fun negative => ?_⟩
            conv_lhs => rw [← hsplit, hrest]
            simp [numberText]

/-- Behind its sign a number is read by its digits. -/
theorem number?_sign {negative : Bool} {body : List Char}
    (hbody : negative = false → body.head? ≠ some '-') :
    number? (sign negative ++ body) = (digits? body).map fun (whole, part) =>
      (numberValue negative whole part, (numberText negative whole part).length) := by
  unfold number?
  split
  next negative' body' heq =>
    have hparts : negative = negative' ∧ body = body' := by
      split at heq
      · next rest hminus =>
          obtain ⟨rfl, rfl⟩ := Prod.mk.inj heq
          cases negative with
          | true => exact ⟨rfl, (List.cons.inj hminus).2⟩
          | false => exact absurd (congrArg List.head? hminus) (hbody rfl)
      · next hminus =>
          obtain ⟨rfl, rfl⟩ := Prod.mk.inj heq
          cases negative with
          | true => exact absurd rfl (hminus body)
          | false => exact ⟨rfl, rfl⟩
    obtain ⟨rfl, rfl⟩ := hparts
    rcases digits? body with - | ⟨whole, - | part⟩
    · rfl
    · cases negative <;> simp [numberValue, numberText, sign]
      omega
    · cases negative <;> simp [numberValue, numberText, sign] <;> omega

theorem exists_sign (text : List Char) :
    ∃ negative body, text = sign negative ++ body ∧
      (negative = false → body.head? ≠ some '-') := by
  by_cases h : text.head? = some '-'
  · obtain ⟨body, rfl⟩ := List.head?_eq_some_iff.mp h
    exact ⟨true, body, rfl, fun hfalse => by contradiction⟩
  · exact ⟨false, text, rfl, fun _ => h⟩

/-- What is read as a number is one. -/
theorem exists_of_number {text : List Char} {value : Literal} {length : Nat}
    (h : number? text = some (value, length)) :
    ∃ negative whole part rest, text = numberText negative whole part ++ rest ∧
      value = numberValue negative whole part ∧ length = (numberText negative whole part).length ∧
      IsNumeral whole ∧ ∀ digits ∈ part, IsNumeral digits := by
  obtain ⟨negative, body, rfl, hbody⟩ := exists_sign text
  rw [number?_sign hbody] at h
  obtain ⟨⟨whole, part⟩, hdigits, hfound⟩ := Option.map_eq_some_iff.mp h
  obtain ⟨rfl, rfl⟩ := Prod.mk.inj hfound
  obtain ⟨hwhole, hpart, rest, hrest⟩ := exists_of_digits hdigits
  exact ⟨negative, whole, part, rest, hrest negative, rfl, rfl, hwhole, hpart⟩

/-- A number at the front of a text is read, with the digits that go on behind it. -/
theorem exists_number_append (negative : Bool) {whole : List Char} {part : Option (List Char)}
    (hwhole : IsNumeral whole) (hpart : ∀ digits ∈ part, IsNumeral digits) (rest : List Char) :
    ∃ value length, number? (numberText negative whole part ++ rest) = some (value, length) ∧
      (numberText negative whole part).length ≤ length ∧
      ((numberText negative whole part).length = length → value = numberValue negative whole part) := by
  have hfirst : ∀ text : List Char, negative = false → (whole ++ text).head? ≠ some '-' := by
    rintro text - hhead
    rw [List.head?_append_of_ne_nil _ hwhole.1] at hhead
    have hdigit := hwhole.2 '-' (List.mem_of_mem_head? hhead)
    exact absurd hdigit (by decide)
  cases part with
  | none =>
      have hdigits := digits?_append hwhole rest
      have hnumber := number?_sign (hfirst rest)
      rw [hdigits, Option.map_some, ← List.append_assoc] at hnumber
      refine ⟨_, _, hnumber, ?_, ?_⟩
      · cases fraction? (rest.dropWhile Text.isDigit) <;> simp [numberText]
      · intro hlength
        cases hfraction : fraction? (rest.dropWhile Text.isDigit) with
        | none =>
            rw [hfraction] at hlength
            have hrun : rest.takeWhile Text.isDigit = [] := by
              simpa [numberText] using hlength
            rw [hrun, List.append_nil]
        | some part =>
            rw [hfraction] at hlength
            simp [numberText] at hlength
  | some part =>
      have hpoint : ('.' :: (part ++ rest)).takeWhile Text.isDigit = [] ∧
          ('.' :: (part ++ rest)).dropWhile Text.isDigit = '.' :: (part ++ rest) := by
        simp [isDigit_point]
      have hdigits := digits?_append hwhole ('.' :: (part ++ rest))
      rw [hpoint.1, hpoint.2, List.append_nil, fraction?_append (hpart part rfl)] at hdigits
      have hnumber := number?_sign (hfirst ('.' :: (part ++ rest)))
      rw [hdigits, Option.map_some] at hnumber
      have htext : numberText negative whole (some part) ++ rest =
          sign negative ++ (whole ++ '.' :: (part ++ rest)) := by
        simp [numberText]
      rw [htext]
      refine ⟨_, _, hnumber, ?_, ?_⟩
      · simp [numberText]
      · intro hlength
        have hrun : rest.takeWhile Text.isDigit = [] := by
          simpa [numberText] using hlength
        rw [hrun, List.append_nil]

/-! ## Texts -/

/-- What may stand between quotes: anything but the quote and the backslash, and behind a backslash
anything but a line feed. -/
inductive IsContent (quote : Char) : List Char → Prop
  | nil : IsContent quote []
  | plain {c : Char} {content : List Char} (hquote : c ≠ quote) (hescape : c ≠ '\\')
      (hrest : IsContent quote content) : IsContent quote (c :: content)
  | escaped {c : Char} {content : List Char} (hline : c ≠ '\n')
      (hrest : IsContent quote content) : IsContent quote ('\\' :: c :: content)

/-- A text is read up to the quote that closes it. -/
theorem IsContent.quotedContent_append {quote : Char} (hquote : quote ≠ '\\') {content : List Char}
    (h : IsContent quote content) (rest : List Char) :
    quotedContent? quote (content ++ quote :: rest) = some content := by
  induction h with
  | nil =>
      rw [List.nil_append, quotedContent?.eq_def]
      simp
  | plain hne hescape _ ih =>
      rw [List.cons_append, quotedContent?.eq_def]
      simp [hne, hescape, ih]
  | escaped hline _ ih =>
      rw [List.cons_append, List.cons_append, quotedContent?.eq_def]
      simp [Ne.symm hquote, hline, ih]

theorem exists_of_quotedContent {quote : Char} {text content : List Char}
    (h : quotedContent? quote text = some content) :
    IsContent quote content ∧ ∃ rest, text = content ++ quote :: rest := by
  fun_induction quotedContent? quote text generalizing content with
  | case1 => contradiction
  | case2 text =>
      rw [← Option.some.inj h]
      exact ⟨.nil, text, rfl⟩
  | case3 => contradiction
  | case4 => contradiction
  | case5 d rest hline _ ih =>
      obtain ⟨content, hcontent, rfl⟩ := Option.map_eq_some_iff.mp h
      obtain ⟨hvalid, behind, rfl⟩ := ih hcontent
      exact ⟨.escaped hline hvalid, behind, rfl⟩
  | case6 c text hquote hescape ih =>
      obtain ⟨content, hcontent, rfl⟩ := Option.map_eq_some_iff.mp h
      obtain ⟨hvalid, behind, rfl⟩ := ih hcontent
      exact ⟨.plain hquote hescape hvalid, behind, rfl⟩

/-! ## Lexemes -/

/-- The lexemes of type expressions, each with the token it stands for: the value of a number, what
stands between quotes or backticks, and else the lexeme as it is. -/
inductive IsLexeme : List Char → TokenKind → Prop
  | number (negative : Bool) {whole : List Char} {part : Option (List Char)}
      (hwhole : IsNumeral whole) (hpart : ∀ digits ∈ part, IsNumeral digits) :
      IsLexeme (numberText negative whole part) (.number (numberValue negative whole part))
  | text {quote : Char} {content : List Char} (hquote : quote = '"' ∨ quote = '\'')
      (hcontent : IsContent quote content) :
      IsLexeme (quote :: (content ++ [quote])) (.text (String.ofList content))
  | quotedName {name : List Char} (hne : name ≠ []) (hname : '`' ∉ name) :
      IsLexeme (Token.backticked name) (.name (String.ofList name))
  | bareName {name : List Char} (h : Token.isIdentifier name = true) :
      IsLexeme name (.name (String.ofList name))
  | mark {kind : TokenKind} (h : kind.isMark = true) : IsLexeme kind.display.toList kind

theorem length_numberText_pos (negative : Bool) {whole : List Char} (hwhole : IsNumeral whole)
    (part : Option (List Char)) : 0 < (numberText negative whole part).length := by
  apply List.length_pos_of_ne_nil
  cases part <;> simp [numberText, hwhole.1]

/-- What is read is a lexeme at the front of the text. -/
theorem exists_lexeme_of_readToken {text : List Char} {kind : TokenKind} {more : Nat}
    (h : readToken text = some (kind, more)) :
    ∃ source rest, text = source ++ rest ∧ source.length = more + 1 ∧ IsLexeme source kind := by
  unfold readToken at h
  split at h
  · next value length hnumber =>
      obtain ⟨rfl, rfl⟩ := Prod.mk.inj (Option.some.inj h)
      obtain ⟨negative, whole, part, rest, rfl, rfl, rfl, hwhole, hpart⟩ := exists_of_number hnumber
      have hpos := length_numberText_pos negative hwhole part
      exact ⟨_, rest, rfl, by omega, .number negative hwhole hpart⟩
  · split at h
    · contradiction
    · next rest _ =>
        obtain ⟨rfl, rfl⟩ := Prod.mk.inj (Option.some.inj h)
        exact ⟨['<'], rest, rfl, rfl, @IsLexeme.mark .opening rfl⟩
    · next rest _ =>
        obtain ⟨rfl, rfl⟩ := Prod.mk.inj (Option.some.inj h)
        exact ⟨['>'], rest, rfl, rfl, @IsLexeme.mark .closing rfl⟩
    · next rest _ =>
        obtain ⟨rfl, rfl⟩ := Prod.mk.inj (Option.some.inj h)
        exact ⟨['|'], rest, rfl, rfl, @IsLexeme.mark .bar rfl⟩
    · next rest _ =>
        obtain ⟨rfl, rfl⟩ := Prod.mk.inj (Option.some.inj h)
        exact ⟨[','], rest, rfl, rfl, @IsLexeme.mark .comma rfl⟩
    · next c rest _ _ _ _ _ =>
        split at h
        · next hquote =>
            obtain ⟨content, hcontent, hfound⟩ := Option.map_eq_some_iff.mp h
            obtain ⟨rfl, rfl⟩ := Prod.mk.inj hfound
            obtain ⟨hvalid, behind, rfl⟩ := exists_of_quotedContent hcontent
            exact ⟨c :: (content ++ [c]), behind, by simp, by simp, .text hquote hvalid⟩
        · split at h
          · next hbacktick =>
              obtain ⟨name, hname, hfound⟩ := Option.map_eq_some_iff.mp h
              obtain ⟨rfl, rfl⟩ := Prod.mk.inj hfound
              obtain ⟨hne, hinside, behind, rfl⟩ := Token.exists_of_backtickName hname
              refine ⟨Token.backticked name, behind, ?_, ?_, .quotedName hne hinside⟩
              · rw [hbacktick, Token.backticked_append]
              · simp [Token.backticked]
          · split at h
            · next hstarts =>
                obtain ⟨rfl, rfl⟩ := Prod.mk.inj (Option.some.inj h)
                refine ⟨c :: rest.takeWhile Token.continuesName,
                  rest.dropWhile Token.continuesName, ?_, rfl, .bareName ?_⟩
                · rw [List.cons_append, List.takeWhile_append_dropWhile]
                · exact Token.isIdentifier_takeWhile hstarts rest
            · contradiction

/-- Where a lexeme stands, it or a longer one is read. -/
theorem IsLexeme.exists_readToken {source : List Char} {kind : TokenKind} (h : IsLexeme source kind)
    (rest : List Char) :
    ∃ found more, readToken (source ++ rest) = some (found, more) ∧ source.length ≤ more + 1 ∧
      (source.length = more + 1 → found = kind) := by
  cases h with
  | @number negative whole part hwhole hpart =>
      obtain ⟨value, length, hnumber, hle, hsame⟩ := exists_number_append negative hwhole hpart rest
      have hpos := length_numberText_pos negative hwhole part
      refine ⟨_, _, readToken_of_number hnumber, by omega, fun hlength => ?_⟩
      rw [hsame (by omega)]
  | @text quote content hquote hcontent =>
      have hread : readToken (quote :: (content ++ [quote]) ++ rest) =
          some (.text (String.ofList content), content.length + 1) := by
        have hnumber : number? (quote :: (content ++ quote :: rest)) = none := by
          rcases hquote with rfl | rfl <;> exact number?_eq_none (by decide) (by decide) _
        have hescape : quote ≠ '\\' := by
          rcases hquote with rfl | rfl <;> decide
        have hclosed := hcontent.quotedContent_append hescape rest
        rcases hquote with rfl | rfl <;> simp [readToken, hnumber, hclosed]
      exact ⟨_, _, hread, by simp, fun _ => rfl⟩
  | @quotedName name hne hname =>
      have hread : readToken (Token.backticked name ++ rest) =
          some (.name (String.ofList name), name.length + 1) := by
        have hnumber := number?_eq_none (c := '`') (by decide) (by decide) (name ++ '`' :: rest)
        have hclosed := Token.backtickName_append hne hname rest
        simp [Token.backticked_append, readToken, hnumber, hclosed]
      exact ⟨_, _, hread, by simp [Token.backticked], fun _ => rfl⟩
  | bareName hname =>
      exact Token.exists_of_isIdentifier (fun name => TokenKind.name (String.ofList name))
        readToken_of_startsName hname rest
  | mark hmark =>
      cases kind with
      | opening | closing | bar | comma => exact ⟨_, 0, rfl, Nat.le_refl 1, fun _ => rfl⟩
      | name _ | text _ | number _ => contradiction

/-- **The tokens of type expressions are their longest lexemes.** -/
theorem isReader_readToken : Tokens.IsReader IsLexeme readToken where
  sound := exists_lexeme_of_readToken
  complete := IsLexeme.exists_readToken

end TypeExpr
end SurrealSchema
