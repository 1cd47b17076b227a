import SurrealSchema.Proofs.Lexemes
import SurrealSchema.Proofs.Query.Tokens

namespace SurrealSchema
namespace Query

/-!
# Lexemes of heads

What each kind of token of a query's head looks like: names between backticks, words, some of which
are the two keywords, and marks.  The reader of tokens reads these and nothing else, and of several
words the longest.

Main statement: `isReader_readToken`.
-/

/-- Whether a token is a mark. -/
def TokenKind.isMark : TokenKind → Bool
  | star | comma | dot => true
  | name _ | selectWord _ | fromWord _ => false

/-- The lexemes of heads, each with the token it stands for.  What stands between backticks is a
name, whatever it spells. -/
inductive IsLexeme : List Char → TokenKind → Prop
  | quotedName {name : List Char} (hne : name ≠ []) (hname : '`' ∉ name) :
      IsLexeme (Token.backticked name) (.name (String.ofList name))
  | word {word : List Char} (h : Token.isIdentifier word = true) :
      IsLexeme word (.ofWord (String.ofList word))
  | mark {kind : TokenKind} (h : kind.isMark = true) : IsLexeme kind.display.toList kind

/-- What is read is a lexeme at the front of the text. -/
theorem exists_lexeme_of_readToken {text : List Char} {kind : TokenKind} {more : Nat}
    (h : readToken text = some (kind, more)) :
    ∃ source rest, text = source ++ rest ∧ source.length = more + 1 ∧ IsLexeme source kind := by
  rw [readToken.eq_def] at h
  split at h
  · contradiction
  · next rest =>
      obtain ⟨rfl, rfl⟩ := Prod.mk.inj (Option.some.inj h)
      exact ⟨['*'], rest, rfl, rfl, @IsLexeme.mark .star rfl⟩
  · next rest =>
      obtain ⟨rfl, rfl⟩ := Prod.mk.inj (Option.some.inj h)
      exact ⟨[','], rest, rfl, rfl, @IsLexeme.mark .comma rfl⟩
  · next rest =>
      obtain ⟨rfl, rfl⟩ := Prod.mk.inj (Option.some.inj h)
      exact ⟨['.'], rest, rfl, rfl, @IsLexeme.mark .dot rfl⟩
  · next c rest _ _ _ =>
      split at h
      · next hbacktick =>
          obtain ⟨name, hname, hfound⟩ := Option.map_eq_some_iff.mp h
          obtain ⟨rfl, rfl⟩ := Prod.mk.inj hfound
          obtain ⟨hne, hinside, behind, rfl⟩ := Token.exists_of_backtickName hname
          refine ⟨Token.backticked name, behind, ?_, ?_, .quotedName hne hinside⟩
          · rw [hbacktick, Token.backticked_append]
          · simp [Token.backticked]
      · split at h
        · next hstarts =>
            obtain ⟨rfl, rfl⟩ := Prod.mk.inj (Option.some.inj h)
            refine ⟨c :: rest.takeWhile Token.continuesName,
              rest.dropWhile Token.continuesName, ?_, rfl, .word ?_⟩
            · rw [List.cons_append, List.takeWhile_append_dropWhile]
            · exact Token.isIdentifier_takeWhile hstarts rest
        · contradiction

/-- Where a lexeme stands, it or a longer one is read. -/
theorem IsLexeme.exists_readToken {source : List Char} {kind : TokenKind} (h : IsLexeme source kind)
    (rest : List Char) :
    ∃ found more, readToken (source ++ rest) = some (found, more) ∧ source.length ≤ more + 1 ∧
      (source.length = more + 1 → found = kind) := by
  cases h with
  | @quotedName name hne hname =>
      have hread : readToken (Token.backticked name ++ rest) =
          some (.name (String.ofList name), name.length + 1) := by
        have hclosed := Token.backtickName_append hne hname rest
        simp [Token.backticked_append, readToken, hclosed]
      exact ⟨_, _, hread, by simp [Token.backticked], fun _ => rfl⟩
  | word hword =>
      exact Token.exists_of_isIdentifier (fun word => TokenKind.ofWord (String.ofList word))
        readToken_of_startsName hword rest
  | mark hmark =>
      cases kind with
      | star | comma | dot => exact ⟨_, 0, rfl, Nat.le_refl 1, fun _ => rfl⟩
      | name _ | selectWord _ | fromWord _ => contradiction

/-- **The tokens of heads are their longest lexemes.** -/
theorem isReader_readToken : Tokens.IsReader IsLexeme readToken where
  sound := exists_lexeme_of_readToken
  complete := IsLexeme.exists_readToken

end Query
end SurrealSchema
