import SurrealSchema.Proofs.Query.Grammar
import SurrealSchema.Proofs.Query.Lexemes
import SurrealSchema.Proofs.TypeExpr.Grammar
import SurrealSchema.Proofs.TypeExpr.Lexemes

namespace SurrealSchema

/-!
# The languages of types and heads

What holds of both small languages of this library, each with its own tokens and its own grammar.
-/

/-- **Both parsers decide their languages, and report the first token that no sentence allows.** -/
theorem parsers_judge_by_grammar :
    (∀ text, (TypeExpr.tokens text).illegal = none →
      TypeExpr.grammar.Judges (TypeExpr.Derives .type) (TypeExpr.tokens text).tokens
        (TypeExpr.parse text)) ∧
    (∀ text, (Query.tokens text).illegal = none →
      Query.headGrammar.Judges (Query.Derives .head) (Query.tokens text).tokens
        (Query.parseHead text)) := by
  constructor
  · intro text hlegal
    exact TypeExpr.recognises_derives.judges_parse hlegal
  · intro text hlegal
    exact Query.recognises_derives.judges_parse hlegal

/-- A bracket too many in a type, and a head whose last path is missing. -/
theorem parsers_judge_by_grammar_refused :
    (let text := "array<record<user> | -5>>".toList;
      (TypeExpr.tokens text).illegal = none ∧
        TypeExpr.parse text = .error (.unexpectedToken ">" 24) ∧
        TypeExpr.grammar.Judges (TypeExpr.Derives .type) (TypeExpr.tokens text).tokens
          (TypeExpr.parse text)) ∧
    (let text := "SELECT author.*.`from`, FROM post".toList;
      (Query.tokens text).illegal = none ∧
        Query.parseHead text = .error (.unexpectedToken "FROM" 24) ∧
        Query.headGrammar.Judges (Query.Derives .head) (Query.tokens text).tokens
          (Query.parseHead text)) := by
  have htype : (TypeExpr.tokens "array<record<user> | -5>>".toList).illegal = none := by
    decide +kernel
  have hhead : (Query.tokens "SELECT author.*.`from`, FROM post".toList).illegal = none := by
    decide +kernel
  exact ⟨⟨htype, rfl, parsers_judge_by_grammar.1 _ htype⟩,
    ⟨hhead, rfl, parsers_judge_by_grammar.2 _ hhead⟩⟩

end SurrealSchema
