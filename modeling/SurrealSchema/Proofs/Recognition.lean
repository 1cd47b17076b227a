import SurrealSchema.Proofs.Token

namespace SurrealSchema
namespace Grammar

/-!
# Grammars that recognise a language

A grammar consumes the tokens of a text one at a time.  It recognises a language if it accepts
exactly the sentences and never takes a token behind which no sentence can be completed.  Then the
first token that it refuses is the first one that no sentence allows, whatever comes later.

Main statement: `Recognises.judges_parse`.
-/

variable {κ σ α : Type} {grammar : Grammar κ σ α} {sentence : List κ → Prop}

/-! ## Runs -/

/-- A run succeeds exactly where the kinds of its tokens lead to a final state. -/
theorem run_eq_ok_iff {tokens : List (Token κ)} {state : σ} {result : α} :
    grammar.run none state tokens = .ok result ↔
      ∃ final, (tokens.map Token.kind).foldlM grammar.step state = some final ∧
        grammar.finish final = some result := by
  constructor
  · exact fun h => (exists_final_of_run h).2
  · rintro ⟨final, hsteps, hfinal⟩
    exact run_of_kinds hsteps hfinal

/-- A run fails at the first token that is refused, whatever follows it. -/
theorem run_of_refused {illegal : Option (Char × Nat)} {front rest : List (Token κ)}
    {token : Token κ} {state middle : σ}
    (hfront : (front.map Token.kind).foldlM grammar.step state = some middle)
    (hrefused : grammar.step middle token.kind = none) :
    grammar.run illegal state (front ++ token :: rest) =
      .error (.unexpectedToken (grammar.spelling token.kind) token.position) := by
  induction front generalizing state with
  | nil =>
      have hstate : state = middle := Option.some.inj hfront
      rw [List.nil_append, run, hstate, hrefused]
  | cons first front ih =>
      rw [List.map_cons, List.foldlM_cons] at hfront
      obtain ⟨next, hstep, hnext⟩ := Option.bind_eq_some_iff.mp hfront
      rw [List.cons_append, run, hstep]
      exact ih hnext

/-- A run that takes all tokens and ends in no final state misses the rest of a sentence. -/
theorem run_of_unfinished {tokens : List (Token κ)} {state final : σ}
    (hsteps : (tokens.map Token.kind).foldlM grammar.step state = some final)
    (hfinal : grammar.finish final = none) :
    grammar.run none state tokens = .error .unexpectedEnd := by
  induction tokens generalizing state with
  | nil =>
      have hstate : state = final := Option.some.inj hsteps
      rw [run, hstate, hfinal]
  | cons token tokens ih =>
      rw [List.map_cons, List.foldlM_cons] at hsteps
      obtain ⟨next, hstep, hnext⟩ := Option.bind_eq_some_iff.mp hsteps
      rw [run, hstep]
      exact ih hnext

/-- What every step keeps between the state and the tokens taken so far holds behind a run. -/
theorem reads_of_foldlM {Reads : σ → List κ → Prop} (hstart : Reads grammar.start [])
    (hstep : ∀ {state next : σ} {kinds : List κ} {kind : κ}, Reads state kinds →
      grammar.step state kind = some next → Reads next (kinds ++ [kind]))
    {kinds : List κ} {final : σ}
    (h : kinds.foldlM grammar.step grammar.start = some final) : Reads final kinds := by
  induction kinds using List.reverseRecOn generalizing final with
  | nil =>
      rw [← Option.some.inj h]
      exact hstart
  | append_singleton kinds kind ih =>
      rw [List.foldlM_append] at h
      obtain ⟨state, hstate, hlast⟩ := Option.bind_eq_some_iff.mp h
      have hkind : grammar.step state kind = some final := by simpa using hlast
      exact hstep (ih hstate) hkind

/-! ## Languages -/

/-- Whether a sentence starts with some tokens. -/
def IsViable (sentence : List κ → Prop) (kinds : List κ) : Prop :=
  ∃ rest, sentence (kinds ++ rest)

/-- Whether a grammar accepts the sentences of a language and nothing else, and can go on to a
sentence from wherever tokens have led it. -/
structure Recognises (grammar : Grammar κ σ α) (sentence : List κ → Prop) : Prop where
  sound : ∀ {kinds : List κ} {final : σ}, kinds.foldlM grammar.step grammar.start = some final →
    (grammar.finish final).isSome = true → sentence kinds
  complete : ∀ {kinds : List κ}, sentence kinds →
    ∃ final, kinds.foldlM grammar.step grammar.start = some final ∧
      (grammar.finish final).isSome = true
  completion : ∀ {kinds : List κ} {state : σ},
    kinds.foldlM grammar.step grammar.start = some state →
      ∃ (rest : List κ) (final : σ), rest.foldlM grammar.step state = some final ∧
        (grammar.finish final).isSome = true

/-- **A grammar takes some tokens exactly where a sentence starts with them.** -/
theorem Recognises.isSome_foldlM_iff (h : grammar.Recognises sentence) (kinds : List κ) :
    (kinds.foldlM grammar.step grammar.start).isSome = true ↔ IsViable sentence kinds := by
  constructor
  · intro hsome
    obtain ⟨state, hstate⟩ := Option.isSome_iff_exists.mp hsome
    obtain ⟨rest, final, hrest, hfinal⟩ := h.completion hstate
    have hsteps : (kinds ++ rest).foldlM grammar.step grammar.start = some final := by
      rw [List.foldlM_append, hstate]
      exact hrest
    exact ⟨rest, h.sound hsteps hfinal⟩
  · rintro ⟨rest, hsentence⟩
    obtain ⟨final, hfinal, -⟩ := h.complete hsentence
    rw [List.foldlM_append] at hfinal
    obtain ⟨state, hstate, -⟩ := Option.bind_eq_some_iff.mp hfinal
    rw [hstate]
    rfl

/-- What a language says about some tokens: whether they are a sentence, and if they are not, at
which of them or behind which of them they stop to be the start of one. -/
structure Judges (grammar : Grammar κ σ α) (sentence : List κ → Prop) (tokens : List (Token κ))
    (outcome : Except Rejection α) : Prop where
  /-- The sentences are accepted. -/
  accepts : (∃ result, outcome = .ok result) ↔ sentence (tokens.map Token.kind)
  /-- The first token that no sentence allows is reported, by its value and its place. -/
  refuses : ∀ k token, tokens[k]? = some token →
    (∀ j ≤ k, IsViable sentence ((tokens.take j).map Token.kind)) →
    ¬ IsViable sentence ((tokens.take (k + 1)).map Token.kind) →
      outcome = .error (.unexpectedToken (grammar.spelling token.kind) token.position)
  /-- The end is reported where more tokens would make a sentence. -/
  misses : ¬ sentence (tokens.map Token.kind) →
    (∀ j ≤ tokens.length, IsViable sentence ((tokens.take j).map Token.kind)) →
      outcome = .error .unexpectedEnd

/-- **A grammar that recognises a language reports the first token that no sentence allows.** -/
theorem Recognises.judges_run (h : grammar.Recognises sentence) (tokens : List (Token κ)) :
    grammar.Judges sentence tokens (grammar.run none grammar.start tokens) where
  accepts := by
    constructor
    · rintro ⟨result, hrun⟩
      obtain ⟨final, hsteps, hfinal⟩ := run_eq_ok_iff.mp hrun
      exact h.sound hsteps (by rw [hfinal]; rfl)
    · intro hsentence
      obtain ⟨final, hsteps, hsome⟩ := h.complete hsentence
      obtain ⟨result, hfinal⟩ := Option.isSome_iff_exists.mp hsome
      exact ⟨result, run_of_kinds hsteps hfinal⟩
  refuses := by
    intro k token htoken hviable hstops
    have hsome := (h.isSome_foldlM_iff _).mpr (hviable k (Nat.le_refl k))
    obtain ⟨middle, hmiddle⟩ := Option.isSome_iff_exists.mp hsome
    rw [← h.isSome_foldlM_iff, List.take_add_one, htoken, Option.toList_some, List.map_append,
      List.foldlM_append, hmiddle] at hstops
    have hrefused : grammar.step middle token.kind = none := by
      simpa using hstops
    obtain ⟨hlt, hget⟩ := List.getElem?_eq_some_iff.mp htoken
    have hsplit : tokens = tokens.take k ++ token :: tokens.drop (k + 1) := by
      rw [← hget, List.getElem_cons_drop, List.take_append_drop]
    rw [hsplit]
    exact run_of_refused hmiddle hrefused
  misses := by
    intro hnot hviable
    have hall := hviable tokens.length (Nat.le_refl _)
    rw [List.take_length, ← h.isSome_foldlM_iff] at hall
    obtain ⟨final, hfinal⟩ := Option.isSome_iff_exists.mp hall
    refine run_of_unfinished hfinal (Option.not_isSome_iff_eq_none.mp fun hsome => ?_)
    exact hnot (h.sound hfinal hsome)

/-- So does the parsing of a text in which a token starts wherever one has to. -/
theorem Recognises.judges_parse (h : grammar.Recognises sentence) {tokens : Tokens κ}
    (hlegal : tokens.illegal = none) :
    grammar.Judges sentence tokens.tokens (grammar.parse tokens) := by
  unfold parse
  rw [hlegal]
  exact h.judges_run tokens.tokens

end Grammar
end SurrealSchema
