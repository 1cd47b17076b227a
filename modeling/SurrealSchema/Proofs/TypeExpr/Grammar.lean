import SurrealSchema.Proofs.Recognition
import SurrealSchema.TypeExpr.Parser

namespace SurrealSchema
namespace TypeExpr

/-!
# The grammar of type expressions

The productions of the grammar, one constructor for each, and the parser that recognises it.  What
the parser has read is a row of phrases: for every open bracket what stands in front of it, and the
alternatives and the term being read behind the last one.  A token extends these phrases or is
refused, and a name and closing brackets complete a sentence wherever the parser is.

Main statement: `recognises_derives`.
-/

/-! ## Productions -/

/-- The phrases of the grammar. -/
inductive Phrase where
  | type
  | union
  | term
  | arguments

/-- Whether some tokens are derived from a phrase.  Unions and arguments recurse on the left. -/
inductive Derives : Phrase → List TokenKind → Prop
  | type {tokens : List TokenKind} (h : Derives .union tokens) : Derives .type tokens
  | oneTerm {tokens : List TokenKind} (h : Derives .term tokens) : Derives .union tokens
  | moreTerms {tokens term : List TokenKind} (h : Derives .union tokens)
      (hterm : Derives .term term) : Derives .union (tokens ++ .bar :: term)
  | name (value : String) : Derives .term [.name value]
  | generic (value : String) {tokens : List TokenKind} (h : Derives .arguments tokens) :
      Derives .term (.name value :: .opening :: (tokens ++ [.closing]))
  | text (value : String) : Derives .term [.text value]
  | number (value : Literal) : Derives .term [.number value]
  | oneArgument {tokens : List TokenKind} (h : Derives .union tokens) : Derives .arguments tokens
  | moreArguments {tokens argument : List TokenKind} (h : Derives .arguments tokens)
      (hargument : Derives .union argument) : Derives .arguments (tokens ++ .comma :: argument)

/-! ## Sentences are read -/

/-- How the parser takes the tokens of a phrase.  It ends behind a term, with the same brackets open
as before; only the alternatives and the arguments read so far may have changed. -/
def Phrase.IsTaken : Phrase → List TokenKind → Prop
  | .term, tokens => ∀ frames alternatives, ∃ focus, focus ≠ .expecting ∧
      tokens.foldlM State.step ⟨frames, alternatives, .expecting⟩ =
        some ⟨frames, alternatives, focus⟩
  | .type, tokens | .union, tokens => ∀ frames, ∃ alternatives focus, focus ≠ .expecting ∧
      tokens.foldlM State.step ⟨frames, [], .expecting⟩ = some ⟨frames, alternatives, focus⟩
  | .arguments, tokens => ∀ beside name before frames, ∃ read alternatives focus,
      focus ≠ .expecting ∧
      tokens.foldlM State.step ⟨⟨beside, name, before⟩ :: frames, [], .expecting⟩ =
        some ⟨⟨beside, name, read⟩ :: frames, alternatives, focus⟩

/-- Behind a term there is a term. -/
theorem exists_term (state : State) (h : state.focus ≠ .expecting) :
    ∃ term, state.term? = some term := by
  unfold State.term?
  cases hfocus : state.focus with
  | expecting => exact absurd hfocus h
  | named name => exact ⟨_, rfl⟩
  | finished term => exact ⟨_, rfl⟩

theorem exists_union (state : State) (h : state.focus ≠ .expecting) :
    ∃ type, state.union? = some type := by
  obtain ⟨term, hterm⟩ := exists_term state h
  exact ⟨_, by rw [State.union?, hterm, Option.map_some]⟩

/-- **The parser takes whatever is derived from a phrase.** -/
theorem Derives.isTaken {phrase : Phrase} {tokens : List TokenKind} (h : Derives phrase tokens) :
    phrase.IsTaken tokens := by
  induction h with
  | type _ ih => exact ih
  | oneTerm _ ih =>
      intro frames
      obtain ⟨focus, hfocus, hsteps⟩ := ih frames []
      exact ⟨[], focus, hfocus, hsteps⟩
  | moreTerms _ _ ih ihterm =>
      intro frames
      obtain ⟨alternatives, focus, hfocus, hsteps⟩ := ih frames
      obtain ⟨term, hterm⟩ := exists_term ⟨frames, alternatives, focus⟩ hfocus
      obtain ⟨next, hnext, hread⟩ := ihterm frames (term :: alternatives)
      exact ⟨term :: alternatives, next, hnext, by simp [hsteps, State.step, hterm, hread]⟩
  | name value =>
      intro frames alternatives
      exact ⟨.named value, by simp, rfl⟩
  | generic value _ ih =>
      intro frames alternatives
      obtain ⟨read, others, focus, hfocus, hsteps⟩ := ih alternatives value [] frames
      obtain ⟨type, htype⟩ :=
        exists_union ⟨⟨alternatives, value, read⟩ :: frames, others, focus⟩ hfocus
      refine ⟨.finished (.named value (type :: read).reverse), by simp, ?_⟩
      simp [State.step, hsteps, htype]
  | text value =>
      intro frames alternatives
      exact ⟨.finished (.literal (.text value)), by simp, rfl⟩
  | number value =>
      intro frames alternatives
      exact ⟨.finished (.literal value), by simp, rfl⟩
  | oneArgument _ ih =>
      intro beside name before frames
      obtain ⟨alternatives, focus, hfocus, hsteps⟩ := ih (⟨beside, name, before⟩ :: frames)
      exact ⟨before, alternatives, focus, hfocus, hsteps⟩
  | moreArguments _ _ ih ihargument =>
      intro beside name before frames
      obtain ⟨read, alternatives, focus, hfocus, hsteps⟩ := ih beside name before frames
      obtain ⟨type, htype⟩ :=
        exists_union ⟨⟨beside, name, read⟩ :: frames, alternatives, focus⟩ hfocus
      obtain ⟨others, next, hnext, hread⟩ := ihargument (⟨beside, name, type :: read⟩ :: frames)
      exact ⟨type :: read, others, next, hnext, by simp [hsteps, State.step, htype, hread]⟩

/-! ## What has been read -/

/-- Whether some tokens are a phrase with a mark behind it, or nothing at all. -/
def IsFront (phrase : Phrase) (mark : TokenKind) (tokens : List TokenKind) : Prop :=
  tokens = [] ∨ ∃ before, Derives phrase before ∧ tokens = before ++ [mark]

theorem IsFront.union {front term : List TokenKind} (h : IsFront .union .bar front)
    (hterm : Derives .term term) : Derives .union (front ++ term) := by
  rcases h with rfl | ⟨before, hbefore, rfl⟩
  · exact .oneTerm hterm
  · simpa using Derives.moreTerms hbefore hterm

theorem IsFront.arguments {front argument : List TokenKind} (h : IsFront .arguments .comma front)
    (hargument : Derives .union argument) : Derives .arguments (front ++ argument) := by
  rcases h with rfl | ⟨before, hbefore, rfl⟩
  · exact .oneArgument hargument
  · simpa using Derives.moreArguments hbefore hargument

/-- The tokens in front of what is read inside the open brackets: for each bracket the alternatives
beside the generic type, its name and the arguments before the present one. -/
inductive OpenedBy : List Frame → List TokenKind → Prop
  | nil : OpenedBy [] []
  | cons {frame : Frame} {frames : List Frame} {before beside arguments : List TokenKind}
      (hbefore : OpenedBy frames before) (hbeside : IsFront .union .bar beside)
      (harguments : IsFront .arguments .comma arguments) :
      OpenedBy (frame :: frames)
        (before ++ (beside ++ (.name frame.name :: .opening :: arguments)))

/-- The tokens of the term being read. -/
def Focus.Reads : Focus → List TokenKind → Prop
  | .expecting, tokens => tokens = []
  | .named name, tokens => tokens = [.name name]
  | .finished _, tokens => Derives .term tokens

@[simp] theorem reads_expecting (tokens : List TokenKind) :
    Focus.expecting.Reads tokens ↔ tokens = [] := Iff.rfl

@[simp] theorem reads_named (name : String) (tokens : List TokenKind) :
    (Focus.named name).Reads tokens ↔ tokens = [.name name] := Iff.rfl

/-- Whether the parser is in a state after some tokens, as far as the grammar can tell. -/
def State.Reads (state : State) (tokens : List TokenKind) : Prop :=
  ∃ before front term, OpenedBy state.frames before ∧ IsFront .union .bar front ∧
    state.focus.Reads term ∧ tokens = before ++ (front ++ term)

theorem reads_start : grammar.start.Reads [] :=
  ⟨[], [], [], .nil, Or.inl rfl, rfl, rfl⟩

/-- A whole term in the focus is one of the grammar. -/
theorem derives_of_term {state : State} {term : TypeExpr} (h : state.term? = some term)
    {tokens : List TokenKind} (hreads : state.focus.Reads tokens) : Derives .term tokens := by
  unfold State.term? at h
  cases hfocus : state.focus with
  | expecting => simp [hfocus] at h
  | named name =>
      rw [hfocus, reads_named] at hreads
      rw [hreads]
      exact .name name
  | finished term =>
      rw [hfocus] at hreads
      exact hreads

theorem derives_of_union {state : State} {type : TypeExpr} (h : state.union? = some type)
    {front term : List TokenKind} (hfront : IsFront .union .bar front)
    (hreads : state.focus.Reads term) : Derives .union (front ++ term) := by
  obtain ⟨last, hlast, -⟩ := Option.map_eq_some_iff.mp h
  exact hfront.union (derives_of_term hlast hreads)

/-- A token that is no mark is read where a term has to follow. -/
theorem State.Reads.term {state : State} {tokens : List TokenKind} (h : state.Reads tokens)
    (hfocus : state.focus = .expecting) {focus : Focus} {kind : TokenKind}
    (hkind : focus.Reads [kind]) :
    State.Reads { state with focus := focus } (tokens ++ [kind]) := by
  obtain ⟨before, front, term, hbefore, hfront, hterm, rfl⟩ := h
  rw [hfocus, reads_expecting] at hterm
  exact ⟨before, front, [kind], hbefore, hfront, hkind, by simp [hterm]⟩

/-- **A token that the parser takes extends what has been read.** -/
theorem State.Reads.step {state next : State} {tokens : List TokenKind} {kind : TokenKind}
    (h : state.Reads tokens) (hstep : state.step kind = some next) :
    next.Reads (tokens ++ [kind]) := by
  cases kind with
  | name value =>
      simp only [State.step] at hstep
      split at hstep
      · next hfocus =>
          obtain rfl := Option.some.inj hstep
          exact h.term hfocus rfl
      · contradiction
  | text value =>
      simp only [State.step] at hstep
      split at hstep
      · next hfocus =>
          obtain rfl := Option.some.inj hstep
          exact h.term hfocus (.text value)
      · contradiction
  | number value =>
      simp only [State.step] at hstep
      split at hstep
      · next hfocus =>
          obtain rfl := Option.some.inj hstep
          exact h.term hfocus (.number value)
      · contradiction
  | opening =>
      obtain ⟨before, front, term, hbefore, hfront, hterm, rfl⟩ := h
      simp only [State.step] at hstep
      split at hstep
      · next name hfocus =>
          obtain rfl := Option.some.inj hstep
          rw [hfocus, reads_named] at hterm
          -- The alternatives in front of the name stand beside the generic type.
          exact ⟨_, [], [], .cons hbefore hfront (Or.inl rfl), Or.inl rfl, rfl, by simp [hterm]⟩
      · contradiction
  | closing =>
      obtain ⟨before, front, term, hbefore, hfront, hterm, rfl⟩ := h
      simp only [State.step] at hstep
      split at hstep
      · next frame frames last hframes hlast =>
          obtain rfl := Option.some.inj hstep
          rw [hframes] at hbefore
          cases hbefore with
          | @cons _ _ outer beside arguments houter hbeside harguments =>
              have hargument := derives_of_union hlast hfront hterm
              exact ⟨outer, beside, _, houter, hbeside,
                .generic frame.name (harguments.arguments hargument), by simp⟩
      · contradiction
  | bar =>
      obtain ⟨before, front, term, hbefore, hfront, hterm, rfl⟩ := h
      obtain ⟨last, hlast, rfl⟩ := Option.map_eq_some_iff.mp hstep
      have hunion := hfront.union (derives_of_term hlast hterm)
      exact ⟨before, _, [], hbefore, Or.inr ⟨_, hunion, rfl⟩, rfl, by simp⟩
  | comma =>
      obtain ⟨before, front, term, hbefore, hfront, hterm, rfl⟩ := h
      simp only [State.step] at hstep
      split at hstep
      · next frame frames last hframes hlast =>
          obtain rfl := Option.some.inj hstep
          rw [hframes] at hbefore
          cases hbefore with
          | @cons _ _ outer beside arguments houter hbeside harguments =>
              have hargument := harguments.arguments (derives_of_union hlast hfront hterm)
              let extended : Frame := { frame with arguments := last :: frame.arguments }
              have hopened : OpenedBy (extended :: frames) _ :=
                .cons houter hbeside (Or.inr ⟨_, hargument, rfl⟩)
              exact ⟨_, [], [], hopened, Or.inl rfl, rfl, by simp [extended]⟩
      · contradiction

/-! ## Completing a sentence -/

/-- Closing brackets complete a sentence behind a term. -/
theorem exists_finish_of_closings (state : State) (h : state.focus ≠ .expecting) :
    ∃ final, (List.replicate state.frames.length TokenKind.closing).foldlM State.step state =
      some final ∧ final.finish.isSome = true := by
  obtain ⟨frames, alternatives, focus⟩ := state
  induction frames generalizing alternatives focus with
  | nil =>
      obtain ⟨type, htype⟩ := exists_union _ h
      exact ⟨⟨[], alternatives, focus⟩, rfl, by simp [State.finish, htype]⟩
  | cons frame frames ih =>
      obtain ⟨type, htype⟩ := exists_union _ h
      obtain ⟨final, hsteps, hfinal⟩ := ih frame.beside
        (.finished (.named frame.name (type :: frame.arguments).reverse)) (by simp)
      refine ⟨final, ?_, hfinal⟩
      rw [List.length_cons, List.replicate_succ, List.foldlM_cons, State.step]
      simp only [htype]
      exact hsteps

/-- From every state some tokens complete a sentence. -/
theorem exists_completion (state : State) :
    ∃ (rest : List TokenKind) (final : State), rest.foldlM State.step state = some final ∧
      final.finish.isSome = true := by
  by_cases hfocus : state.focus = .expecting
  · -- A name in front of the brackets is the term that has to follow.
    have hname : state.step (.name "none") = some { state with focus := .named "none" } := by
      rw [State.step, hfocus]
    obtain ⟨final, hsteps, hfinal⟩ :=
      exists_finish_of_closings { state with focus := .named "none" } (by simp)
    refine ⟨.name "none" :: List.replicate state.frames.length .closing, final, ?_, hfinal⟩
    rw [List.foldlM_cons, hname]
    exact hsteps
  · obtain ⟨final, hsteps, hfinal⟩ := exists_finish_of_closings state hfocus
    exact ⟨_, final, hsteps, hfinal⟩

/-- **The parser recognises the language of the grammar.** -/
theorem recognises_derives : grammar.Recognises (Derives .type) where
  sound := by
    intro tokens final hsteps hfinal
    obtain ⟨before, front, term, hbefore, hfront, hterm, rfl⟩ :=
      Grammar.reads_of_foldlM reads_start State.Reads.step hsteps
    obtain ⟨type, htype⟩ := Option.isSome_iff_exists.mp hfinal
    have hunion : final.frames = [] ∧ final.union? = some type := by
      change final.finish = some type at htype
      unfold State.finish at htype
      split at htype
      · next hframes => exact ⟨hframes, htype⟩
      · contradiction
    rw [hunion.1] at hbefore
    cases hbefore
    rw [List.nil_append]
    exact .type (derives_of_union hunion.2 hfront hterm)
  complete := by
    intro tokens h
    obtain ⟨alternatives, focus, hfocus, hsteps⟩ := h.isTaken []
    obtain ⟨type, htype⟩ := exists_union ⟨[], alternatives, focus⟩ hfocus
    exact ⟨_, hsteps, by simp [grammar, State.finish, htype]⟩
  completion := by
    intro _ state _
    exact exists_completion state

end TypeExpr
end SurrealSchema
