import SurrealSchema.TypeExpr.Parser
import Mathlib.Data.List.Chain

namespace SurrealSchema
namespace TypeExpr

/-!
# Sentences

The tokens that a type expression is written with, and the parser on them.  A syntax tree is one of
the grammar when its unions have at least two alternatives and no alternative is a union itself;
the parser takes the tokens of such a tree back to the tree.

Main statements: `foldlM_kinds`, and `isSentence_iff`, by which the parser gives no other trees.
Tokens that the parser takes never have two terms side by side, `isChain_of_foldlM`, so the gaps
between them may be left out.
-/

/-! ## Syntax trees and their tokens -/

/-- Whether a type expression is a union. -/
def isUnion : TypeExpr → Bool
  | union _ => true
  | _ => false

mutual

/-- Whether the grammar has a type expression. -/
def isSentence : TypeExpr → Bool
  | literal _ => true
  | named _ arguments => areSentences arguments
  | union alternatives => 2 ≤ alternatives.length && areTerms alternatives

/-- Whether the grammar has all of some type expressions. -/
def areSentences : List TypeExpr → Bool
  | [] => true
  | type :: types => isSentence type && areSentences types

/-- Whether the grammar has all of some type expressions and none of them is a union. -/
def areTerms : List TypeExpr → Bool
  | [] => true
  | type :: types => !isUnion type && isSentence type && areTerms types

end

mutual

/-- The tokens of a type expression. -/
def kinds : TypeExpr → List TokenKind
  | literal (.text value) => [.text value]
  | literal value => [.number value]
  | named name arguments => .name name :: argumentKinds arguments
  | union alternatives => alternativeKinds alternatives

/-- The tokens of arguments with the brackets around them, if there are arguments. -/
def argumentKinds : List TypeExpr → List TokenKind
  | [] => []
  | first :: others => .opening :: (kinds first ++ furtherKinds .comma others ++ [.closing])

/-- The tokens of alternatives with the bars between them. -/
def alternativeKinds : List TypeExpr → List TokenKind
  | [] => []
  | first :: others => kinds first ++ furtherKinds .bar others

/-- The tokens of type expressions with a mark before each of them. -/
def furtherKinds (mark : TokenKind) : List TypeExpr → List TokenKind
  | [] => []
  | type :: types => mark :: (kinds type ++ furtherKinds mark types)

end

/-! ## Terms and sentences -/

/-- Where the parser is after a term. -/
def focusOf : TypeExpr → Focus
  | named name [] => .named name
  | term => .finished term

theorem term?_focusOf (term : TypeExpr) (frames : List Frame) (alternatives : List TypeExpr) :
    State.term? ⟨frames, alternatives, focusOf term⟩ = some term := by
  unfold focusOf
  split <;> rfl

/-- Whether the parser takes the tokens of a type expression for one term. -/
def ReadsAsTerm (type : TypeExpr) : Prop :=
  ∀ frames alternatives, (kinds type).foldlM State.step ⟨frames, alternatives, .expecting⟩ =
    some ⟨frames, alternatives, focusOf type⟩

/-- Whether the parser takes the tokens of a type expression for all there is up to the next comma
or closing bracket. -/
def ReadsAsSentence (type : TypeExpr) : Prop :=
  ∀ frames, ∃ state : State, state.frames = frames ∧ state.union? = some type ∧
    (kinds type).foldlM State.step ⟨frames, [], .expecting⟩ = some state

theorem ReadsAsTerm.sentence {type : TypeExpr} (h : ReadsAsTerm type) : ReadsAsSentence type := by
  intro frames
  refine ⟨_, rfl, ?_, h frames []⟩
  unfold State.union?
  rw [term?_focusOf]
  rfl

/-- The parser goes on where it is after the first tokens. -/
theorem foldlM_append_of_eq_some {tokens : List TokenKind} {state middle : State}
    (h : tokens.foldlM State.step state = some middle) (rest : List TokenKind) :
    (tokens ++ rest).foldlM State.step state = rest.foldlM State.step middle := by
  rw [List.foldlM_append, h]
  rfl

/-- Further arguments are collected up to the closing bracket. -/
theorem foldlM_furtherArguments {others : List TypeExpr}
    (h : ∀ argument ∈ others, ReadsAsSentence argument) {state : State} {frame : Frame}
    {frames : List Frame} {last : TypeExpr} (hframes : state.frames = frame :: frames)
    (hlast : state.union? = some last) :
    (furtherKinds .comma others ++ [TokenKind.closing]).foldlM State.step state =
      some ⟨frames, frame.beside,
        .finished (.named frame.name ((last :: frame.arguments).reverse ++ others))⟩ := by
  induction others generalizing state frame last with
  | nil => simp [furtherKinds, State.step, hframes, hlast]
  | cons argument others ih =>
      -- The comma hands the last argument to the frame, and the next one is read above it.
      let next : Frame := { frame with arguments := last :: frame.arguments }
      obtain ⟨after, hafter, hargument, hread⟩ := h argument List.mem_cons_self (next :: frames)
      have hcomma : [TokenKind.comma].foldlM State.step state =
          some ⟨next :: frames, [], .expecting⟩ := by
        simp [State.step, hframes, hlast, next]
      have hrest := ih (fun other hmem => h other (List.mem_cons_of_mem _ hmem)) hafter hargument
      have hkinds : furtherKinds .comma (argument :: others) ++ [TokenKind.closing] =
          [.comma] ++ (kinds argument ++ (furtherKinds .comma others ++ [.closing])) := by
        simp [furtherKinds]
      rw [hkinds, foldlM_append_of_eq_some hcomma, foldlM_append_of_eq_some hread, hrest]
      simp [next]

/-- A name with arguments is a term. -/
theorem readsAsTerm_named (name : String) {arguments : List TypeExpr}
    (h : ∀ argument ∈ arguments, ReadsAsSentence argument) :
    ReadsAsTerm (named name arguments) := by
  intro frames alternatives
  cases arguments with
  | nil => rfl
  | cons first others =>
      -- The bracket opens a frame that the closing bracket takes away again.
      obtain ⟨state, hframes, hfirst, hread⟩ :=
        h first List.mem_cons_self (⟨alternatives, name, []⟩ :: frames)
      have hrest := foldlM_furtherArguments
        (fun other hmem => h other (List.mem_cons_of_mem _ hmem)) hframes hfirst
      have hopening : ([.name name, .opening] : List TokenKind).foldlM State.step
          ⟨frames, alternatives, .expecting⟩ =
            some ⟨⟨alternatives, name, []⟩ :: frames, [], .expecting⟩ := rfl
      have hkinds : kinds (named name (first :: others)) =
          [.name name, .opening] ++
            (kinds first ++ (furtherKinds .comma others ++ [.closing])) := by
        simp [kinds, argumentKinds]
      rw [hkinds, foldlM_append_of_eq_some hopening, foldlM_append_of_eq_some hread, hrest]
      simp [focusOf]

/-- Further alternatives are collected at the present level. -/
theorem foldlM_furtherAlternatives {others : List TypeExpr}
    (h : ∀ alternative ∈ others, ReadsAsTerm alternative) {state : State} {term : TypeExpr}
    (hterm : state.term? = some term) :
    ∃ after : State, after.frames = state.frames ∧
      after.union? = some (ofAlternatives ((term :: state.alternatives).reverse ++ others)) ∧
      (furtherKinds .bar others).foldlM State.step state = some after := by
  induction others generalizing state term with
  | nil => exact ⟨state, rfl, by simp [State.union?, hterm], rfl⟩
  | cons alternative others ih =>
      have hbar : [TokenKind.bar].foldlM State.step state =
          some ⟨state.frames, term :: state.alternatives, .expecting⟩ := by
        simp [State.step, hterm]
      have hread := h alternative List.mem_cons_self state.frames (term :: state.alternatives)
      obtain ⟨after, hframes, hunion, hrest⟩ :=
        ih (fun other hmem => h other (List.mem_cons_of_mem _ hmem))
          (term?_focusOf alternative state.frames (term :: state.alternatives))
      have hkinds : furtherKinds .bar (alternative :: others) =
          [.bar] ++ (kinds alternative ++ furtherKinds .bar others) := by
        simp [furtherKinds]
      refine ⟨after, hframes, by simpa using hunion, ?_⟩
      rw [hkinds, foldlM_append_of_eq_some hbar, foldlM_append_of_eq_some hread, hrest]

/-- Several terms with bars between them are a union. -/
theorem readsAsSentence_union {alternatives : List TypeExpr} (hlength : 2 ≤ alternatives.length)
    (h : ∀ alternative ∈ alternatives, ReadsAsTerm alternative) :
    ReadsAsSentence (union alternatives) := by
  intro frames
  match alternatives with
  | first :: second :: others =>
      have hread := h first List.mem_cons_self frames []
      obtain ⟨after, hframes, hunion, hrest⟩ := foldlM_furtherAlternatives
        (fun other hmem => h other (List.mem_cons_of_mem _ hmem))
        (term?_focusOf first frames [])
      refine ⟨after, hframes, by simpa [ofAlternatives] using hunion, ?_⟩
      rw [kinds, alternativeKinds, foldlM_append_of_eq_some hread, hrest]

mutual

/-- A type expression of the grammar is read as a term, or as a sentence if it is a union. -/
theorem readsAs : (type : TypeExpr) → isSentence type = true →
    (isUnion type = false → ReadsAsTerm type) ∧ ReadsAsSentence type
  | literal value, _ => by
      have hterm : ReadsAsTerm (literal value) := by
        intro frames alternatives
        cases value <;> rfl
      exact ⟨fun _ => hterm, hterm.sentence⟩
  | named name arguments, h => by
      rw [isSentence] at h
      have hterm := readsAsTerm_named name (readsAsSentence_of_areSentences arguments h)
      exact ⟨fun _ => hterm, hterm.sentence⟩
  | union alternatives, h => by
      rw [isSentence, Bool.and_eq_true, decide_eq_true_eq] at h
      refine ⟨fun hunion => absurd hunion (by simp [isUnion]), ?_⟩
      exact readsAsSentence_union h.1 (readsAsTerm_of_areTerms alternatives h.2)

theorem readsAsSentence_of_areSentences : (types : List TypeExpr) → areSentences types = true →
    ∀ type ∈ types, ReadsAsSentence type
  | [], _ => by
      intro type hmem
      contradiction
  | first :: others, h => by
      rw [areSentences, Bool.and_eq_true] at h
      have hfirst := (readsAs first h.1).2
      have hothers := readsAsSentence_of_areSentences others h.2
      intro type hmem
      rcases List.mem_cons.mp hmem with rfl | hmem
      · exact hfirst
      · exact hothers type hmem

theorem readsAsTerm_of_areTerms : (types : List TypeExpr) → areTerms types = true →
    ∀ type ∈ types, ReadsAsTerm type
  | [], _ => by
      intro type hmem
      contradiction
  | first :: others, h => by
      rw [areTerms, Bool.and_eq_true, Bool.and_eq_true, Bool.not_eq_true'] at h
      have hfirst := (readsAs first h.1.2).1 h.1.1
      have hothers := readsAsTerm_of_areTerms others h.2
      intro type hmem
      rcases List.mem_cons.mp hmem with rfl | hmem
      · exact hfirst
      · exact hothers type hmem

end

/-- **The parser takes the tokens of a syntax tree back to the tree.** -/
theorem foldlM_kinds {type : TypeExpr} (h : isSentence type = true) :
    ∃ state : State, (kinds type).foldlM State.step grammar.start = some state ∧
      state.finish = some type := by
  obtain ⟨state, hframes, hunion, hread⟩ := (readsAs type h).2 []
  refine ⟨state, hread, ?_⟩
  unfold State.finish
  rw [hframes]
  exact hunion

/-! ## What the parser builds -/

/-- Whether the grammar has a type expression as one term. -/
def IsTerm (type : TypeExpr) : Prop :=
  isUnion type = false ∧ isSentence type = true

theorem areSentences_iff {types : List TypeExpr} :
    areSentences types = true ↔ ∀ type ∈ types, isSentence type = true := by
  induction types with
  | nil => exact ⟨fun _ _ hmem => absurd hmem List.not_mem_nil, fun _ => rfl⟩
  | cons type types ih => rw [areSentences, Bool.and_eq_true, ih, List.forall_mem_cons]

theorem areTerms_iff {types : List TypeExpr} :
    areTerms types = true ↔ ∀ type ∈ types, IsTerm type := by
  induction types with
  | nil => exact ⟨fun _ _ hmem => absurd hmem List.not_mem_nil, fun _ => rfl⟩
  | cons type types ih =>
      rw [areTerms, Bool.and_eq_true, Bool.and_eq_true, Bool.not_eq_true', ih, List.forall_mem_cons]
      rfl

theorem isTerm_named (name : String) {arguments : List TypeExpr}
    (h : ∀ argument ∈ arguments, isSentence argument = true) : IsTerm (named name arguments) := by
  refine ⟨rfl, ?_⟩
  rw [isSentence]
  exact areSentences_iff.mpr h

/-- One term or several make a sentence. -/
theorem isSentence_ofAlternatives {alternatives : List TypeExpr} (hne : alternatives ≠ [])
    (h : ∀ alternative ∈ alternatives, IsTerm alternative) :
    isSentence (ofAlternatives alternatives) = true := by
  match alternatives with
  | [alternative] => exact (h alternative List.mem_cons_self).2
  | first :: second :: others =>
      have hterms := areTerms_iff.mpr h
      have hunion : ofAlternatives (first :: second :: others) =
          .union (first :: second :: others) := rfl
      rw [hunion, isSentence, hterms, Bool.and_true, decide_eq_true_eq]
      exact Nat.le_add_left 2 others.length

/-- Whether what stands before an open bracket is of the grammar. -/
structure Frame.Grammatical (frame : Frame) : Prop where
  beside : ∀ alternative ∈ frame.beside, IsTerm alternative
  arguments : ∀ argument ∈ frame.arguments, isSentence argument = true

/-- Whether all that the parser has read so far is of the grammar. -/
structure State.Grammatical (state : State) : Prop where
  frames : ∀ frame ∈ state.frames, frame.Grammatical
  alternatives : ∀ alternative ∈ state.alternatives, IsTerm alternative
  term : ∀ term, state.term? = some term → IsTerm term

theorem State.grammatical_expecting {frames : List Frame} {alternatives : List TypeExpr}
    (hframes : ∀ frame ∈ frames, frame.Grammatical)
    (halternatives : ∀ alternative ∈ alternatives, IsTerm alternative) :
    State.Grammatical ⟨frames, alternatives, .expecting⟩ :=
  ⟨hframes, halternatives, fun _ hterm => absurd hterm (Option.some_ne_none _).symm⟩

theorem grammatical_start : grammar.start.Grammatical :=
  State.grammatical_expecting (fun _ hmem => absurd hmem List.not_mem_nil)
    fun _ hmem => absurd hmem List.not_mem_nil

namespace State.Grammatical

variable {state : State} (h : state.Grammatical)
include h

theorem union {type : TypeExpr} (htype : state.union? = some type) : isSentence type = true := by
  obtain ⟨term, hterm, rfl⟩ := Option.map_eq_some_iff.mp htype
  refine isSentence_ofAlternatives (by simp) fun alternative hmem => ?_
  rcases List.mem_cons.mp (List.mem_reverse.mp hmem) with rfl | hmem
  · exact h.term _ hterm
  · exact h.alternatives _ hmem

/-- The parser goes on from a term behind the alternatives that it has read. -/
theorem withFocus {focus : Focus} {term : TypeExpr} (hterm : IsTerm term)
    (hfocus : State.term? ⟨state.frames, state.alternatives, focus⟩ = some term) :
    State.Grammatical ⟨state.frames, state.alternatives, focus⟩ where
  frames := h.frames
  alternatives := h.alternatives
  term other hother := by
    rw [hfocus] at hother
    exact Option.some.inj hother ▸ hterm

/-- A token that is taken keeps what has been read in the grammar. -/
theorem step {next : State} {kind : TokenKind} (hstep : state.step kind = some next) :
    next.Grammatical := by
  have hnone : ∀ argument ∈ ([] : List TypeExpr), isSentence argument = true :=
    fun _ hmem => absurd hmem List.not_mem_nil
  have hnoTerm : ∀ alternative ∈ ([] : List TypeExpr), IsTerm alternative :=
    fun _ hmem => absurd hmem List.not_mem_nil
  cases kind with
  | name value =>
      simp only [State.step] at hstep
      split at hstep
      · obtain rfl := Option.some.inj hstep
        exact h.withFocus (isTerm_named value hnone) rfl
      · contradiction
  | text _ | number _ =>
      simp only [State.step] at hstep
      split at hstep
      · obtain rfl := Option.some.inj hstep
        exact h.withFocus ⟨rfl, rfl⟩ rfl
      · contradiction
  | opening =>
      simp only [State.step] at hstep
      split at hstep
      · obtain rfl := Option.some.inj hstep
        exact grammatical_expecting
          (List.forall_mem_cons.mpr ⟨⟨h.alternatives, hnone⟩, h.frames⟩) hnoTerm
      · contradiction
  | closing =>
      simp only [State.step] at hstep
      split at hstep
      · next frame frames last hframes hlast =>
          obtain rfl := Option.some.inj hstep
          obtain ⟨hframe, hbelow⟩ := List.forall_mem_cons.mp (hframes ▸ h.frames)
          have harguments : ∀ argument ∈ last :: frame.arguments, isSentence argument = true :=
            List.forall_mem_cons.mpr ⟨h.union hlast, hframe.arguments⟩
          refine ⟨hbelow, hframe.beside, fun term hterm => ?_⟩
          rw [← Option.some.inj hterm]
          exact isTerm_named frame.name fun argument hmem =>
            harguments argument (List.mem_reverse.mp hmem)
      · contradiction
  | bar =>
      obtain ⟨term, hterm, rfl⟩ := Option.map_eq_some_iff.mp hstep
      exact grammatical_expecting h.frames
        (List.forall_mem_cons.mpr ⟨h.term term hterm, h.alternatives⟩)
  | comma =>
      simp only [State.step] at hstep
      split at hstep
      · next frame frames argument hframes hargument =>
          obtain rfl := Option.some.inj hstep
          obtain ⟨hframe, hbelow⟩ := List.forall_mem_cons.mp (hframes ▸ h.frames)
          have harguments : ∀ other ∈ argument :: frame.arguments, isSentence other = true :=
            List.forall_mem_cons.mpr ⟨h.union hargument, hframe.arguments⟩
          exact grammatical_expecting
            (List.forall_mem_cons.mpr ⟨⟨hframe.beside, harguments⟩, hbelow⟩) hnoTerm
      · contradiction

/-- Along a run what has been read stays in the grammar. -/
theorem foldlM {tokens : List TokenKind} {final : State}
    (hrun : tokens.foldlM State.step state = some final) : final.Grammatical := by
  induction tokens generalizing state with
  | nil =>
      obtain rfl := Option.some.inj hrun
      exact h
  | cons kind tokens ih =>
      rw [List.foldlM_cons] at hrun
      obtain ⟨next, hstep, hrest⟩ := Option.bind_eq_some_iff.mp hrun
      exact ih (h.step hstep) hrest

end State.Grammatical

/-- **The syntax trees of the grammar are those that the parser gives for some tokens.** -/
theorem isSentence_iff {type : TypeExpr} :
    isSentence type = true ↔ ∃ (tokens : List TokenKind) (final : State),
      tokens.foldlM State.step grammar.start = some final ∧ final.finish = some type := by
  constructor
  · intro h
    obtain ⟨final, hrun, hfinish⟩ := foldlM_kinds h
    exact ⟨kinds type, final, hrun, hfinish⟩
  · rintro ⟨tokens, final, hrun, hfinish⟩
    have hfinal := grammatical_start.foldlM hrun
    unfold State.finish at hfinish
    split at hfinish
    · exact hfinal.union hfinish
    · contradiction

/-! ## Tokens side by side -/

/-- Whether a token is a punctuation mark. -/
def TokenKind.isMark : TokenKind → Bool
  | opening | closing | bar | comma => true
  | name _ | text _ | number _ => false

/-- A token that is no mark is taken where a term has to follow, and leaves no room for another. -/
theorem focus_of_step {state next : State} {kind : TokenKind} (hkind : kind.isMark = false)
    (h : state.step kind = some next) : state.focus = .expecting ∧ next.focus ≠ .expecting := by
  cases kind with
  | name _ | text _ | number _ =>
      simp only [State.step] at h
      split at h
      · next hfocus =>
          obtain rfl := Option.some.inj h
          exact ⟨hfocus, by simp⟩
      · contradiction
  | opening | closing | bar | comma => contradiction

/-- Behind a token that is a term the parser takes a mark only. -/
theorem isChain_of_foldlM {tokens : List TokenKind} {state final : State}
    (h : tokens.foldlM State.step state = some final) :
    tokens.IsChain fun kind next => kind.isMark = true ∨ next.isMark = true := by
  induction tokens generalizing state with
  | nil => exact .nil
  | cons kind tokens ih =>
      rw [List.foldlM_cons] at h
      obtain ⟨after, hstep, hrest⟩ := Option.bind_eq_some_iff.mp h
      cases tokens with
      | nil => exact .singleton kind
      | cons next tokens =>
          refine .cons_cons ?_ (ih hrest)
          rw [List.foldlM_cons] at hrest
          obtain ⟨_, hnext, -⟩ := Option.bind_eq_some_iff.mp hrest
          by_contra hterms
          simp only [not_or, Bool.not_eq_true] at hterms
          exact (focus_of_step hterms.1 hstep).2 (focus_of_step hterms.2 hnext).1

end TypeExpr
end SurrealSchema
