import SurrealSchema.Proofs.Recognition
import SurrealSchema.Query.Head

namespace SurrealSchema
namespace Query

/-!
# The grammar of heads

The productions of the grammar of heads, one constructor for each, and the parser that recognises
it.  Every state of the parser stands for the phrases read so far and has a shortest way to the end
of a head.

Main statement: `recognises_derives`.
-/

/-! ## Productions -/

/-- The phrases of the grammar. -/
inductive Phrase where
  | head
  | selection
  | item
  | path

/-- Whether some tokens are derived from a phrase.  Selections and paths recurse on the left. -/
inductive Derives : Phrase → List TokenKind → Prop
  | head (first second table : String) {selection : List TokenKind}
      (h : Derives .selection selection) :
      Derives .head (.selectWord first :: (selection ++ [.fromWord second, .name table]))
  | oneItem {item : List TokenKind} (h : Derives .item item) : Derives .selection item
  | moreItems {selection item : List TokenKind} (h : Derives .selection selection)
      (hitem : Derives .item item) : Derives .selection (selection ++ .comma :: item)
  | star : Derives .item [.star]
  | path {path : List TokenKind} (h : Derives .path path) : Derives .item path
  | name (value : String) : Derives .path [.name value]
  | dottedName (value : String) {path : List TokenKind} (h : Derives .path path) :
      Derives .path (path ++ [.dot, .name value])
  | dottedStar {path : List TokenKind} (h : Derives .path path) :
      Derives .path (path ++ [.dot, .star])

/-! ## Heads are read -/

/-- Whether a path may end in a state: a comma or the word in front of the table goes on. -/
def HeadState.EndsPath (state : HeadState) : Prop :=
  ∃ paths : List Path, state.step .comma = some (.expectingPath paths) ∧
    ∀ spelling, state.step (.fromWord spelling) = some (.expectingTable paths.reverse)

/-- How the parser takes the tokens of a phrase. -/
def Phrase.IsTaken : Phrase → List TokenKind → Prop
  | .head, tokens => ∃ head, tokens.foldlM HeadState.step .start = some (.complete head)
  | .selection, tokens | .item, tokens => ∀ done, ∃ state : HeadState, state.EndsPath ∧
      tokens.foldlM HeadState.step (.expectingPath done) = some state
  | .path, tokens => ∀ done, ∃ segments,
      tokens.foldlM HeadState.step (.expectingPath done) = some (.inPath done segments)

/-- **The parser takes whatever is derived from a phrase.** -/
theorem Derives.isTaken {phrase : Phrase} {tokens : List TokenKind} (h : Derives phrase tokens) :
    phrase.IsTaken tokens := by
  induction h with
  | head first second table _ ih =>
      obtain ⟨state, ⟨paths, -, hfrom⟩, hsteps⟩ := ih []
      have hselect : HeadState.start.step (.selectWord first) = some (.expectingPath []) := rfl
      have htable : (HeadState.expectingTable paths.reverse).step (.name table) =
          some (.complete ⟨paths.reverse, table⟩) := rfl
      exact ⟨⟨paths.reverse, table⟩, by simp [hselect, hsteps, hfrom, htable]⟩
  | oneItem _ ih => exact ih
  | moreItems _ _ ih ihitem =>
      intro done
      obtain ⟨state, ⟨paths, hcomma, -⟩, hsteps⟩ := ih done
      obtain ⟨next, hnext, hread⟩ := ihitem paths
      exact ⟨next, hnext, by simp [hsteps, hcomma, hread]⟩
  | star =>
      intro done
      exact ⟨.afterStar done, ⟨["*"] :: done, rfl, fun _ => rfl⟩, rfl⟩
  | path _ ih =>
      intro done
      obtain ⟨segments, hsteps⟩ := ih done
      exact ⟨_, ⟨segments.reverse :: done, rfl, fun _ => rfl⟩, hsteps⟩
  | name value => exact fun done => ⟨[value], rfl⟩
  | dottedName value _ ih =>
      intro done
      obtain ⟨segments, hsteps⟩ := ih done
      exact ⟨value :: segments, by simp [hsteps, HeadState.step]⟩
  | dottedStar _ ih =>
      intro done
      obtain ⟨segments, hsteps⟩ := ih done
      exact ⟨"*" :: segments, by simp [hsteps, HeadState.step]⟩

/-! ## What has been read -/

/-- Whether some tokens are the first word of a head and the items in front of the present one. -/
def IsFront (tokens : List TokenKind) : Prop :=
  ∃ spelling, tokens = [.selectWord spelling] ∨
    ∃ before, Derives .selection before ∧ tokens = .selectWord spelling :: (before ++ [.comma])

/-- Whether some tokens are the first word of a head and a whole selection. -/
def IsSelected (tokens : List TokenKind) : Prop :=
  ∃ spelling selection, Derives .selection selection ∧ tokens = .selectWord spelling :: selection

/-- Whether the parser is in a state after some tokens, as far as the grammar can tell. -/
def HeadState.Reads : HeadState → List TokenKind → Prop
  | start, tokens => tokens = []
  | expectingPath _, tokens => IsFront tokens
  | afterStar _, tokens => ∃ front, IsFront front ∧ tokens = front ++ [.star]
  | inPath _ _, tokens => ∃ front path, IsFront front ∧ Derives .path path ∧ tokens = front ++ path
  | afterDot _ _, tokens =>
      ∃ front path, IsFront front ∧ Derives .path path ∧ tokens = front ++ (path ++ [.dot])
  | expectingTable _, tokens =>
      ∃ selected spelling, IsSelected selected ∧ tokens = selected ++ [.fromWord spelling]
  | complete _, tokens => Derives .head tokens

theorem IsFront.item {front item : List TokenKind} (h : IsFront front)
    (hitem : Derives .item item) :
    IsSelected (front ++ item) := by
  obtain ⟨spelling, rfl | ⟨before, hbefore, rfl⟩⟩ := h
  · exact ⟨spelling, item, .oneItem hitem, rfl⟩
  · exact ⟨spelling, _, .moreItems hbefore hitem, by simp⟩

theorem IsSelected.comma {tokens : List TokenKind} (h : IsSelected tokens) :
    IsFront (tokens ++ [.comma]) := by
  obtain ⟨spelling, selection, hselection, rfl⟩ := h
  exact ⟨spelling, Or.inr ⟨selection, hselection, rfl⟩⟩

theorem isSelected_of_afterStar {done : List Path} {tokens : List TokenKind}
    (h : (HeadState.afterStar done).Reads tokens) : IsSelected tokens := by
  obtain ⟨front, hfront, rfl⟩ := h
  exact hfront.item .star

theorem isSelected_of_inPath {done : List Path} {segments : List String} {tokens : List TokenKind}
    (h : (HeadState.inPath done segments).Reads tokens) : IsSelected tokens := by
  obtain ⟨front, path, hfront, hpath, rfl⟩ := h
  exact hfront.item (.path hpath)

theorem reads_start : HeadState.start.Reads [] := rfl

/-- **A token that the parser takes extends what has been read.** -/
theorem HeadState.Reads.step {state next : HeadState} {tokens : List TokenKind} {kind : TokenKind}
    (h : state.Reads tokens) (hstep : state.step kind = some next) :
    next.Reads (tokens ++ [kind]) := by
  unfold HeadState.step at hstep
  -- One case for each arm of the step, in its order.
  split at hstep <;> try obtain rfl := Option.some.inj hstep
  · next spelling =>
      have hnil : tokens = [] := h
      exact ⟨spelling, Or.inl (by simp [hnil])⟩
  · exact ⟨tokens, h, rfl⟩
  · next done value => exact ⟨tokens, [.name value], h, .name value, rfl⟩
  · exact (isSelected_of_afterStar h).comma
  · exact ⟨tokens, _, isSelected_of_afterStar h, rfl⟩
  · obtain ⟨front, path, hfront, hpath, rfl⟩ := h
    exact ⟨front, path, hfront, hpath, by simp⟩
  · exact (isSelected_of_inPath h).comma
  · exact ⟨tokens, _, isSelected_of_inPath h, rfl⟩
  · next done segments value =>
      obtain ⟨front, path, hfront, hpath, rfl⟩ := h
      exact ⟨front, _, hfront, .dottedName value hpath, by simp⟩
  · obtain ⟨front, path, hfront, hpath, rfl⟩ := h
    exact ⟨front, _, hfront, .dottedStar hpath, by simp⟩
  · next paths table =>
      obtain ⟨selected, second, ⟨first, selection, hselection, rfl⟩, rfl⟩ := h
      have hhead := Derives.head first second table hselection
      simpa [HeadState.Reads] using hhead
  · contradiction

/-! ## Completing a head -/

/-- A shortest way from a state to the end of a head. -/
def HeadState.completion : HeadState → List TokenKind
  | start => [.selectWord "SELECT", .star, .fromWord "FROM", .name "record"]
  | expectingPath _ => [.star, .fromWord "FROM", .name "record"]
  | afterStar _ | inPath _ _ => [.fromWord "FROM", .name "record"]
  | afterDot _ _ => [.star, .fromWord "FROM", .name "record"]
  | expectingTable _ => [.name "record"]
  | complete _ => []

theorem exists_finish_of_completion (state : HeadState) :
    ∃ head, state.completion.foldlM HeadState.step state = some (.complete head) := by
  cases state <;> exact ⟨_, rfl⟩

/-- **The parser recognises the language of the grammar.** -/
theorem recognises_derives : headGrammar.Recognises (Derives .head) where
  sound := by
    intro tokens final hsteps hfinal
    have hreads := Grammar.reads_of_foldlM reads_start HeadState.Reads.step hsteps
    cases final with
    | complete head => exact hreads
    | start | expectingPath _ | afterStar _ | inPath _ _ | afterDot _ _ | expectingTable _ =>
        contradiction
  complete := by
    intro tokens h
    obtain ⟨head, hsteps⟩ := h.isTaken
    exact ⟨.complete head, hsteps, rfl⟩
  completion := by
    intro _ state _
    obtain ⟨head, hsteps⟩ := exists_finish_of_completion state
    exact ⟨state.completion, .complete head, hsteps, rfl⟩

end Query
end SurrealSchema
