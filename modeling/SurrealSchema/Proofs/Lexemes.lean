import SurrealSchema.Proofs.Token

namespace SurrealSchema
namespace Tokens

/-!
# What the tokens of a text account for

A language has lexemes, texts each of which stands for a token.  A reader that always takes the
longest lexeme at the front of a text cuts the whole text into lexemes and gaps, unless it comes to
a place at which neither starts; and then it has cut the text in front of that place.

Main statement: `IsReader.accounts`.
-/

variable {κ : Type}

/-! ## Longest lexemes -/

/-- Whether a lexeme stands at the front of a text and no longer one does. -/
structure IsLongest (Lexeme : List Char → κ → Prop) (text source : List Char) (kind : κ) :
    Prop where
  stands : source <+: text
  lexeme : Lexeme source kind
  longest : ∀ other found, other <+: text → Lexeme other found → other.length ≤ source.length

/-- Whether what a reader takes at the front of a text is a lexeme, and where a lexeme stands it
takes that one or a longer one. -/
structure IsReader (Lexeme : List Char → κ → Prop) (reader : List Char → Option (κ × Nat)) :
    Prop where
  sound : ∀ {text : List Char} {kind : κ} {more : Nat}, reader text = some (kind, more) →
    ∃ source rest, text = source ++ rest ∧ source.length = more + 1 ∧ Lexeme source kind
  complete : ∀ {source : List Char} {kind : κ}, Lexeme source kind → ∀ rest,
    ∃ found more, reader (source ++ rest) = some (found, more) ∧ source.length ≤ more + 1 ∧
      (source.length = more + 1 → found = kind)

section Reader

variable {Lexeme : List Char → κ → Prop} {reader : List Char → Option (κ × Nat)}
  {text : List Char} {kind : κ} {more : Nat}

/-- A reader takes the longest lexeme. -/
theorem IsReader.isLongest (h : IsReader Lexeme reader) (hread : reader text = some (kind, more)) :
    more < text.length ∧ IsLongest Lexeme text (text.take (more + 1)) kind := by
  obtain ⟨source, rest, rfl, hlength, hlexeme⟩ := h.sound hread
  have htake : (source ++ rest).take (more + 1) = source := List.take_left' hlength
  refine ⟨by simp; omega, ?_⟩
  rw [htake]
  refine ⟨List.prefix_append source rest, hlexeme, fun other found hother hfound => ?_⟩
  obtain ⟨rest', hsplit⟩ := hother
  obtain ⟨found', more', hread', hle, -⟩ := h.complete hfound rest'
  rw [hsplit, hread] at hread'
  have hmore : more = more' := (Prod.mk.inj (Option.some.inj hread')).2
  omega

/-- Where a reader takes nothing, no lexeme stands. -/
theorem IsReader.not_lexeme (h : IsReader Lexeme reader) (hread : reader text = none) :
    ∀ source kind, source <+: text → ¬ Lexeme source kind := by
  rintro source kind ⟨rest, rfl⟩ hlexeme
  obtain ⟨found, more, hsome, -⟩ := h.complete hlexeme rest
  rw [hread] at hsome
  contradiction

/-- What a reader takes does not depend on how far the text goes on behind it. -/
theorem IsReader.take (h : IsReader Lexeme reader) (hread : reader text = some (kind, more))
    {size : Nat} (hsize : more < size) : reader (text.take size) = some (kind, more) := by
  obtain ⟨source, rest, rfl, hlength, hlexeme⟩ := h.sound hread
  have hsplit : (source ++ rest).take size = source ++ rest.take (size - source.length) := by
    rw [List.take_append, List.take_of_length_le (by omega)]
  obtain ⟨found, more', hread', hle, hsame⟩ := h.complete hlexeme (rest.take (size - source.length))
  rw [hsplit, hread']
  -- A longer lexeme in the part would be one in the whole text.
  obtain ⟨hlt, hlongest'⟩ := h.isLongest hread'
  have hwhole : (source ++ rest.take (size - source.length)).take (more' + 1) <+: source ++ rest :=
    hlongest'.stands.trans (hsplit ▸ List.take_prefix size (source ++ rest))
  have hbound := (h.isLongest hread).2.longest _ _ hwhole hlongest'.lexeme
  rw [List.length_take, List.length_take] at hbound
  have hmore : more' = more := by
    simp only [List.length_append] at hbound hlt
    omega
  rw [hsame (by omega), hmore]

end Reader

/-! ## Cutting step by step -/

theorem readFrom_gap (reader : List Char → Option (κ × Nat)) {c : Char} (hgap : isGap c = true)
    (start : Nat) (text : List Char) :
    readFrom reader 0 start (c :: text) = readFrom reader 0 (start + 1) text := by
  rw [readFrom, if_pos hgap]

theorem readFrom_illegal {reader : List Char → Option (κ × Nat)} {c : Char} {text : List Char}
    (hgap : isGap c = false) (hread : reader (c :: text) = none) (start : Nat) :
    readFrom reader 0 start (c :: text) = ⟨[], some (c, start)⟩ := by
  rw [readFrom, hgap, if_neg Bool.false_ne_true, hread]

theorem readFrom_token {reader : List Char → Option (κ × Nat)} {c : Char} {text : List Char}
    {kind : κ} {more : Nat} (hgap : isGap c = false)
    (hread : reader (c :: text) = some (kind, more)) (start : Nat) :
    readFrom reader 0 start (c :: text) =
      cons ⟨kind, start, c :: text.take more⟩
        (readFrom reader 0 (start + 1 + more) (text.drop more)) := by
  rw [readFrom, hgap, if_neg Bool.false_ne_true, hread]
  dsimp only
  rw [readFrom_drop]

/-- A text is cut from the front: a gap is passed over, a token is taken as a whole, and where
neither starts the cutting ends. -/
@[elab_as_elim]
theorem readFrom_induction (reader : List Char → Option (κ × Nat))
    {motive : Nat → List Char → Prop} (nil : ∀ start, motive start [])
    (gap : ∀ start c text, isGap c = true → motive (start + 1) text → motive start (c :: text))
    (illegal : ∀ start c text, isGap c = false → reader (c :: text) = none →
      motive start (c :: text))
    (token : ∀ start c text kind more, isGap c = false → reader (c :: text) = some (kind, more) →
      motive (start + 1 + more) (text.drop more) → motive start (c :: text)) :
    ∀ start text, motive start text
  | start, [] => nil start
  | start, c :: text => by
      have hrest : ∀ place more, motive place (text.drop more) := fun place more =>
        readFrom_induction reader nil gap illegal token place (text.drop more)
      cases hgap : isGap c with
      | true => exact gap start c text hgap (hrest _ 0)
      | false =>
          cases hread : reader (c :: text) with
          | none => exact illegal start c text hgap hread
          | some found => exact token start c text found.1 found.2 hgap hread (hrest _ _)
termination_by _ text => text.length
decreasing_by
  simp only [List.length_drop, List.length_cons]
  omega

/-! ## What tokens cover -/

/-- Whether tokens are what a text from a place on consists of, apart from gaps: they stand one
behind the other, each is the longest lexeme at its place, and no other character is left over. -/
structure CoversFrom (Lexeme : List Char → κ → Prop) (start : Nat) (text : List Char)
    (tokens : List (Token κ)) : Prop where
  /-- The positions strictly increase. -/
  increasing : tokens.Pairwise fun first second => first.position < second.position
  /-- No two tokens overlap. -/
  disjoint : tokens.Pairwise fun first second =>
    first.position + first.source.length ≤ second.position
  behind : ∀ token ∈ tokens, start ≤ token.position
  /-- The source of a token is the slice of the text at its position, and its kind is what the slice
  stands for. -/
  isLongest : ∀ token ∈ tokens,
    IsLongest Lexeme (text.drop (token.position - start)) token.source token.kind
  /-- Whatever is no gap is part of a token. -/
  covered : ∀ place c, text[place]? = some c → isGap c = false →
    ∃ token ∈ tokens, token.position ≤ start + place ∧
      start + place < token.position + token.source.length

/-- Whether tokens are what a text consists of, apart from gaps. -/
abbrev Covers (Lexeme : List Char → κ → Prop) (text : List Char) (tokens : List (Token κ)) : Prop :=
  CoversFrom Lexeme 0 text tokens

section Covers

variable {Lexeme : List Char → κ → Prop} {start : Nat} {text : List Char}
  {tokens : List (Token κ)}

theorem coversFrom_nil : CoversFrom Lexeme start [] ([] : List (Token κ)) where
  increasing := .nil
  disjoint := .nil
  behind := by simp
  isLongest := by simp
  covered := by simp

theorem CoversFrom.gap {c : Char} (hgap : isGap c = true)
    (h : CoversFrom Lexeme (start + 1) text tokens) :
    CoversFrom Lexeme start (c :: text) tokens where
  increasing := h.increasing
  disjoint := h.disjoint
  behind := fun token hmem => Nat.le_of_succ_le (h.behind token hmem)
  isLongest := by
    intro token hmem
    have hbehind := h.behind token hmem
    have hplace : token.position - start = token.position - (start + 1) + 1 := by omega
    rw [hplace, List.drop_succ_cons]
    exact h.isLongest token hmem
  covered := by
    intro place d hplace hd
    cases place with
    | zero =>
        rw [List.getElem?_cons_zero] at hplace
        rw [Option.some.inj hplace] at hgap
        rw [hgap] at hd
        contradiction
    | succ place =>
        rw [List.getElem?_cons_succ] at hplace
        obtain ⟨token, hmem, hcover⟩ := h.covered place d hplace hd
        exact ⟨token, hmem, by omega, by omega⟩

theorem CoversFrom.token {source rest : List Char} {kind : κ}
    (hsource : IsLongest Lexeme (source ++ rest) source kind) (hne : 0 < source.length)
    (h : CoversFrom Lexeme (start + source.length) rest tokens) :
    CoversFrom Lexeme start (source ++ rest) (⟨kind, start, source⟩ :: tokens) where
  increasing := by
    refine List.pairwise_cons.mpr ⟨fun token hmem => ?_, h.increasing⟩
    have hbehind := h.behind token hmem
    show start < token.position
    omega
  disjoint := List.pairwise_cons.mpr ⟨h.behind, h.disjoint⟩
  behind := by
    refine List.forall_mem_cons.mpr ⟨Nat.le_refl start, fun token hmem => ?_⟩
    exact Nat.le_of_add_right_le (h.behind token hmem)
  isLongest := by
    refine List.forall_mem_cons.mpr ⟨?_, fun token hmem => ?_⟩
    · show IsLongest Lexeme ((source ++ rest).drop (start - start)) source kind
      rw [Nat.sub_self, List.drop_zero]
      exact hsource
    · have hbehind := h.behind token hmem
      have hplace : token.position - start =
          source.length + (token.position - (start + source.length)) := by omega
      rw [hplace, List.drop_length_add_append]
      exact h.isLongest token hmem
  covered := by
    intro place c hplace hc
    by_cases hinside : place < source.length
    · refine ⟨⟨kind, start, source⟩, List.mem_cons_self, ?_, ?_⟩
      · exact Nat.le_add_right start place
      · exact Nat.add_lt_add_left hinside start
    · rw [List.getElem?_append_right (Nat.le_of_not_lt hinside)] at hplace
      obtain ⟨token, hmem, hcover⟩ := h.covered _ c hplace hc
      exact ⟨token, List.mem_cons_of_mem _ hmem, by omega, by omega⟩

variable {reader : List Char → Option (κ × Nat)}

/-- **A text in which a token starts wherever one has to is covered by its tokens.** -/
theorem IsReader.coversFrom (h : IsReader Lexeme reader) (start : Nat) (text : List Char)
    (hlegal : (readFrom reader 0 start text).illegal = none) :
    CoversFrom Lexeme start text (readFrom reader 0 start text).tokens := by
  induction start, text using readFrom_induction reader with
  | nil start => exact coversFrom_nil
  | gap start c text hgap ih =>
      rw [readFrom_gap reader hgap] at hlegal ⊢
      exact (ih hlegal).gap hgap
  | illegal start c text hgap hread =>
      rw [readFrom_illegal hgap hread] at hlegal
      contradiction
  | token start c text kind more hgap hread ih =>
      rw [readFrom_token hgap hread] at hlegal ⊢
      obtain ⟨hlt, hlongest⟩ := h.isLongest hread
      have hplace : start + 1 + more = start + (c :: text.take more).length := by
        simp only [List.length_cons, List.length_take] at hlt ⊢
        omega
      have hsplit : c :: text.take more ++ text.drop more = c :: text := by simp
      have hrest := ih hlegal
      rw [hplace] at hrest ⊢
      rw [List.take_succ_cons, ← hsplit] at hlongest
      rw [← hsplit]
      exact hrest.token hlongest (Nat.succ_pos _)

/-- A text in which no token starts at some place is cut up to there. -/
theorem IsReader.exists_illegal (h : IsReader Lexeme reader) (start : Nat) (text : List Char)
    {c : Char} {position : Nat}
    (hstop : (readFrom reader 0 start text).illegal = some (c, position)) :
    ∃ size, position = start + size ∧ text[size]? = some c ∧ isGap c = false ∧
      reader (text.drop size) = none ∧
      readFrom reader 0 start (text.take size) = ⟨(readFrom reader 0 start text).tokens, none⟩ := by
  induction start, text using readFrom_induction reader with
  | nil start => contradiction
  | gap start d text hgap ih =>
      rw [readFrom_gap reader hgap] at hstop
      obtain ⟨size, rfl, hplace, hc, hnone, htokens⟩ := ih hstop
      refine ⟨size + 1, by omega, hplace, hc, hnone, ?_⟩
      rw [List.take_succ_cons, readFrom_gap reader hgap, readFrom_gap reader hgap, htokens]
  | illegal start d text hgap hread =>
      rw [readFrom_illegal hgap hread] at hstop ⊢
      obtain ⟨rfl, rfl⟩ := Prod.mk.inj (Option.some.inj hstop)
      exact ⟨0, rfl, rfl, hgap, hread, rfl⟩
  | token start d text kind more hgap hread ih =>
      rw [readFrom_token hgap hread] at hstop
      obtain ⟨size, rfl, hplace, hc, hnone, htokens⟩ := ih hstop
      -- The first token lies in front of the character, so the part is cut in the same way.
      have hinside : more < more + size + 1 := by omega
      have hpart := h.take hread hinside
      rw [List.take_succ_cons] at hpart
      refine ⟨more + size + 1, by omega, ?_, hc, ?_, ?_⟩
      · rw [List.getElem?_cons_succ, ← List.getElem?_drop]
        exact hplace
      · rw [List.drop_succ_cons, ← List.drop_drop]
        exact hnone
      · rw [List.take_succ_cons, readFrom_token hgap hpart, readFrom_token hgap hread,
          List.take_take, List.drop_take, Nat.add_sub_cancel_left, htokens,
          Nat.min_eq_left (Nat.le_add_right more size)]
        rfl

end Covers

/-! ## Whole texts -/

/-- What the cutting of a text comes to: its tokens cover all of it, or it is stopped by a character
that is no gap and at which no lexeme starts, and what the text in front of that character is cut
into covers that text. -/
inductive Accounts (Lexeme : List Char → κ → Prop)
    (tokenize : List Char → Except Rejection (List (Token κ))) (text : List Char) : Prop
  | whole {tokens : List (Token κ)} (htokens : tokenize text = .ok tokens)
      (hcovers : Covers Lexeme text tokens)
  | stopped {c : Char} {position : Nat} {tokens : List (Token κ)}
      (hstop : tokenize text = .error (.illegalCharacter c position))
      (hplace : text[position]? = some c) (hgap : isGap c = false)
      (hnone : ∀ source kind, source <+: text.drop position → ¬ Lexeme source kind)
      (htokens : tokenize (text.take position) = .ok tokens)
      (hcovers : Covers Lexeme (text.take position) tokens)

theorem complete_eq_ok {tokens : Tokens κ} (h : tokens.illegal = none) :
    tokens.complete = .ok tokens.tokens := by
  simp [complete, h]

theorem complete_eq_error {tokens : Tokens κ} {c : Char} {position : Nat}
    (h : tokens.illegal = some (c, position)) :
    tokens.complete = .error (.illegalCharacter c position) := by
  simp [complete, h]

/-- **Cutting a text loses nothing and stops where no lexeme starts.** -/
theorem IsReader.accounts {Lexeme : List Char → κ → Prop} {reader : List Char → Option (κ × Nat)}
    (h : IsReader Lexeme reader) (text : List Char) :
    Accounts Lexeme (fun text => (read reader text).complete) text := by
  cases hillegal : (read reader text).illegal with
  | none => exact .whole (complete_eq_ok hillegal) (h.coversFrom 0 text hillegal)
  | some stop =>
      obtain ⟨c, position⟩ := stop
      obtain ⟨size, hsize, hplace, hgap, hnone, htokens⟩ := h.exists_illegal 0 text hillegal
      have hposition : position = size := by omega
      subst hposition
      have hlegal : (read reader (text.take position)).illegal = none := by
        rw [read, htokens]
      exact .stopped (complete_eq_error hillegal) hplace hgap (h.not_lexeme hnone)
        (complete_eq_ok hlegal) (h.coversFrom 0 _ hlegal)

end Tokens

/-! ## Names -/

namespace Token

/-- Where a word stands, a reader that takes whole words takes it with whatever goes on behind it. -/
theorem exists_of_isIdentifier {κ : Type} {reader : List Char → Option (κ × Nat)}
    (kindOf : List Char → κ)
    (hreader : ∀ {c : Char}, startsName c = true → ∀ text, reader (c :: text) =
      some (kindOf (c :: text.takeWhile continuesName), (text.takeWhile continuesName).length))
    {word : List Char} (h : isIdentifier word = true) (rest : List Char) :
    ∃ found more, reader (word ++ rest) = some (found, more) ∧ word.length ≤ more + 1 ∧
      (word.length = more + 1 → found = kindOf word) := by
  cases word with
  | nil => contradiction
  | cons c name =>
      obtain ⟨hc, hname⟩ := isIdentifier_cons.mp h
      have hread := hreader hc (name ++ rest)
      rw [List.takeWhile_append_of_pos hname] at hread
      refine ⟨_, _, hread, by simp, fun hlength => ?_⟩
      have hrun : rest.takeWhile continuesName = [] := by
        simpa using hlength
      rw [hrun, List.append_nil]

end Token
end SurrealSchema
