import SurrealSchema.Token
import SurrealSchema.Proofs.Text.Class
import SurrealSchema.Proofs.Text.Words

namespace SurrealSchema

/-!
# Texts and their tokens

What a text is cut into, told apart from the places at which the tokens stand, and what a grammar
makes of it: if its steps lead from the tokens to a final state, the text is parsed to the result
of that state.
-/

/-! ## Names -/

namespace Token

theorem continuesName_of_startsName {c : Char} (h : startsName c = true) :
    continuesName c = true := by
  simp only [startsName, continuesName, Char.isAlphanum, Bool.or_eq_true] at h ⊢
  rcases h with h | h
  · exact Or.inl (Or.inl h)
  · exact Or.inr h

theorem isWord_of_continuesName {c : Char} (h : continuesName c = true) :
    c.toNat < 128 ∧ Text.isWord c = true := by
  have hascii : c.toNat < 128 := by
    have hupto : ∀ {last : Char}, c.val ≤ last.val → last.toNat < 128 → c.toNat < 128 :=
      fun hle hlast => Nat.lt_of_le_of_lt (UInt32.le_iff_toNat_le.mp hle) hlast
    have hupper : c.isUpper = true → c.toNat < 128 :=
      fun h => hupto (of_decide_eq_true h).2 (by decide)
    have hlower : c.isLower = true → c.toNat < 128 :=
      fun h => hupto (of_decide_eq_true ((Bool.and_eq_true _ _).mp h).2) (by decide)
    have hdigit : c.isDigit = true → c.toNat < 128 :=
      fun h => hupto (of_decide_eq_true ((Bool.and_eq_true _ _).mp h).2) (by decide)
    simp only [continuesName, Bool.or_eq_true, beq_iff_eq] at h
    rcases h with halphanum | rfl
    · rcases (Bool.or_eq_true _ _).mp halphanum with halpha | h
      · exact ((Bool.or_eq_true _ _).mp halpha).elim hupper hlower
      · exact hdigit h
    · decide
  refine ⟨hascii, ?_⟩
  have hlow : c.toNat < 0x80 := hascii
  unfold Text.isWord
  rw [if_pos hlow]
  exact h

/-- Whether a text is a letter or an underscore and then letters, digits and underscores. -/
def isIdentifier : List Char → Bool
  | [] => false
  | c :: more => startsName c && more.all continuesName

theorem isIdentifier_cons {c : Char} {more : List Char} :
    isIdentifier (c :: more) = true ↔ startsName c = true ∧ ∀ d ∈ more, continuesName d = true := by
  rw [isIdentifier, Bool.and_eq_true, List.all_eq_true]

theorem isIdentifier_takeWhile {c : Char} (hc : startsName c = true) (text : List Char) :
    isIdentifier (c :: text.takeWhile continuesName) = true :=
  isIdentifier_cons.mpr ⟨hc, fun _ hd => List.mem_takeWhile_imp hd⟩

theorem isWord_of_isIdentifier {text : List Char} (h : isIdentifier text = true) :
    ∀ c ∈ text, Text.isWord c = true := by
  cases text with
  | nil => contradiction
  | cons first more =>
      obtain ⟨hfirst, hmore⟩ := isIdentifier_cons.mp h
      intro c hc
      rcases List.mem_cons.mp hc with rfl | hc
      · exact (isWord_of_continuesName (continuesName_of_startsName hfirst)).2
      · exact (isWord_of_continuesName (hmore c hc)).2

/-- A name between backticks. -/
def backticked (name : List Char) : List Char :=
  '`' :: (name ++ ['`'])

theorem backticked_append (name rest : List Char) :
    backticked name ++ rest = '`' :: (name ++ '`' :: rest) := by
  simp [backticked]

theorem solid_backticked {name : List Char} (h : ∀ c ∈ name, Text.isBlank c = false) :
    Text.Solid (backticked name) := by
  refine ⟨List.cons_ne_nil _ _, ?_⟩
  intro c hc
  rcases List.mem_cons.mp hc with rfl | hc
  · decide
  · rcases List.mem_append.mp hc with hc | hc
    · exact h c hc
    · rw [List.mem_singleton.mp hc]
      decide

/-- A name is read up to the backtick that closes it. -/
theorem backtickName_append {name : List Char} (hne : name ≠ []) (hname : '`' ∉ name)
    (rest : List Char) : backtickName? (name ++ '`' :: rest) = some name := by
  have hinside : ∀ c ∈ name, (c != '`') = true := by
    intro c hc
    rw [bne_iff_ne]
    rintro rfl
    exact hname hc
  unfold backtickName?
  rw [Text.takeWhile_run hinside (Text.halts_cons (by decide) rest)]
  simp [hne]

/-- What is read as a name between backticks is closed by the first backtick behind it. -/
theorem exists_of_backtickName {text name : List Char} (h : backtickName? text = some name) :
    name ≠ [] ∧ '`' ∉ name ∧ ∃ rest, text = name ++ '`' :: rest := by
  unfold backtickName? at h
  dsimp only at h
  split at h
  · contradiction
  · next hclosed =>
      have hname : text.takeWhile (· != '`') = name := Option.some.inj h
      rw [Bool.or_eq_true, not_or, decide_eq_true_eq, hname] at hclosed
      have hsplit : name ++ text.dropWhile (· != '`') = text := by
        rw [← hname, List.takeWhile_append_dropWhile]
      refine ⟨by simpa using hclosed.1, fun hmem => ?_, ?_⟩
      · rw [← hname] at hmem
        exact absurd (List.mem_takeWhile_imp hmem) (by decide)
      · have hhead := List.head?_dropWhile_not (· != '`') text
        cases hdrop : text.dropWhile (· != '`') with
        | nil =>
            -- Without a closing backtick the name would be the whole text.
            rw [hdrop, List.append_nil] at hsplit
            exact absurd (congrArg List.length hsplit) hclosed.2
        | cons d rest =>
            rw [hdrop] at hhead hsplit
            have hd : d = '`' := by simpa using hhead
            exact ⟨rest, by rw [← hsplit, hd]⟩

end Token

/-! ## Cutting a text -/

namespace Tokens

variable {κ : Type} {read : List Char → Option (κ × Nat)}

theorem isGap_iff (c : Char) : isGap c = true ↔ c = ' ' ∨ c = '\t' ∨ c = '\r' ∨ c = '\n' := by
  simp [isGap, or_assoc]

theorem isGap_of_isWord {c : Char} (h : Text.isWord c = true) : isGap c = false := by
  cases hgap : isGap c with
  | false => rfl
  | true =>
      rcases (isGap_iff c).mp hgap with rfl | rfl | rfl | rfl <;> exact absurd h (by decide)

theorem isBlank_of_isGap {c : Char} (h : isGap c = true) : Text.isBlank c = true := by
  rcases (isGap_iff c).mp h with rfl | rfl | rfl | rfl <;> decide

/-- Whether a text is cut into tokens of some kinds, wherever it stands. -/
def Cuts (read : List Char → Option (κ × Nat)) (text : List Char) (kinds : List κ) : Prop :=
  ∀ position, (readFrom read 0 position text).tokens.map Token.kind = kinds ∧
    (readFrom read 0 position text).illegal = none

theorem cuts_nil : Cuts read [] [] := by
  intro position
  exact ⟨rfl, rfl⟩

theorem Cuts.gap {c : Char} {text : List Char} {kinds : List κ} (hgap : isGap c = true)
    (h : Cuts read text kinds) : Cuts read (c :: text) kinds := by
  intro position
  rw [readFrom, if_pos hgap]
  exact h (position + 1)

/-- A token at the front is followed by the tokens of the rest. -/
theorem Cuts.token {c : Char} {more rest : List Char} {kind : κ} {kinds : List κ}
    (hgap : isGap c = false) (hread : read (c :: (more ++ rest)) = some (kind, more.length))
    (h : Cuts read rest kinds) : Cuts read (c :: (more ++ rest)) (kind :: kinds) := by
  intro position
  obtain ⟨hkinds, hillegal⟩ := h (position + 1 + more.length)
  rw [readFrom, hgap, if_neg Bool.false_ne_true, hread]
  dsimp only [cons]
  rw [readFrom_append]
  refine ⟨?_, hillegal⟩
  rw [List.map_cons, hkinds]

/-- What stands between two tokens is not read. -/
theorem Cuts.gaps {gap text : List Char} {kinds : List κ} (hgap : ∀ c ∈ gap, isGap c = true)
    (h : Cuts read text kinds) : Cuts read (gap ++ text) kinds := by
  induction gap with
  | nil => exact h
  | cons c gap ih =>
      exact .gap (hgap c List.mem_cons_self) (ih fun d hd => hgap d (List.mem_cons_of_mem _ hd))

/-! ## What is cut without a rest -/

/-- Passing over characters of a token drops them. -/
theorem readFrom_drop (read : List Char → Option (κ × Nat)) (skip position : Nat)
    (text : List Char) :
    readFrom read skip position text = readFrom read 0 (position + skip) (text.drop skip) := by
  induction text generalizing skip position with
  | nil => simp [readFrom]
  | cons c text ih =>
      cases skip with
      | zero => rfl
      | succ skip =>
          rw [readFrom, ih, List.drop_succ_cons]
          congr 1
          omega

/-- The place of a text changes neither the kinds of its tokens nor whether they are all of it. -/
theorem readFrom_congr_position (read : List Char → Option (κ × Nat))
    (skip position other : Nat) (text : List Char) :
    (readFrom read skip position text).tokens.map Token.kind =
        (readFrom read skip other text).tokens.map Token.kind ∧
      ((readFrom read skip position text).illegal = none ↔
        (readFrom read skip other text).illegal = none) := by
  induction text generalizing skip position other with
  | nil => simp [readFrom]
  | cons c text ih =>
      cases skip with
      | succ skip => exact ih skip (position + 1) (other + 1)
      | zero =>
          rw [readFrom, readFrom]
          split
          · exact ih 0 (position + 1) (other + 1)
          · split
            · simp
            · next kind more _ =>
                obtain ⟨hkinds, hillegal⟩ := ih more (position + 1) (other + 1)
                exact ⟨by simp [cons, hkinds], hillegal⟩

/-- A text at which no token is missing is cut into the kinds of its tokens. -/
theorem cuts_of_illegal_eq_none {text : List Char}
    (h : (Tokens.read read text).illegal = none) :
    Cuts read text ((Tokens.read read text).tokens.map Token.kind) := by
  intro position
  obtain ⟨hkinds, hillegal⟩ := readFrom_congr_position read 0 position 0 text
  exact ⟨hkinds, hillegal.mpr h⟩

theorem Cuts.eq_nil {kinds : List κ} (h : Cuts read [] kinds) : kinds = [] :=
  (h 0).1.symm

/-- A gap in front is not read. -/
theorem Cuts.of_gap {c : Char} {text : List Char} {kinds : List κ} (hgap : isGap c = true)
    (h : Cuts read (c :: text) kinds) : Cuts read text kinds := by
  intro position
  have hstep := (readFrom_congr_position read 0 position (position + 1) text)
  have hcut := h position
  rw [readFrom, if_pos hgap] at hcut
  exact ⟨hstep.1.trans hcut.1, hstep.2.mpr hcut.2⟩

/-- Any other text starts with a token, and the text behind the token is cut. -/
theorem Cuts.exists_token {c : Char} {text : List Char} {kinds : List κ} (hgap : isGap c = false)
    (h : Cuts read (c :: text) kinds) :
    ∃ kind more rest, read (c :: text) = some (kind, more) ∧ kinds = kind :: rest ∧
      Cuts read (text.drop more) rest := by
  have hcut := h 0
  rw [readFrom, hgap, if_neg Bool.false_ne_true] at hcut
  cases hread : read (c :: text) with
  | none =>
      rw [hread] at hcut
      exact absurd hcut.2 (Option.some_ne_none _)
  | some found =>
      obtain ⟨kind, more⟩ := found
      rw [hread] at hcut
      dsimp only [cons] at hcut
      rw [readFrom_drop] at hcut
      refine ⟨kind, more, (readFrom read 0 (0 + 1 + more) (text.drop more)).tokens.map Token.kind,
        rfl, ?_, fun position => ?_⟩
      · rw [← hcut.1, List.map_cons]
      · obtain ⟨hkinds, hillegal⟩ :=
          readFrom_congr_position read 0 position (0 + 1 + more) (text.drop more)
        exact ⟨hkinds, hillegal.mpr hcut.2⟩

end Tokens

/-! ## Parsing a text -/

namespace Grammar

variable {κ σ α : Type} {grammar : Grammar κ σ α}

/-- A run succeeds as soon as the kinds of its tokens lead to a state that is final. -/
theorem run_of_kinds {tokens : List (Token κ)} {state final : σ} {result : α}
    (hsteps : (tokens.map Token.kind).foldlM grammar.step state = some final)
    (hfinal : grammar.finish final = some result) : grammar.run none state tokens = .ok result := by
  induction tokens generalizing state with
  | nil =>
      rw [List.map_nil, List.foldlM_nil] at hsteps
      have hfinish : grammar.finish state = some result := by
        rw [Option.some.inj hsteps]
        exact hfinal
      rw [run]
      rw [hfinish]
  | cons token tokens ih =>
      rw [List.map_cons, List.foldlM_cons] at hsteps
      obtain ⟨next, hstep, hrest⟩ := Option.bind_eq_some_iff.mp hsteps
      rw [run, hstep]
      exact ih hrest

/-- A text is parsed to what the kinds of its tokens lead to. -/
theorem parse_of_cuts {read : List Char → Option (κ × Nat)} {text : List Char} {kinds : List κ}
    (hcuts : Tokens.Cuts read text kinds) {final : σ} {result : α}
    (hsteps : kinds.foldlM grammar.step grammar.start = some final)
    (hfinal : grammar.finish final = some result) :
    grammar.parse (Tokens.read read text) = .ok result := by
  obtain ⟨hkinds, hillegal⟩ := hcuts 0
  have hrun := run_of_kinds (hkinds.symm ▸ hsteps) hfinal
  unfold parse Tokens.read
  rw [hillegal]
  exact hrun

/-- A run that succeeds ends in a final state. -/
theorem exists_final_of_run {illegal : Option (Char × Nat)} {tokens : List (Token κ)} {state : σ}
    {result : α} (h : grammar.run illegal state tokens = .ok result) :
    illegal = none ∧ ∃ final, (tokens.map Token.kind).foldlM grammar.step state = some final ∧
      grammar.finish final = some result := by
  induction tokens generalizing state with
  | nil =>
      cases illegal with
      | some place => simp [run] at h
      | none =>
          rw [run] at h
          split at h
          · next hfinal =>
              cases h
              exact ⟨rfl, state, rfl, hfinal⟩
          · contradiction
  | cons token tokens ih =>
      rw [run] at h
      split at h
      · next next hstep =>
          obtain ⟨hillegal, final, hsteps, hfinal⟩ := ih h
          refine ⟨hillegal, final, ?_, hfinal⟩
          rw [List.map_cons, List.foldlM_cons, hstep]
          exact hsteps
      · contradiction

/-- A text that is parsed is cut into tokens that lead to a final state. -/
theorem exists_cuts_of_parse {read : List Char → Option (κ × Nat)} {text : List Char} {result : α}
    (h : grammar.parse (Tokens.read read text) = .ok result) :
    ∃ kinds final, Tokens.Cuts read text kinds ∧
      kinds.foldlM grammar.step grammar.start = some final ∧
      grammar.finish final = some result := by
  obtain ⟨hillegal, final, hsteps, hfinal⟩ := exists_final_of_run h
  exact ⟨_, final, Tokens.cuts_of_illegal_eq_none hillegal, hsteps, hfinal⟩

end Grammar
end SurrealSchema
