import SurrealSchema.Proofs.Query.RoundTrip

namespace SurrealSchema

/-!
# How heads end

The head of a query is cut off by a search that knows nothing of backticks, and read by a grammar
over tokens that does.  Where the grammar accepts a head, both agree on the table.

The argument goes from left to right.  A token that starts in front of the table either ends in front
of it, or it is a name between backticks that is closed by the table's own opening backtick.  In the
second case the closing backtick of the table opens a name that nothing closes, and the head is not
accepted.  So the table is cut by itself, and it is the last token.
-/

namespace Query

/-! ## Where a token ends -/

/-- A token ends before a text that goes on with no name, unless it is a name between backticks that
is closed there. -/
theorem readToken_within {c : Char} {front rest : List Char} {kind : TokenKind} {more : Nat}
    (hrest : Text.Halts Token.continuesName rest)
    (hread : readToken (c :: (front ++ rest)) = some (kind, more)) :
    more ≤ front.length ∨ ∃ inside after, c = '`' ∧ rest = inside ++ '`' :: after ∧ '`' ∉ inside ∧
      more = front.length + inside.length + 1 := by
  have hzero : ∀ {found : TokenKind}, some (found, 0) = some (kind, more) →
      more ≤ front.length := by
    intro found h
    rw [← (Prod.mk.inj (Option.some.inj h)).2]
    exact Nat.zero_le _
  rw [readToken.eq_def] at hread
  split at hread
  · contradiction
  · exact Or.inl (hzero hread)
  · exact Or.inl (hzero hread)
  · exact Or.inl (hzero hread)
  · next heq =>
      obtain ⟨rfl, rfl⟩ := List.cons.inj heq
      split at hread
      · next hquote =>
          obtain ⟨name, hname, hfound⟩ := Option.map_eq_some_iff.mp hread
          have hmore : more = name.length + 1 := (Prod.mk.inj hfound).2.symm
          obtain ⟨-, hinside, after, hsplit⟩ := Token.exists_of_backtickName hname
          -- The name is closed in the rest, where the rest starts, or in front of it.
          rcases List.append_eq_append_iff.mp hsplit with
            ⟨inside, rfl, hrest'⟩ | ⟨behind, rfl, hbehind⟩
          · refine Or.inr ⟨inside, after, hquote, hrest', fun hmem => ?_, ?_⟩
            · exact hinside (List.mem_append_right front hmem)
            · rw [hmore, List.length_append]
          · cases behind with
            | nil =>
                refine Or.inr ⟨[], after, hquote, hbehind.symm, List.not_mem_nil, ?_⟩
                rw [hmore, List.append_nil]
                rfl
            | cons d behind =>
                left
                rw [hmore, List.length_append, List.length_cons]
                omega
      · split at hread
        · left
          have hmore := (Prod.mk.inj (Option.some.inj hread)).2
          rw [← hmore, Text.takeWhile_append_of_halts hrest]
          exact (List.takeWhile_sublist _).length_le
        · contradiction

/-- A text that is cut is cut again from where the rest starts, or from behind a name between
backticks that begins in front of the rest and ends in it. -/
theorem cuts_rest {front rest : List Char} {kinds : List TokenKind}
    (hrest : Text.Halts Token.continuesName rest)
    (h : Tokens.Cuts readToken (front ++ rest) kinds) :
    (∃ passed kinds', kinds = passed ++ kinds' ∧ Tokens.Cuts readToken rest kinds') ∨
      ∃ inside after kinds', '`' ∈ front ∧ rest = inside ++ '`' :: after ∧ '`' ∉ inside ∧
        Tokens.Cuts readToken after kinds' := by
  -- The induction goes from token to token, so it is on the length of what is in front.
  induction hlength : front.length using Nat.strong_induction_on generalizing front kinds with
  | _ length ih =>
      cases front with
      | nil => exact Or.inl ⟨[], kinds, rfl, h⟩
      | cons c front =>
          have hshorter : front.length < length := by
            rw [← hlength]
            exact Nat.lt_succ_self _
          have hlift : ∀ {part : List Char}, part <:+ front → ∀ {kinds' : List TokenKind},
              Tokens.Cuts readToken (part ++ rest) kinds' → ∀ passed, kinds = passed ++ kinds' →
              (∃ passed kinds', kinds = passed ++ kinds' ∧ Tokens.Cuts readToken rest kinds') ∨
                ∃ inside after kinds', '`' ∈ c :: front ∧ rest = inside ++ '`' :: after ∧
                  '`' ∉ inside ∧ Tokens.Cuts readToken after kinds' := by
            intro part hpart kinds' hcuts passed hkinds
            have hless := Nat.lt_of_le_of_lt hpart.length_le hshorter
            rcases ih part.length hless hcuts rfl with
              ⟨passed', kinds'', rfl, hrest'⟩ | ⟨inside, after, kinds'', hmem, hothers⟩
            · exact Or.inl ⟨passed ++ passed', kinds'', by rw [hkinds, List.append_assoc], hrest'⟩
            · exact Or.inr ⟨inside, after, kinds'', List.mem_cons_of_mem _ (hpart.subset hmem),
                hothers⟩
          rw [List.cons_append] at h
          cases hgap : Tokens.isGap c with
          | true => exact hlift List.suffix_rfl (h.of_gap hgap) [] rfl
          | false =>
              obtain ⟨kind, more, kinds', hread, hkinds, hcuts⟩ := h.exists_token hgap
              rcases readToken_within hrest hread with
                hmore | ⟨inside, after, rfl, hsplit, hinside, hmore⟩
              · rw [List.drop_append_of_le_length hmore] at hcuts
                exact hlift (List.drop_suffix more front) hcuts [kind] hkinds
              · have hafter : (front ++ rest).drop more = after := by
                  have hpassed : front ++ rest = (front ++ inside ++ ['`']) ++ after := by
                    rw [hsplit]
                    simp only [List.append_assoc, List.singleton_append]
                  rw [hpassed, List.drop_left' (by
                    rw [hmore, List.length_append, List.length_append, List.length_singleton])]
                rw [hafter] at hcuts
                exact Or.inr ⟨inside, after, kinds', List.mem_cons_self, hsplit, hinside, hcuts⟩

/-! ## The token of a table -/

/-- Where a word character stands, the token is a word. -/
theorem startsName_of_readToken {c : Char} {text : List Char} {found : TokenKind × Nat}
    (hword : Text.isWord c = true) (h : readToken (c :: text) = some found) :
    Token.startsName c = true := by
  rw [readToken.eq_def] at h
  split at h
  · contradiction
  · next heq => exact absurd hword (by rw [(List.cons.inj heq).1]; decide)
  · next heq => exact absurd hword (by rw [(List.cons.inj heq).1]; decide)
  · next heq => exact absurd hword (by rw [(List.cons.inj heq).1]; decide)
  · next heq =>
      obtain ⟨rfl, rfl⟩ := List.cons.inj heq
      rw [if_neg (ne_backtick_of_isWord hword)] at h
      split at h
      · next hstarts => exact hstarts
      · contradiction

/-- A run of letters, digits and underscores in front is one token. -/
theorem cuts_word {c : Char} {run rest : List Char} {kinds : List TokenKind}
    (hc : Token.startsName c = true) (hrun : ∀ d ∈ run, Token.continuesName d = true)
    (hrest : Text.Halts Token.continuesName rest)
    (h : Tokens.Cuts readToken (c :: (run ++ rest)) kinds) :
    ∃ kinds', kinds = TokenKind.ofWord (String.ofList (c :: run)) :: kinds' ∧
      Tokens.Cuts readToken rest kinds' := by
  have hword := (Token.isWord_of_continuesName (Token.continuesName_of_startsName hc)).2
  obtain ⟨kind, more, kinds', hread, hkinds, hcuts⟩ := h.exists_token (Tokens.isGap_of_isWord hword)
  rw [readToken_of_startsName hc, Text.takeWhile_run hrun hrest] at hread
  obtain ⟨rfl, rfl⟩ := Prod.mk.inj (Option.some.inj hread)
  rw [List.drop_left] at hcuts
  exact ⟨kinds', hkinds, hcuts⟩

/-- A run of word characters that is cut at all is one token. -/
theorem cuts_wordRun {word : List Char} {kinds : List TokenKind} (hne : word ≠ [])
    (hword : ∀ c ∈ word, Text.isWord c = true) (h : Tokens.Cuts readToken word kinds) :
    kinds = [TokenKind.ofWord (String.ofList word)] := by
  have hstarts : ∀ {c : Char} {text : List Char} {kinds : List TokenKind}, Text.isWord c = true →
      Tokens.Cuts readToken (c :: text) kinds → Token.startsName c = true := by
    intro c text kinds hc hcuts
    obtain ⟨kind, more, -, hread, -, -⟩ := hcuts.exists_token (Tokens.isGap_of_isWord hc)
    exact startsName_of_readToken hc hread
  obtain ⟨c, text, rfl⟩ := List.exists_cons_of_ne_nil hne
  have hc := hstarts (hword c List.mem_cons_self) h
  have hsplit : text.takeWhile Token.continuesName ++ text.dropWhile Token.continuesName = text :=
    List.takeWhile_append_dropWhile
  have hhalts : Text.Halts Token.continuesName (text.dropWhile Token.continuesName) := by
    intro d hd
    have hnot := List.head?_dropWhile_not Token.continuesName text
    rw [hd] at hnot
    exact hnot
  rw [← hsplit] at h
  obtain ⟨kinds', rfl, hcuts⟩ := cuts_word hc (fun d hd => List.mem_takeWhile_imp hd) hhalts h
  -- A word character that no name goes on with starts no token either.
  have hnil : text.dropWhile Token.continuesName = [] := by
    cases hdrop : text.dropWhile Token.continuesName with
    | nil => rfl
    | cons d rest =>
        rw [hdrop] at hcuts hhalts
        have hmem : d ∈ text := (List.dropWhile_suffix _).subset (by rw [hdrop]; simp)
        have hd := hstarts (hword d (List.mem_cons_of_mem _ hmem)) hcuts
        exact absurd (Token.continuesName_of_startsName hd) (by rw [hhalts d rfl]; decide)
  rw [hnil] at hcuts
  rw [hnil, List.append_nil] at hsplit
  rw [hcuts.eq_nil, hsplit]

/-- A name between backticks is one token. -/
theorem cuts_quoted {name : List Char} {kinds : List TokenKind} (hne : name ≠ [])
    (hname : '`' ∉ name) (h : Tokens.Cuts readToken ('`' :: (name ++ ['`'])) kinds) :
    kinds = [.name (String.ofList name)] := by
  have hquoted := Token.backtickName_append hne hname []
  obtain ⟨kind, more, rest, hread, rfl, hcuts⟩ := h.exists_token (by decide)
  have hread' : readToken ('`' :: (name ++ ['`'])) =
      some (.name (String.ofList name), name.length + 1) := by
    simp [readToken, hquoted]
  rw [hread'] at hread
  obtain ⟨rfl, rfl⟩ := Prod.mk.inj (Option.some.inj hread)
  rw [List.drop_of_length_le (by simp)] at hcuts
  rw [hcuts.eq_nil]

/-- A backtick that opens nothing cannot be cut. -/
theorem not_cuts_open {text : List Char} {kinds : List TokenKind} (htext : '`' ∉ text) :
    ¬ Tokens.Cuts readToken (text ++ ['`']) kinds := by
  intro h
  rcases cuts_rest (Text.halts_cons (by decide) []) h with
    ⟨passed, kinds', -, hcuts⟩ | ⟨inside, after, kinds', hmem, -⟩
  · obtain ⟨kind, more, rest, hread, -⟩ := hcuts.exists_token (by decide)
    have hnone : readToken ['`'] = none := rfl
    rw [hnone] at hread
    contradiction
  · exact htext hmem

/-- Whether a text is written as the name of a table, and which name it is. -/
inductive IsTableText : List Char → List Char → Prop
  | word {word : List Char} (hne : word ≠ []) (hword : ∀ c ∈ word, Text.isWord c = true) :
      IsTableText word word
  | quoted {name : List Char} (hne : name ≠ []) (hname : '`' ∉ name) :
      IsTableText ('`' :: (name ++ ['`'])) name

/-- The name of a table at the end of a text is its last token. -/
theorem IsTableText.last_token {table name : List Char} (h : IsTableText table name)
    {front : List Char} {kinds : List TokenKind}
    (hcuts : Tokens.Cuts readToken (front ++ ' ' :: table) kinds) :
    ∃ passed, kinds = passed ++ [.name (String.ofList name)] ∨
      kinds = passed ++ [TokenKind.ofWord (String.ofList name)] := by
  cases h with
  | word hne hword =>
      rcases cuts_rest (Text.halts_cons (by decide) table) hcuts with
        ⟨passed, kinds', rfl, hrest⟩ | ⟨inside, after, kinds', -, hsplit, -⟩
      · exact ⟨passed, Or.inr (by rw [cuts_wordRun hne hword (hrest.of_gap (by decide))])⟩
      · -- There is no backtick in the word that could close a name.
        have hmem : '`' ∈ ' ' :: table := by
          rw [hsplit]
          simp
        rcases List.mem_cons.mp hmem with heq | hmem
        · exact absurd heq (by decide)
        · exact absurd rfl (ne_backtick_of_isWord (hword '`' hmem))
  | quoted hne hname =>
      have hsplit : front ++ ' ' :: '`' :: (name ++ ['`']) =
          (front ++ [' ']) ++ '`' :: (name ++ ['`']) := by simp
      rw [hsplit] at hcuts
      rcases cuts_rest (Text.halts_cons (by decide) _) hcuts with
        ⟨passed, kinds', rfl, hrest⟩ | ⟨inside, after, kinds', -, hsplit, hinside, hafter⟩
      · exact ⟨passed, Or.inl (by rw [cuts_quoted hne hname hrest])⟩
      · -- The opening backtick closes an earlier name, so the closing one opens another.
        cases inside with
        | nil =>
            rw [← (List.cons.inj hsplit).2] at hafter
            exact absurd hafter (not_cuts_open hname)
        | cons c inside =>
            rw [← (List.cons.inj hsplit).1] at hinside
            exact absurd List.mem_cons_self hinside

/-! ## The table of a head -/

/-- The tokens of a head that is accepted lead to it. -/
theorem cuts_of_parseHead {text : List Char} {head : Head} (h : parseHead text = .ok head) :
    ∃ kinds, Tokens.Cuts readToken text kinds ∧
      kinds.foldlM HeadState.step .start = some (.complete head) := by
  obtain ⟨kinds, final, hcuts, hsteps, hfinal⟩ := Grammar.exists_cuts_of_parse h
  refine ⟨kinds, hcuts, ?_⟩
  have hcomplete : final = .complete head := by
    cases final with
    | complete other => rw [Option.some.inj hfinal]
    | _ => contradiction
  rw [← hcomplete]
  exact hsteps

/-- Only the name of the table completes a head. -/
theorem eq_name_of_step_complete {state : HeadState} {kind : TokenKind} {head : Head}
    (h : state.step kind = some (.complete head)) :
    kind = .name head.table ∧ state = .expectingTable head.paths := by
  cases state with
  | expectingTable paths =>
      cases kind with
      | name value =>
          cases h
          exact ⟨rfl, rfl⟩
      | _ => contradiction
  | _ => cases kind <;> simp [HeadState.step] at h

/-- A bare word that completes a head is its table. -/
theorem eq_of_ofWord_eq_name {word name : String} (h : TokenKind.ofWord word = .name name) :
    word = name := by
  unfold TokenKind.ofWord at h
  split at h
  · contradiction
  · split at h
    · contradiction
    · exact TokenKind.name.inj h

/-- **The table of a head that is accepted is the name that the head ends with.** -/
theorem table_of_parseHead {front table name : List Char} (htable : IsTableText table name)
    {head : Head} (h : parseHead (front ++ ' ' :: table) = .ok head) :
    head.table = String.ofList name := by
  obtain ⟨kinds, hcuts, hsteps⟩ := cuts_of_parseHead h
  have hlast : ∀ {passed : List TokenKind} {kind : TokenKind},
      (passed ++ [kind]).foldlM HeadState.step .start = some (.complete head) →
        kind = .name head.table := by
    intro passed kind hpassed
    rw [List.foldlM_append] at hpassed
    obtain ⟨state, -, hstep⟩ := Option.bind_eq_some_iff.mp hpassed
    rw [List.foldlM_cons] at hstep
    obtain ⟨final, hfinal, hnil⟩ := Option.bind_eq_some_iff.mp hstep
    rw [List.foldlM_nil] at hnil
    rw [Option.some.inj hnil] at hfinal
    exact (eq_name_of_step_complete hfinal).1
  obtain ⟨passed, rfl | rfl⟩ := htable.last_token hcuts
  · exact (TokenKind.name.inj (hlast hsteps)).symm
  · exact (eq_of_ofWord_eq_name (hlast hsteps)).symm

/-! ## The scan for the table -/

/-- What a table is written as is what its scan takes. -/
theorem exists_of_tableText {text table tail : List Char}
    (h : tableText? text = some (table, tail)) :
    text = table ++ tail ∧ ∃ name, IsTableText table name := by
  unfold tableText? at h
  dsimp only at h
  rcases Option.or_eq_some_iff.mp h with hquoted | ⟨-, hword⟩
  · split at hquoted
    · next rest =>
        split at hquoted
        · next d after hdrop =>
            split at hquoted
            · contradiction
            · next hne =>
                obtain ⟨rfl, rfl⟩ := Prod.mk.inj (Option.some.inj hquoted)
                have hd := List.head?_dropWhile_not (· != '`') rest
                rw [hdrop] at hd
                have hd' : d = '`' := by simpa using hd
                have hsplit : rest.takeWhile (· != '`') ++ rest.dropWhile (· != '`') = rest :=
                  List.takeWhile_append_dropWhile
                rw [hdrop, hd'] at hsplit
                refine ⟨?_, rest.takeWhile (· != '`'), .quoted ?_ ?_⟩
                · rw [List.cons_append, List.cons_append, List.append_assoc, List.singleton_append,
                    hsplit]
                · simpa using hne
                · intro hmem
                  exact absurd (List.mem_takeWhile_imp hmem) (by decide)
        · contradiction
    · contradiction
  · split at hword
    · contradiction
    · next hne =>
        obtain ⟨rfl, rfl⟩ := Prod.mk.inj (Option.some.inj hword)
        refine ⟨List.takeWhile_append_dropWhile.symm, _, .word ?_ ?_⟩
        · simpa using hne
        · exact fun c hc => List.mem_takeWhile_imp hc

/-- Without its backticks a table is its name. -/
theorem IsTableText.bareTable_eq {table name : List Char} (h : IsTableText table name) :
    bareTable table = String.ofList name := by
  have hends : ∀ {name : List Char}, '`' ∉ name →
      Text.Halts (· == '`') name ∧ ∀ c, name.getLast? = some c → (c == '`') = false := by
    intro name hname
    have hno : ∀ c ∈ name, (c == '`') = false := by
      intro c hc
      rw [beq_eq_false_iff_ne]
      rintro rfl
      exact hname hc
    exact ⟨fun c hc => hno c (List.mem_of_head? hc), fun c hc => hno c (List.mem_of_getLast? hc)⟩
  unfold bareTable
  cases h with
  | word hne hword =>
      obtain ⟨hfirst, hlast⟩ := hends fun hmem => ne_backtick_of_isWord (hword '`' hmem) rfl
      rw [Text.dropWhile_of_halts hfirst, Text.dropTrailing_eq_self hlast]
  | quoted hne hname =>
      obtain ⟨hfirst, hlast⟩ := hends hname
      have hfirst' : Text.Halts (· == '`') (name ++ ['`']) := by
        obtain ⟨c, rest, rfl⟩ := List.exists_cons_of_ne_nil hne
        exact Text.halts_cons (p := (· == '`')) (hfirst c rfl) _
      rw [List.dropWhile_cons_of_pos (by decide), Text.dropWhile_of_halts hfirst',
        Text.dropTrailing_append_singleton (by decide), Text.dropTrailing_eq_self hlast]

/-- A head of a spaced text ends with a space and a table, and what follows is not in it. -/
theorem exists_of_splitHead {text head table tail : List Char}
    (hspaced : Text.Spaced Text.Solid text) (h : splitHead? text = some (head, table, tail)) :
    ∃ front, text = front ++ ' ' :: (table ++ tail) ∧ head = front ++ ' ' :: table ∧
      tableText? (table ++ tail) = some (table, tail) := by
  unfold splitHead? at h
  split at h
  · contradiction
  · next rest hselect =>
      obtain ⟨⟨skipped, found⟩, hsearch, hfound⟩ := Option.map_eq_some_iff.mp h
      obtain ⟨place, rfl, hread⟩ := Text.read_of_search hsearch
      obtain ⟨behind, hfrom, htable⟩ := Option.bind_eq_some_iff.mp hread
      unfold Text.keywordAnyCase? at hselect
      rw [if_neg (by decide)] at hselect
      obtain ⟨hliteral, -⟩ := Option.filter_eq_some_iff.mp hselect
      obtain ⟨select, rfl, -⟩ := Text.spells_of_afterLiteralAnyCase hliteral
      unfold clauseKeyword? at hfrom
      split at hfrom
      · contradiction
      · obtain ⟨after, hword, hblanks⟩ := Option.bind_eq_some_iff.mp hfrom
        obtain ⟨word, rfl, -⟩ := Text.spells_of_afterLiteralAnyCase hword
        obtain ⟨b, blanks, rfl, hb, hall⟩ := Text.blanks_of_afterBlanks hblanks
        obtain ⟨found, tail'⟩ := found
        obtain ⟨hhead, hparts⟩ := Prod.mk.inj hfound
        obtain ⟨rfl, rfl⟩ := Prod.mk.inj hparts
        obtain ⟨rfl, -⟩ := exists_of_tableText htable
        -- The last blank in front of the table is the space that collapsing has left there.
        obtain ⟨init, last, hsplit⟩ : ∃ init last, b :: blanks = init ++ [last] := by
          rcases List.eq_nil_or_concat (b :: blanks) with hnil | ⟨init, last, hconcat⟩
          · contradiction
          · exact ⟨init, last, hconcat.trans (List.concat_eq_append)⟩
        have hlast : last = ' ' := by
          have hchars : ∀ c ∈ select ++ (skipped ++ (word ++ b :: (blanks ++ (found ++ tail')))),
              c = ' ' ∨ Text.isBlank c = false :=
            hspaced.chars (p := fun c => c = ' ' ∨ Text.isBlank c = false)
              (fun _ hword c hc => Or.inr (hword.2 c hc)) (Or.inl rfl)
          have hmem : last ∈ b :: blanks := by
            rw [hsplit]
            simp
          have hblank : Text.isBlank last = true := by
            rcases List.mem_cons.mp hmem with rfl | hmem
            · exact hb
            · exact hall last hmem
          rcases hchars last (by
            rw [← List.cons_append]
            exact List.mem_append_right _ (List.mem_append_right _ (List.mem_append_right _
              (List.mem_append_left _ hmem)))) with heq | hsolid
          · exact heq
          · rw [hblank] at hsolid
            contradiction
        have htext : select ++ (skipped ++ (word ++ b :: (blanks ++ (found ++ tail')))) =
            (select ++ (skipped ++ (word ++ init)) ++ ' ' :: found) ++ tail' := by
          rw [← List.cons_append, hsplit, hlast]
          simp only [List.append_assoc, List.cons_append, List.nil_append]
        refine ⟨select ++ (skipped ++ (word ++ init)), ?_, ?_, htable⟩
        · rw [htext, List.append_assoc, List.cons_append]
        · rw [← hhead, htext, List.length_append, Nat.add_sub_cancel, List.take_left]

end Query
end SurrealSchema
