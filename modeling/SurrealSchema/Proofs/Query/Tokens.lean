import SurrealSchema.Proofs.Query.Tables

namespace SurrealSchema
namespace Query

/-!
# Tokens of canonical heads

The head of a canonical query is cut into the tokens it was written from, whatever the places at
which they stand, and the grammar of heads takes these tokens back to the paths and the table.
-/

/-! ## Kinds of tokens -/

/-- Whether a text is cut into tokens of some kinds, wherever it stands. -/
def Reads (text : List Char) (kinds : List TokenKind) : Prop :=
  ∀ position, (Tokens.readFrom readToken 0 position text).tokens.map Token.kind = kinds ∧
    (Tokens.readFrom readToken 0 position text).illegal = none

theorem reads_nil : Reads [] [] :=
  Tokens.cuts_nil

theorem Reads.space {text : List Char} {kinds : List TokenKind} (h : Reads text kinds) :
    Reads (' ' :: text) kinds :=
  Tokens.Cuts.gap (by decide) h

/-- A token at the front is followed by the tokens of the rest. -/
theorem Reads.token {c : Char} {more rest : List Char} {kind : TokenKind} {kinds : List TokenKind}
    (hgap : Tokens.isGap c = false)
    (hread : readToken (c :: (more ++ rest)) = some (kind, more.length)) (h : Reads rest kinds) :
    Reads (c :: (more ++ rest)) (kind :: kinds) :=
  Tokens.Cuts.token hgap hread h

/-- A token of one character is followed by the tokens of the rest. -/
theorem Reads.mark {c : Char} {rest : List Char} {kind : TokenKind} {kinds : List TokenKind}
    (hgap : Tokens.isGap c = false) (hread : readToken (c :: rest) = some (kind, 0))
    (h : Reads rest kinds) : Reads (c :: rest) (kind :: kinds) := by
  have hread' : readToken (c :: ([] ++ rest)) = some (kind, ([] : List Char).length) := hread
  exact Reads.token hgap hread' h

theorem Reads.star {rest : List Char} {kinds : List TokenKind} (h : Reads rest kinds) :
    Reads ('*' :: rest) (.star :: kinds) :=
  Reads.mark (by decide) rfl h

theorem Reads.comma {rest : List Char} {kinds : List TokenKind} (h : Reads rest kinds) :
    Reads (',' :: rest) (.comma :: kinds) :=
  Reads.mark (by decide) rfl h

theorem Reads.dot {rest : List Char} {kinds : List TokenKind} (h : Reads rest kinds) :
    Reads ('.' :: rest) (.dot :: kinds) :=
  Reads.mark (by decide) rfl h

/-- What a token at a letter or an underscore is. -/
theorem readToken_of_startsName {c : Char} (h : Token.startsName c = true) (text : List Char) :
    readToken (c :: text) =
      some (TokenKind.ofWord (String.ofList (c :: text.takeWhile Token.continuesName)),
        (text.takeWhile Token.continuesName).length) := by
  have hword := (Token.isWord_of_continuesName (Token.continuesName_of_startsName h)).2
  have hne : c ≠ '*' ∧ c ≠ ',' ∧ c ≠ '.' ∧ c ≠ '`' := by
    refine ⟨?_, ?_, ?_, ?_⟩ <;> rintro rfl <;> exact absurd hword (by decide)
  unfold readToken
  split
  · contradiction
  · next heq => exact absurd (List.cons.inj heq).1 hne.1
  · next heq => exact absurd (List.cons.inj heq).1 hne.2.1
  · next heq => exact absurd (List.cons.inj heq).1 hne.2.2.1
  · next heq =>
      obtain ⟨rfl, rfl⟩ := List.cons.inj heq
      rw [if_neg hne.2.2.2, if_pos h]

/-- A run of letters, digits and underscores is one token. -/
theorem Reads.word {c : Char} (run : List Char) {rest : List Char} {kinds : List TokenKind}
    (hc : Token.startsName c = true) (hrun : ∀ d ∈ run, Token.continuesName d = true)
    (hrest : Text.Halts Token.continuesName rest) (h : Reads rest kinds) :
    Reads (c :: (run ++ rest)) (TokenKind.ofWord (String.ofList (c :: run)) :: kinds) := by
  have hword := (Token.isWord_of_continuesName (Token.continuesName_of_startsName hc)).2
  have hgap := Tokens.isGap_of_isWord hword
  have hread := readToken_of_startsName hc (run ++ rest)
  rw [Text.takeWhile_run hrun hrest] at hread
  exact Reads.token hgap hread h

/-- A name between backticks is read as a name. -/
theorem Reads.backticked {name : String} (hne : name.toList ≠ []) (hname : '`' ∉ name.toList)
    {rest : List Char} {kinds : List TokenKind} (h : Reads rest kinds) :
    Reads (Token.backticked name.toList ++ rest) (.name name :: kinds) := by
  have hread : readToken ('`' :: ((name.toList ++ ['`']) ++ rest)) =
      some (.name name, (name.toList ++ ['`']).length) := by
    have hquoted := Token.backtickName_append hne hname rest
    rw [List.append_assoc, List.cons_append, List.nil_append]
    simp [readToken, hquoted]
  exact Reads.token (by decide) hread h

/-- A name that is written is read as a name. -/
theorem Reads.name {name : String} (hname : IsName name) {rest : List Char}
    {kinds : List TokenKind} (hrest : Text.Halts Token.continuesName rest) (h : Reads rest kinds) :
    Reads (nameText name ++ rest) (.name name :: kinds) := by
  unfold nameText
  split
  · next hbare =>
      have hparts := bareParts_of_isBareName hbare
      obtain ⟨c, more, hchars, hc, hmore⟩ := hparts.exists_cons
      have hword : TokenKind.ofWord (String.ofList (c :: more)) = .name name := by
        rw [← hchars, String.ofList_toList]
        unfold TokenKind.ofWord
        rw [if_neg hparts.ne_select, if_neg hparts.ne_from]
      rw [hchars, ← hword]
      exact Reads.word more hc hmore hrest h
  · exact Reads.backticked hname.ne_empty hname.no_backtick h

/-! ## Paths -/

/-- The token of a segment. -/
def segmentKind (segment : String) : TokenKind :=
  if segment = "*" then .star else .name segment

/-- The tokens of a path. -/
def pathKinds (path : Path) : List TokenKind :=
  [TokenKind.dot].intercalate (path.map fun segment => [segmentKind segment])

/-- The tokens of a list of paths. -/
def listKinds (paths : List Path) : List TokenKind :=
  [TokenKind.comma].intercalate (paths.map pathKinds)

theorem IsPath.segments {path : Path} (h : IsPath path) :
    ∀ segment ∈ path, segment = "*" ∨ IsName segment := by
  intro segment hmem
  rcases h with rfl | ⟨name, rest, rfl, hname, hrest⟩
  · exact Or.inl (List.mem_singleton.mp hmem)
  · rcases List.mem_cons.mp hmem with rfl | hmem
    · exact Or.inr hname
    · exact hrest segment hmem

theorem IsPath.ne_nil {path : Path} (h : IsPath path) : path ≠ [] := by
  rcases h with rfl | ⟨name, rest, rfl, -⟩
  · exact List.cons_ne_nil _ _
  · exact List.cons_ne_nil _ _

theorem Reads.segment {segment : String} (hsegment : segment = "*" ∨ IsName segment)
    {rest : List Char} {kinds : List TokenKind} (hrest : Text.Halts Token.continuesName rest)
    (h : Reads rest kinds) :
    Reads (segmentText segment ++ rest) (segmentKind segment :: kinds) := by
  unfold segmentText segmentKind
  split
  · exact Reads.star h
  · next hstar =>
      rcases hsegment with heq | hname
      · contradiction
      · exact Reads.name hname hrest h

theorem continuesName_marks : Token.continuesName '.' = false ∧ Token.continuesName ',' = false ∧
    Token.continuesName ' ' = false := by
  decide

/-- The segments of a path are read with the dots between them. -/
theorem Reads.path {path : Path} (hne : path ≠ [])
    (hpath : ∀ segment ∈ path, segment = "*" ∨ IsName segment) {rest : List Char}
    {kinds : List TokenKind} (hrest : Text.Halts Token.continuesName rest) (h : Reads rest kinds) :
    Reads (pathText path ++ rest) (pathKinds path ++ kinds) := by
  unfold pathText pathKinds
  induction path with
  | nil => contradiction
  | cons segment path ih =>
      have hsegment := hpath segment List.mem_cons_self
      cases path with
      | nil =>
          rw [List.map_singleton, List.map_singleton, List.intercalate_singleton,
            List.intercalate_singleton]
          exact Reads.segment hsegment hrest h
      | cons next path =>
          have hmore := ih (List.cons_ne_nil _ _) fun other hmem =>
            hpath other (List.mem_cons_of_mem _ hmem)
          rw [List.map_cons, List.map_cons, List.intercalate_cons_cons, List.append_assoc,
            List.append_assoc, List.map_cons, List.map_cons, List.intercalate_cons_cons]
          exact Reads.segment hsegment (Text.halts_cons continuesName_marks.1 _) (Reads.dot hmore)

/-- The paths of a list are read with the commas between them. -/
theorem Reads.list {paths : List Path} (hne : paths ≠ []) (hpaths : ∀ path ∈ paths, IsPath path)
    {rest : List Char} {kinds : List TokenKind} (hrest : Text.Halts Token.continuesName rest)
    (h : Reads rest kinds) :
    Reads (listText (paths.map pathText) ++ rest) (listKinds paths ++ kinds) := by
  unfold listText listKinds
  induction paths with
  | nil => contradiction
  | cons path paths ih =>
      have hpath := hpaths path List.mem_cons_self
      cases paths with
      | nil =>
          rw [List.map_singleton, List.map_singleton, List.intercalate_singleton,
            List.intercalate_singleton]
          exact Reads.path hpath.ne_nil hpath.segments hrest h
      | cons next paths =>
          have hmore := ih (List.cons_ne_nil _ _) fun other hmem =>
            hpaths other (List.mem_cons_of_mem _ hmem)
          rw [List.map_cons, List.map_cons, List.intercalate_cons_cons, List.append_assoc,
            List.append_assoc, List.map_cons, List.map_cons, List.intercalate_cons_cons,
            List.append_assoc, List.append_assoc]
          exact Reads.path hpath.ne_nil hpath.segments (Text.halts_cons continuesName_marks.2.1 _)
            (Reads.comma hmore.space)

/-- Whether a text is read as the name of a table, both where the head of a query is cut off and
where its tokens are read. -/
structure IsTable (text : List Char) (table : String) : Prop where
  solid : Text.Solid text
  found : ∀ rest, Text.Halts Text.isWord rest → tableText? (text ++ rest) = some (text, rest)
  reads : Reads text [.name table]

theorem isTable_nameText {table : String} (h : IsName table) : IsTable (nameText table) table where
  solid := solid_nameText h
  found := fun _ hrest => tableText?_nameText h hrest
  reads := by
    have hname := Reads.name h (Text.halts_nil _) reads_nil
    rwa [List.append_nil] at hname

/-- A name may be put in backticks where it need not be. -/
theorem isTable_backticked {table : String} (h : IsName table) :
    IsTable (Token.backticked table.toList) table where
  solid := Token.solid_backticked fun c hc => (h.chars c hc).2
  found := fun rest _ => tableText?_backticked h.ne_empty h.no_backtick rest
  reads := by
    have hname := Reads.backticked h.ne_empty h.no_backtick reads_nil
    rwa [List.append_nil] at hname

/-- The head of a query for some paths from a table that is given as it is written. -/
def headWith (paths : List Path) (table : List Char) : List Char :=
  "SELECT".toList ++ ' ' :: (listText (paths.map pathText) ++ ' ' ::
    ("FROM".toList ++ ' ' :: table))

/-- The head of a canonical query as it is written. -/
def headText (paths : List Path) (table : String) : List Char :=
  "SELECT".toList ++ ' ' :: (listText (paths.map pathText) ++ ' ' ::
    ("FROM".toList ++ ' ' :: nameText table))

/-- A head is read as it was written. -/
theorem reads_headWith {paths : List Path} (hne : paths ≠ []) (hpaths : ∀ path ∈ paths, IsPath path)
    {text : List Char} {table : String} (htable : IsTable text table) :
    Reads (headWith paths text)
      (.selectWord "SELECT" :: (listKinds paths ++ [.fromWord "FROM", .name table])) := by
  have hspace := continuesName_marks.2.2
  have hfrom : Reads ("FROM".toList ++ ' ' :: text) [.fromWord "FROM", .name table] :=
    Reads.word "ROM".toList (by decide) (List.all_eq_true.mp (by decide))
      (Text.halts_cons hspace _) htable.reads.space
  have hlist := Reads.list hne hpaths (Text.halts_cons hspace _) hfrom.space
  exact Reads.word "ELECT".toList (by decide) (List.all_eq_true.mp (by decide))
    (Text.halts_cons hspace _) hlist.space

/-! ## The grammar of heads -/

/-- Further segments are put onto the path that is being read. -/
theorem foldlM_segments (done : List Path) (segments : List String) (path : List String) :
    (path.flatMap fun segment => [TokenKind.dot, segmentKind segment]).foldlM HeadState.step
      (.inPath done segments) = some (.inPath done (path.reverse ++ segments)) := by
  induction path generalizing segments with
  | nil => rfl
  | cons segment path ih =>
      have hdot :
          HeadState.step (.inPath done segments) .dot = some (.afterDot done segments) := rfl
      have hsegment : HeadState.step (.afterDot done segments) (segmentKind segment) =
          some (.inPath done (segment :: segments)) := by
        unfold segmentKind
        split
        · next hstar =>
            rw [hstar]
            rfl
        · rfl
      rw [List.flatMap_cons, List.cons_append, List.cons_append, List.nil_append,
        List.foldlM_cons, hdot]
      simp only [Option.bind_eq_bind, Option.bind_some, List.foldlM_cons, hsegment, ih,
        List.reverse_cons, List.append_assoc, List.cons_append, List.nil_append]

/-- A path leads to a state in which it counts as read, whether a comma or the table follows. -/
theorem exists_foldlM_path {path : Path} (h : IsPath path) (done : List Path) :
    ∃ state, (pathKinds path).foldlM HeadState.step (.expectingPath done) = some state ∧
      HeadState.step state .comma = some (.expectingPath (path :: done)) ∧
      ∀ spelling, HeadState.step state (.fromWord spelling) =
        some (.expectingTable (path :: done).reverse) := by
  rcases h with rfl | ⟨name, rest, rfl, hname, -⟩
  · exact ⟨.afterStar done, rfl, rfl, fun _ => rfl⟩
  · have hfirst : HeadState.step (.expectingPath done) (segmentKind name) =
        some (.inPath done [name]) := by
      unfold segmentKind
      rw [if_neg hname.ne_star]
      rfl
    have hkinds : pathKinds (name :: rest) = segmentKind name ::
        rest.flatMap fun segment => [TokenKind.dot, segmentKind segment] := by
      unfold pathKinds
      rw [List.map_cons, Text.intercalate_cons, List.flatMap_map]
      rfl
    have hreverse : (rest.reverse ++ [name]).reverse = name :: rest := by
      rw [List.reverse_append, List.reverse_reverse]
      rfl
    refine ⟨.inPath done (rest.reverse ++ [name]), ?_, ?_, ?_⟩
    · rw [hkinds, List.foldlM_cons, hfirst]
      exact foldlM_segments done [name] rest
    · rw [HeadState.step, hreverse]
    · intro spelling
      rw [HeadState.step, hreverse]

/-- The paths of a list are collected up to the word in front of the table. -/
theorem foldlM_listKinds {paths : List Path} (hne : paths ≠ [])
    (hpaths : ∀ path ∈ paths, IsPath path) (done : List Path) (spelling : String) :
    (listKinds paths ++ [TokenKind.fromWord spelling]).foldlM HeadState.step (.expectingPath done) =
      some (.expectingTable (done.reverse ++ paths)) := by
  induction paths generalizing done with
  | nil => contradiction
  | cons path paths ih =>
      obtain ⟨state, hstate, hcomma, hfrom⟩ :=
        exists_foldlM_path (hpaths path List.mem_cons_self) done
      unfold listKinds
      cases paths with
      | nil =>
          rw [List.map_singleton, List.intercalate_singleton, List.foldlM_append, hstate]
          show HeadState.step state (TokenKind.fromWord spelling) >>= pure = _
          rw [bind_pure, hfrom, List.reverse_cons]
      | cons next paths =>
          have hrest := ih (List.cons_ne_nil _ _)
            (fun other hmem => hpaths other (List.mem_cons_of_mem _ hmem)) (path :: done)
          unfold listKinds at hrest
          rw [List.map_cons, List.map_cons, List.intercalate_cons_cons, List.append_assoc,
            List.append_assoc, List.foldlM_append, hstate]
          show (.comma :: ([TokenKind.comma].intercalate (pathKinds next :: paths.map pathKinds) ++
            [TokenKind.fromWord spelling])).foldlM HeadState.step state = _
          rw [List.foldlM_cons, hcomma]
          rw [List.map_cons] at hrest
          refine hrest.trans ?_
          rw [List.reverse_cons, List.append_assoc]
          rfl

/-- **A head that is written is parsed to its paths and its table.** -/
theorem parseHead_headWith {paths : List Path} (hne : paths ≠ [])
    (hpaths : ∀ path ∈ paths, IsPath path) {text : List Char} {table : String}
    (htable : IsTable text table) : parseHead (headWith paths text) = .ok ⟨paths, table⟩ := by
  have hsteps : (TokenKind.selectWord "SELECT" :: (listKinds paths ++
      [.fromWord "FROM", .name table])).foldlM HeadState.step .start =
        some (.complete ⟨paths, table⟩) := by
    rw [List.foldlM_cons]
    have hsplit : listKinds paths ++ [TokenKind.fromWord "FROM", TokenKind.name table] =
        (listKinds paths ++ [TokenKind.fromWord "FROM"]) ++ [TokenKind.name table] := by
      rw [List.append_assoc]
      rfl
    show (listKinds paths ++ [TokenKind.fromWord "FROM", TokenKind.name table]).foldlM
      HeadState.step (.expectingPath []) = _
    rw [hsplit, List.foldlM_append, foldlM_listKinds hne hpaths]
    rfl
  exact Grammar.parse_of_cuts (reads_headWith hne hpaths htable) hsteps rfl

/-- The head of a canonical query is parsed to its paths and its table. -/
theorem parseHead_headText {paths : List Path} (hne : paths ≠ [])
    (hpaths : ∀ path ∈ paths, IsPath path) {table : String} (htable : IsName table) :
    parseHead (headText paths table) = .ok ⟨paths, table⟩ :=
  parseHead_headWith hne hpaths (isTable_nameText htable)

end Query
end SurrealSchema
