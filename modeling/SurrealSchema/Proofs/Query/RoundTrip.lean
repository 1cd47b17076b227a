import SurrealSchema.Proofs.Query.Expressions
import SurrealSchema.Proofs.Query.Tokens

namespace SurrealSchema
namespace Query

/-!
# Parsing undoes writing

The text of a valid canonical query is spaced, so collapsing its blanks changes nothing; its head is
cut off at the `FROM` that was written; its tables are peeled off up to the clauses; and each clause
is found and read by itself.  Together, parsing gives back the parts that were written.
-/

/-! ## The head is cut off -/

theorem capitals_from : Text.Capitals "FROM".toList := by
  decide

theorem avoids_from_of_mark {text : List Char} (hblank : ∀ c ∈ text, Text.isBlank c = false)
    (hlast : Text.afterWord text.getLast? = false) : Avoids "FROM" text :=
  ⟨hblank, Text.not_ends_of_getLast capitals_from (by decide) hlast⟩

theorem solid_segmentText {segment : String} (h : segment = "*" ∨ IsName segment) :
    Text.Solid (segmentText segment) := by
  unfold segmentText
  split
  · exact ⟨List.cons_ne_nil _ _, List.forall_mem_singleton.mpr (by decide)⟩
  · next hstar =>
      rcases h with heq | hname
      · contradiction
      · exact solid_nameText hname

/-- A segment that stands by itself or behind a dot is no word `FROM`. -/
theorem not_ends_segmentText {segment : String} {before : List Char}
    (hbefore : Text.afterWord before.getLast? = false) :
    ¬ Text.Ends "FROM".toList (before ++ segmentText segment) := by
  have hmark : ∀ (text : List Char) {c : Char}, Text.isWord c = false →
      ¬ Text.Ends "FROM".toList (before ++ (text ++ [c])) := by
    intro text c hc
    apply Text.not_ends_of_getLast capitals_from (by decide)
    rw [← List.append_assoc, List.getLast?_concat]
    exact hc
  unfold segmentText nameText
  split
  · exact hmark [] (by decide)
  · split
    · next hbare =>
        have hparts := bareParts_of_isBareName hbare
        intro hends
        have hspells := Text.spells_of_ends capitals_from hbefore hparts.isWord hends
        have hascii : ∀ c ∈ segment.toList, c.toNat < 128 := by
          intro c hc
          exact (Token.isWord_of_continuesName (hparts.chars c hc)).1
        apply hparts.ne_from
        unfold lowerName
        rw [Text.lower_eq_of_spells capitals_from hascii hspells]
        decide
    · exact hmark _ (by decide)

/-- A path that stands by itself or behind a dot is solid and no word `FROM`. -/
theorem not_ends_pathText {path : Path} (hne : path ≠ [])
    (hpath : ∀ segment ∈ path, segment = "*" ∨ IsName segment) {before : List Char}
    (hbefore : Text.afterWord before.getLast? = false) :
    Text.Solid (pathText path) ∧ ¬ Text.Ends "FROM".toList (before ++ pathText path) := by
  unfold pathText
  induction path generalizing before with
  | nil => contradiction
  | cons segment path ih =>
      have hsegment := solid_segmentText (hpath segment List.mem_cons_self)
      cases path with
      | nil =>
          rw [List.map_singleton, List.intercalate_singleton]
          exact ⟨hsegment, not_ends_segmentText hbefore⟩
      | cons next path =>
          have hdot :
              Text.afterWord (before ++ (segmentText segment ++ ['.'])).getLast? = false := by
            rw [← List.append_assoc, List.getLast?_concat]
            decide
          obtain ⟨hsolid, hends⟩ := ih (List.cons_ne_nil _ _)
            (fun other hmem => hpath other (List.mem_cons_of_mem _ hmem)) hdot
          rw [List.map_cons, List.map_cons, List.intercalate_cons_cons]
          rw [List.map_cons] at hsolid hends
          refine ⟨?_, ?_⟩
          · exact (hsegment.append (List.forall_mem_singleton.mpr (by decide))).append hsolid.2
          · rw [List.append_assoc] at hends
            exact hends

/-- A path has no blanks and does not end in the word `FROM`. -/
theorem avoids_from_pathText {path : Path} (h : IsPath path) :
    pathText path ≠ [] ∧ Avoids "FROM" (pathText path) := by
  have hstart : Text.afterWord ([] : List Char).getLast? = false := rfl
  obtain ⟨hsolid, hends⟩ := not_ends_pathText h.ne_nil h.segments hstart
  exact ⟨hsolid.1, hsolid.2, hends⟩

/-- The list of paths is spaced, and none of its words ends in `FROM`. -/
theorem spaced_paths {paths : List Path} (hne : paths ≠ []) (hpaths : ∀ path ∈ paths, IsPath path) :
    Text.Spaced (fun word => word ≠ [] ∧ Avoids "FROM" word) (listText (paths.map pathText)) := by
  have hcomma : Text.isBlank ',' = false := by
    decide
  have hmark : ∀ word : List Char, (word ≠ [] ∧ Avoids "FROM" word) →
      word ++ [','] ≠ [] ∧ Avoids "FROM" (word ++ [',']) := by
    intro word hword
    have hsolid : Text.Solid word := ⟨hword.1, hword.2.1⟩
    obtain ⟨hne, hblank⟩ := hsolid.append (List.forall_mem_singleton.mpr hcomma)
    refine ⟨hne, avoids_from_of_mark hblank ?_⟩
    rw [List.getLast?_concat]
    decide
  have hitems : ∀ item ∈ paths.map pathText,
      Text.Spaced (fun word => word ≠ [] ∧ Avoids "FROM" word) item := by
    intro item hmem
    obtain ⟨path, hpath, rfl⟩ := List.mem_map.mp hmem
    exact .word (avoids_from_pathText (hpaths path hpath))
  have hne' : paths.map pathText ≠ [] := by
    simpa using hne
  exact Text.Spaced.intercalate [','] hne' hitems (fun _ hword => hword) hmark

/-- What follows four words follows the last of them. -/
theorem append_spaced (first second third fourth rest : List Char) :
    (first ++ ' ' :: (second ++ ' ' :: (third ++ ' ' :: fourth))) ++ rest =
      first ++ ' ' :: (second ++ ' ' :: (third ++ ' ' :: (fourth ++ rest))) := by
  simp only [List.append_assoc, List.cons_append]

/-- The head of a text is cut off where its words are: `SELECT`, words that do not end in `FROM`,
`FROM` and a table. -/
theorem splitHead?_of_spaced {select items word table tail : List Char}
    (hselect : Text.Spells "SELECT".toList select) (hitems : Text.Spaced (Avoids "FROM") items)
    (hfrom : Text.Spells "FROM".toList word) (hhalts : Text.Halts Text.isBlank (table ++ tail))
    (htable : tableText? (table ++ tail) = some (table, tail)) :
    splitHead? (select ++ ' ' :: (items ++ ' ' :: (word ++ ' ' :: (table ++ tail)))) =
      some (select ++ ' ' :: (items ++ ' ' :: (word ++ ' ' :: table)), table, tail) := by
  have hsplit : select ++ ' ' :: (items ++ ' ' :: (word ++ ' ' :: (table ++ tail))) =
      (select ++ ' ' :: (items ++ ' ' :: (word ++ ' ' :: table))) ++ tail :=
    (append_spaced _ _ _ _ tail).symm
  have hkeyword : Text.keywordAnyCase? "SELECT" none
      (select ++ ' ' :: (items ++ ' ' :: (word ++ ' ' :: (table ++ tail)))) =
        some (' ' :: (items ++ ' ' :: (word ++ ' ' :: (table ++ tail)))) := by
    unfold Text.keywordAnyCase?
    rw [Text.afterLiteralAnyCase_of_spells hselect]
    rfl
  have hfind : find "FROM" tableText? (some 'T')
      (' ' :: (items ++ ' ' :: (word ++ ' ' :: (table ++ tail)))) = some (table, tail) := by
    -- The search passes every word of the list and stops at the keyword behind it.
    rw [find_space capitals_from (by decide), find_spaced capitals_from (by decide) hitems]
    exact find_spelled (by decide) (by decide) hfrom hhalts htable
  obtain ⟨⟨skipped, found⟩, hsearch, hfound⟩ := Option.map_eq_some_iff.mp hfind
  have hsearch' : Text.search fromTable? (some 'T')
      (' ' :: (items ++ ' ' :: (word ++ ' ' :: (table ++ tail)))) = some (skipped, found) := hsearch
  have hfound' : found = (table, tail) := hfound
  unfold splitHead?
  rw [hkeyword]
  dsimp only
  rw [hsearch', hfound', Option.map_some]
  dsimp only
  rw [hsplit, List.length_append, Nat.add_sub_cancel, List.take_left]

/-- Whether a text is cut off as the head of a query, whatever clauses follow it; `table` is the
name it ends with, as it is written. -/
def IsHead (head table : List Char) : Prop :=
  ∀ tail, Text.Halts Text.isWord tail → splitHead? (head ++ tail) = some (head, table, tail)

/-- A text is a head if it has the keywords of one and no word between them ends in `FROM`. -/
theorem isHead_of_spaced {select items word : List Char}
    (hselect : Text.Spells "SELECT".toList select) (hitems : Text.Spaced (Avoids "FROM") items)
    (hfrom : Text.Spells "FROM".toList word) {text : List Char} {table : String}
    (htable : IsTable text table) :
    IsHead (select ++ ' ' :: (items ++ ' ' :: (word ++ ' ' :: text))) text := by
  intro tail htail
  rw [append_spaced]
  exact splitHead?_of_spaced hselect hitems hfrom (htable.solid.halts_append tail)
    (htable.found tail htail)

/-- A head that is written is one. -/
theorem isHead_headWith {paths : List Path} (hne : paths ≠ [])
    (hpaths : ∀ path ∈ paths, IsPath path) {text : List Char} {table : String}
    (htable : IsTable text table) : IsHead (headWith paths text) text := by
  have hitems := (spaced_paths hne hpaths).mono fun _ hword => hword.2
  have hselect : Text.Spells "SELECT".toList "SELECT".toList := by
    decide
  exact isHead_of_spaced hselect hitems (Text.spells_self capitals_from) htable

/-- The head of a canonical query is one. -/
theorem isHead_headText {paths : List Path} (hne : paths ≠ [])
    (hpaths : ∀ path ∈ paths, IsPath path) {table : String} (htable : IsName table) :
    IsHead (headText paths table) (nameText table) :=
  isHead_headWith hne hpaths (isTable_nameText htable)

/-- The query of a head and of any text behind it that does not go on with the name of the
table. -/
theorem parseSelect_of_isHead {head table tail : List Char} (hhead : IsHead head table)
    (htail : Text.Halts Text.isWord tail) :
    parseSelect (head ++ tail) =
      let (others, rest) := moreTables tail.length tail
      { kind := .select
        tables := (readHead head table).2 :: others
        selections := (readHead head table).1
        conditions := ((clause? "WHERE" rest).map conditionsIn).getD []
        modifiers := modifiersOf rest
        returnsMany := limit? rest != some 1 } := by
  unfold parseSelect
  rw [hhead tail htail]

/-- The query of a canonical head selects its paths from its table. -/
theorem parseSelect_headText {paths : List Path} (hne : paths ≠ [])
    (hpaths : ∀ path ∈ paths, IsPath path) {table : String} (htable : IsName table)
    {tail : List Char} (htail : Text.Halts Text.isWord tail) :
    parseSelect (headText paths table ++ tail) =
      let (others, rest) := moreTables tail.length tail
      { kind := .select
        tables := table :: others
        selections := paths.filterMap Selection.ofPath?
        conditions := ((clause? "WHERE" rest).map conditionsIn).getD []
        modifiers := modifiersOf rest
        returnsMany := limit? rest != some 1 } := by
  rw [parseSelect_of_isHead (isHead_headText hne hpaths htable) htail]
  simp only [readHead, parseHead_headText hne hpaths htable]

/-! ## The text is spaced -/

/-- A text of words with single spaces between them that starts with `SELECT` is read as it is. -/
theorem parse_of_spaced {rest : List Char} (hrest : Text.Spaced Text.Solid rest) :
    parse (String.ofList ("SELECT".toList ++ ' ' :: rest)) =
      parseSelect ("SELECT".toList ++ ' ' :: rest) := by
  have hselect : Text.Solid "SELECT".toList := by decide
  have hcollapse : [' '].intercalate (Text.words ("SELECT".toList ++ ' ' :: rest)) =
      "SELECT".toList ++ ' ' :: rest :=
    (Text.intercalate_words_of_spaced (.cons hselect hrest)).2
  have hfirst : (Text.words ("SELECT".toList ++ ' ' :: rest)).head?.getD [] = "SELECT".toList := by
    rw [Text.words_append_blank (by decide), Text.words_of_solid hselect]
    rfl
  have hkind : kindOfWord (Text.upper "SELECT".toList) = .select := by decide
  simp only [parse, String.toList_ofList, hcollapse, hfirst, hkind]

/-- **A query for a single record selects its paths from its table.** -/
theorem parse_single {paths : List Path} (hne : paths ≠ []) (hpaths : ∀ path ∈ paths, IsPath path)
    {text : List Char} {table : String} (htable : IsTable text table) :
    parse (String.ofList (headWith paths text ++ " LIMIT 1".toList)) =
      { kind := .select
        tables := [table]
        selections := paths.filterMap Selection.ofPath?
        conditions := []
        modifiers := [.limit 1]
        returnsMany := false } := by
  have hspaced : Text.Spaced Text.Solid (listText (paths.map pathText) ++ ' ' ::
      ("FROM".toList ++ ' ' :: (text ++ " LIMIT 1".toList))) := by
    have hwords := (spaced_paths hne hpaths).mono (Q := Text.Solid) fun _ hword =>
      ⟨hword.1, hword.2.1⟩
    have hlimit : Text.Spaced Text.Solid ("LIMIT".toList ++ ' ' :: ['1']) :=
      .cons (by decide) (.word (by decide))
    exact hwords.append (.cons (by decide) (.cons htable.solid hlimit))
  have hsplit : headWith paths text ++ " LIMIT 1".toList =
      "SELECT".toList ++ ' ' :: (listText (paths.map pathText) ++ ' ' ::
        ("FROM".toList ++ ' ' :: (text ++ " LIMIT 1".toList))) := append_spaced _ _ _ _ _
  have hmore : moreTables " LIMIT 1".toList.length " LIMIT 1".toList = ([], " LIMIT 1".toList) := by
    decide
  have hhalts : Text.Halts Text.isWord " LIMIT 1".toList := Text.halts_cons (by decide) _
  rw [hsplit, parse_of_spaced hspaced, ← hsplit,
    parseSelect_of_isHead (isHead_headWith hne hpaths htable) hhalts, hmore, readHead,
    parseHead_headWith hne hpaths htable]
  rfl

theorem spaced_clausesText {front : List Char} (hfront : Text.Spaced Text.Solid front)
    {clauses : List Clause} (hclauses : ∀ clause ∈ clauses, clause.IsPlain) :
    Text.Spaced Text.Solid (front ++ clausesText clauses) := by
  induction clauses generalizing front with
  | nil =>
      rw [show clausesText [] = [] from rfl, List.append_nil]
      exact hfront
  | cons clause clauses ih =>
      have hclause := hclauses clause List.mem_cons_self
      have hwords : Text.Spaced Text.Solid (clause.keyword.toList ++ ' ' :: clause.body) :=
        .cons (solid_keyword hclause.keyword) (hclause.body.mono fun _ hword => hword.solid)
      have hrest := ih (hfront.append hwords) fun other hmem =>
        hclauses other (List.mem_cons_of_mem _ hmem)
      rw [clausesText_cons]
      simp only [List.append_assoc, List.cons_append] at hrest ⊢
      exact hrest

theorem spaced_tables {tables : List String} (hne : tables ≠ [])
    (htables : ∀ table ∈ tables, IsName table) :
    Text.Spaced Text.Solid (listText (tables.map nameText)) := by
  have hmark : ∀ word, Text.Solid word → Text.Solid (word ++ [',']) :=
    fun word hword => hword.append (List.forall_mem_singleton.mpr (by decide))
  have hitems : ∀ item ∈ tables.map nameText, Text.Spaced Text.Solid item := by
    intro item hmem
    obtain ⟨table, htable, rfl⟩ := List.mem_map.mp hmem
    exact .word (solid_nameText (htables table htable))
  have hne' : tables.map nameText ≠ [] := by
    simpa using hne
  exact Text.Spaced.intercalate [','] hne' hitems (fun _ hword => hword) hmark

/-! ## The clauses are plain -/

namespace Canonical

variable {query : Canonical}

theorem isPlain_whereClause (h : query.Valid) {clause : Clause}
    (hclause : query.whereClause? = some clause) :
    clause.IsPlain ∧ clause.keyword = "WHERE" ∧ clause.body = clause.expression := by
  unfold whereClause? at hclause
  split at hclause
  · contradiction
  · next hne =>
      have hcomparisons : query.comparisons ≠ [] := by
        intro hnil
        rw [hnil] at hne
        exact hne rfl
      have hkeyword : "WHERE" ∈ clauseWords := by
        decide
      rw [← Option.some.inj hclause]
      exact ⟨⟨hkeyword, spaced_conjunction hcomparisons h.comparisons⟩, rfl, rfl⟩

/-- Items that are runs of word characters make a list of plain words. -/
theorem spaced_listText {items : List (List Char)} (hne : items ≠ [])
    (hitems : ∀ item ∈ items, Text.Spaced PlainRun item) : Text.Spaced Plain (listText items) :=
  Text.Spaced.intercalate [','] hne hitems (fun _ hrun => hrun.plain)
    fun _ hrun => hrun.plain_comma

theorem spaced_orderItem {item : OrderItem} (h : IsPlainWord item.field) :
    Text.Spaced PlainRun item.text := by
  unfold OrderItem.text
  split
  · exact .word h.run
  · exact .cons h.run (.word (plainRun_direction _))

/-- A clause that lists items, if there are any, is plain when the items are runs of plain words. -/
theorem isPlain_listClause {α : Type} {items : List α} {write : α → List Char} {keyword : String}
    (hkeyword : keyword ∈ clauseWords)
    (hitems : ∀ item ∈ items, Text.Spaced PlainRun (write item)) {clause : Clause}
    (hclause : (if items.isEmpty then none
      else some (⟨keyword, true, listText (items.map write)⟩ : Clause)) = some clause) :
    clause.IsPlain ∧ clause.keyword = keyword ∧
      clause.body = "BY".toList ++ ' ' :: clause.expression := by
  split at hclause
  · contradiction
  · next hne =>
      have hwritten : ∀ item ∈ items.map write, Text.Spaced PlainRun item :=
        List.forall_mem_map.mpr hitems
      have hne' : items.map write ≠ [] := by
        simpa using hne
      rw [← Option.some.inj hclause]
      exact ⟨⟨hkeyword, spaced_listText hne' hwritten⟩, rfl, rfl⟩

theorem isPlain_groupClause (h : query.Valid) {clause : Clause}
    (hclause : query.groupClause? = some clause) :
    clause.IsPlain ∧ clause.keyword = "GROUP" ∧
      clause.body = "BY".toList ++ ' ' :: clause.expression :=
  isPlain_listClause (by decide) (fun word hword => .word (h.group word hword).run) hclause

theorem isPlain_orderClause (h : query.Valid) {clause : Clause}
    (hclause : query.orderClause? = some clause) :
    clause.IsPlain ∧ clause.keyword = "ORDER" ∧
      clause.body = "BY".toList ++ ' ' :: clause.expression :=
  isPlain_listClause (by decide) (fun item hitem => spaced_orderItem (h.order item hitem)) hclause

theorem isPlain_limitClause {clause : Clause} (hclause : query.limitClause? = some clause) :
    clause.IsPlain ∧ clause.keyword = "LIMIT" := by
  obtain ⟨count, -, rfl⟩ := Option.map_eq_some_iff.mp hclause
  have hkeyword : "LIMIT" ∈ clauseWords := by
    decide
  exact ⟨⟨hkeyword, .word (plainRun_digits count).plain⟩, rfl⟩

theorem isPlain_of_mem_clauses (h : query.Valid) :
    ∀ clause ∈ query.clauses, clause.IsPlain := by
  intro clause hmem
  unfold clauses at hmem
  rcases List.mem_append.mp hmem with hmem | hmem
  · rcases List.mem_append.mp hmem with hmem | hmem
    · rcases List.mem_append.mp hmem with hmem | hmem
      · exact (isPlain_whereClause h (Option.mem_toList.mp hmem)).1
      · exact (isPlain_groupClause h (Option.mem_toList.mp hmem)).1
    · exact (isPlain_orderClause h (Option.mem_toList.mp hmem)).1
  · exact (isPlain_limitClause (Option.mem_toList.mp hmem)).1

end Canonical

/-! ## Each clause is read -/

/-- Behind the word `BY` the expression is read. -/
theorem readBy {expression : List Char} (hexpression : Text.Spaced Plain expression)
    {clauses : List Clause} (hclauses : AreClauses clauses) :
    ((Text.keywordThenBlanks? "BY"
        ("BY".toList ++ ' ' :: expression ++ clausesText clauses)).bind expression?).or
      (expression? ("BY".toList ++ ' ' :: expression ++ clausesText clauses)) =
        some expression := by
  have hhalts : Text.Halts Text.isBlank (expression ++ clausesText clauses) := by
    obtain ⟨word, rest, hword, hsplit, -⟩ := hexpression.exists_word
    rw [hsplit, List.append_assoc]
    exact hword.solid.halts_append _
  have hself : Text.Spells "BY".toList "BY".toList := by
    decide
  rw [List.append_assoc, List.cons_append]
  unfold Text.keywordThenBlanks?
  rw [Text.afterLiteralAnyCase_of_spells hself, Option.bind_some, Text.afterBlanks_space hhalts,
    Option.bind_some, expression?_spaced hexpression hclauses]
  rfl

/-- Behind `LIMIT` the number is read. -/
theorem readLimit (count : Nat) :
    ((Text.keywordThenBlanks? "BY" (toString count).toList).bind count?).or
      (count? (toString count).toList) = some count := by
  have hnone : Text.keywordThenBlanks? "BY" (toString count).toList = none := by
    rw [Option.eq_none_iff_forall_ne_some]
    intro after hafter
    obtain ⟨behind, hliteral, -⟩ := Option.bind_eq_some_iff.mp hafter
    obtain ⟨front, hsplit, hspells⟩ := Text.spells_of_afterLiteralAnyCase hliteral
    rw [Text.toList_toString] at hsplit
    exact Text.not_spells_toDigits (by decide) (by decide) hsplit hspells
  rw [hnone, count?_toString]
  rfl

namespace Canonical

variable {query : Canonical} {keyword : String}

theorem others_where (h : query.Valid) (hne : "WHERE" ≠ keyword) :
    Others keyword query.whereClause?.toList := by
  intro clause hmem
  obtain ⟨hplain, hkeyword, -⟩ := isPlain_whereClause h (Option.mem_toList.mp hmem)
  rw [hkeyword]
  exact ⟨hplain, hne⟩

theorem others_group (h : query.Valid) (hne : "GROUP" ≠ keyword) :
    Others keyword query.groupClause?.toList := by
  intro clause hmem
  obtain ⟨hplain, hkeyword, -⟩ := isPlain_groupClause h (Option.mem_toList.mp hmem)
  rw [hkeyword]
  exact ⟨hplain, hne⟩

theorem others_order (h : query.Valid) (hne : "ORDER" ≠ keyword) :
    Others keyword query.orderClause?.toList := by
  intro clause hmem
  obtain ⟨hplain, hkeyword, -⟩ := isPlain_orderClause h (Option.mem_toList.mp hmem)
  rw [hkeyword]
  exact ⟨hplain, hne⟩

theorem others_limit (query : Canonical) (hne : "LIMIT" ≠ keyword) :
    Others keyword query.limitClause?.toList := by
  intro clause hmem
  obtain ⟨hplain, hkeyword⟩ := isPlain_limitClause (Option.mem_toList.mp hmem)
  rw [hkeyword]
  exact ⟨hplain, hne⟩

theorem clause?_where (h : query.Valid) :
    clause? "WHERE" (clausesText query.clauses) =
      query.whereClause?.map Clause.expression := by
  have hafter : Others "WHERE" (query.groupClause?.toList ++ query.orderClause?.toList
      ++ query.limitClause?.toList) :=
    ((others_group h (by decide)).append (others_order h (by decide))).append
      (others_limit query (by decide))
  have hbefore : Others "WHERE" [] := by
    intro clause hmem
    contradiction
  have hsplit : query.clauses = [] ++ query.whereClause?.toList ++
      (query.groupClause?.toList ++ query.orderClause?.toList ++ query.limitClause?.toList) := by
    simp only [clauses, List.nil_append, List.append_assoc]
  rw [hsplit]
  apply find_clausesText (by decide) hbefore hafter
  intro clause hclause
  obtain ⟨hplain, hkeyword, hbody⟩ := isPlain_whereClause h hclause
  refine ⟨hplain, hkeyword, ?_⟩
  rw [hbody]
  exact expression?_spaced hplain.expression hafter.areClauses

theorem clauseBy?_group (h : query.Valid) :
    clauseBy? "GROUP" (clausesText query.clauses) =
      query.groupClause?.map Clause.expression := by
  have hafter : Others "GROUP" (query.orderClause?.toList ++ query.limitClause?.toList) :=
    (others_order h (by decide)).append (others_limit query (by decide))
  have hsplit : query.clauses = query.whereClause?.toList ++ query.groupClause?.toList ++
      (query.orderClause?.toList ++ query.limitClause?.toList) := by
    simp only [clauses, List.append_assoc]
  rw [hsplit]
  apply find_clausesText (by decide) (others_where h (by decide)) hafter
  intro clause hclause
  obtain ⟨hplain, hkeyword, hbody⟩ := isPlain_groupClause h hclause
  refine ⟨hplain, hkeyword, ?_⟩
  rw [hbody]
  exact readBy hplain.expression hafter.areClauses

theorem clauseBy?_order (h : query.Valid) :
    clauseBy? "ORDER" (clausesText query.clauses) =
      query.orderClause?.map Clause.expression := by
  have hbefore : Others "ORDER" (query.whereClause?.toList ++ query.groupClause?.toList) :=
    (others_where h (by decide)).append (others_group h (by decide))
  have hafter : Others "ORDER" query.limitClause?.toList := others_limit query (by decide)
  unfold clauses
  apply find_clausesText (by decide) hbefore hafter
  intro clause hclause
  obtain ⟨hplain, hkeyword, hbody⟩ := isPlain_orderClause h hclause
  refine ⟨hplain, hkeyword, ?_⟩
  rw [hbody]
  exact readBy hplain.expression hafter.areClauses

theorem limit?_limit (h : query.Valid) :
    Query.limit? (clausesText query.clauses) = query.limit := by
  have hbefore : Others "LIMIT" (query.whereClause?.toList ++ query.groupClause?.toList
      ++ query.orderClause?.toList) :=
    ((others_where h (by decide)).append (others_group h (by decide))).append
      (others_order h (by decide))
  have hafter : Others "LIMIT" [] := by
    intro clause hmem
    contradiction
  have hsplit : query.clauses = query.whereClause?.toList ++ query.groupClause?.toList
      ++ query.orderClause?.toList ++ query.limitClause?.toList ++ [] := by
    rw [List.append_nil]
    rfl
  have hfind : Query.limit? (clausesText query.clauses) =
      query.limitClause?.map fun clause => Text.natOfDigits clause.expression := by
    rw [hsplit]
    apply find_clausesText (by decide) hbefore hafter
    intro clause hclause
    obtain ⟨hplain, hkeyword⟩ := isPlain_limitClause hclause
    refine ⟨hplain, hkeyword, ?_⟩
    obtain ⟨count, -, rfl⟩ := Option.map_eq_some_iff.mp hclause
    rw [show clausesText [] = [] from rfl, List.append_nil]
    dsimp only
    rw [Text.toList_toString, Text.natOfDigits_toDigits, ← Text.toList_toString]
    exact readLimit count
  rw [hfind]
  unfold limitClause?
  rw [Option.map_map]
  have hvalue : ∀ count ∈ query.limit,
      ((fun clause : Clause => Text.natOfDigits clause.expression) ∘
        fun count => (⟨"LIMIT", false, (toString count).toList⟩ : Clause)) count = count := by
    intro count _
    show Text.natOfDigits (toString count).toList = count
    rw [Text.toList_toString, Text.natOfDigits_toDigits]
  cases hlimit : query.limit with
  | none => rfl
  | some count =>
      rw [Option.map_some, hvalue count hlimit]

/-- The comparisons are read. -/
theorem conditions_eq (h : query.Valid) :
    ((clause? "WHERE" (clausesText query.clauses)).map conditionsIn).getD [] =
      query.comparisons.map Comparison.condition := by
  rw [clause?_where h]
  unfold whereClause?
  split
  · next hempty =>
      rw [List.isEmpty_iff.mp hempty]
      rfl
  · show conditionsIn (" AND ".toList.intercalate (query.comparisons.map Comparison.text)) = _
    exact conditionsIn_text h.comparisons

/-- A list of items is read. -/
theorem listItems_of_runs {items : List (List Char)} (hne : items ≠ [])
    (hitems : ∀ item ∈ items, Text.Spaced PlainRun item) :
    listItems (listText items) = items.map String.ofList := by
  have hsolid : ∀ item ∈ items, Text.Spaced Text.Solid item := by
    intro item hmem
    exact (hitems item hmem).mono fun _ hrun => hrun.plain.solid
  apply listItems_listText hne
  · intro item hmem
    refine Text.Spaced.chars (p := (· ≠ ',')) ?_ (by decide) (hitems item hmem)
    intro word hrun c hc
    rintro rfl
    exact absurd (hrun.isWord _ hc) (by decide)
  · intro item hmem
    exact (hsolid item hmem).trimmed
  · intro item hmem
    exact (hsolid item hmem).ne_nil fun _ hword => hword.1

/-- The items of a clause that lists some, if there are any, are read. -/
theorem listModifier_eq {α : Type} {items : List α} {write : α → List Char} (keyword : String)
    (modifier : List String → Modifier)
    (hitems : ∀ item ∈ items, Text.Spaced PlainRun (write item)) :
    (((if items.isEmpty then none
        else some (⟨keyword, true, listText (items.map write)⟩ : Clause)).map
          Clause.expression).map fun text => modifier (listItems text)).toList =
      if items.isEmpty then []
      else [modifier (items.map fun item => String.ofList (write item))] := by
  split
  · rfl
  · next hne =>
      have hwritten : ∀ item ∈ items.map write, Text.Spaced PlainRun item :=
        List.forall_mem_map.mpr hitems
      have hne' : items.map write ≠ [] := by
        simpa using hne
      have hread := listItems_of_runs hne' hwritten
      rw [List.map_map] at hread
      show [modifier (listItems (listText (items.map write)))] = _
      rw [hread]
      rfl

/-- The modifiers are read. -/
theorem modifiersOf_eq (h : query.Valid) :
    modifiersOf (clausesText query.clauses) = query.meaning.modifiers := by
  have hgroup := listModifier_eq "GROUP" .group
    fun word hword => Text.Spaced.word (h.group word hword).run
  have horder := listModifier_eq "ORDER" .order
    fun item hitem => spaced_orderItem (h.order item hitem)
  simp only [String.ofList_toList, List.map_id'] at hgroup
  unfold modifiersOf
  rw [clauseBy?_group h, clauseBy?_order h, limit?_limit h]
  unfold groupClause? orderClause?
  rw [hgroup, horder]
  rfl

/-- The text of a query: its head, its further tables and its clauses. -/
theorem text_eq {table : String} {others : List String} (htables : query.tables = table :: others) :
    query.text = headText query.paths table ++
      (furtherText others ++ clausesText query.clauses) := by
  unfold text tailText headText
  rw [htables, listText_nameText, append_spaced, List.append_assoc]

/-- Single spaces stand between the words of a query. -/
theorem spaced_text (h : query.Valid) : ∃ rest,
    query.text = "SELECT".toList ++ ' ' :: rest ∧ Text.Spaced Text.Solid rest := by
  have hfrom : Text.Solid "FROM".toList := solid_of_capitals (by decide) (by decide)
  have hpaths := (spaced_paths h.paths_ne_nil h.paths).mono
    (Q := Text.Solid) fun _ hword => ⟨hword.1, hword.2.1⟩
  have htail := spaced_clausesText (spaced_tables h.tables_ne_nil h.tables)
    (isPlain_of_mem_clauses h)
  exact ⟨_, rfl, hpaths.append (.cons hfrom htail)⟩

end Canonical

end Query
end SurrealSchema
