import SurrealSchema.Proofs.Query.Conditions
import SurrealSchema.Proofs.Query.HeadEnds
import SurrealSchema.Proofs.Shape.Select

namespace SurrealSchema

/-!
# Heads that are not understood

A query is read twice: its head is cut off by a search, and then parsed.  If the head is parsed, the
two readings name the same table.  If it is not, the query is answered as if it selected everything
from the table that the search has found.
-/

namespace Text

/-- What follows a space in a spaced text is spaced. -/
theorem Spaced.of_append {front rest : List Char} (h : Spaced Solid (front ++ ' ' :: rest)) :
    Spaced Solid rest := by
  have hspace : ∀ {word : List Char}, Solid word → ' ' ∉ word := by
    intro word hword hmem
    exact absurd (hword.2 ' ' hmem) (by decide)
  generalize htext : front ++ ' ' :: rest = text at h
  induction h generalizing front with
  | word hword => exact absurd (by rw [← htext]; simp) (hspace hword)
  | @cons word text hword hrest ih =>
      rcases List.append_eq_append_iff.mp htext with ⟨inside, hinside, hsplit⟩ | ⟨inside, rfl, hsplit⟩
      · cases inside with
        | nil =>
            rw [(List.cons.inj hsplit).2]
            exact hrest
        | cons c inside =>
            -- The space would have to be part of the word.
            refine absurd ?_ (hspace hword)
            rw [hinside, ← (List.cons.inj hsplit).1]
            simp
      · cases inside with
        | nil =>
            rw [← (List.cons.inj hsplit).2]
            exact hrest
        | cons c inside => exact ih (List.cons.inj hsplit).2.symm

end Text

namespace Query

/-! ## Everything from a table -/

/-- Once the table has to follow, the paths of a head are settled. -/
theorem paths_of_foldlM_expectingTable {paths : List Path} {kinds : List TokenKind} {head : Head}
    (h : kinds.foldlM HeadState.step (.expectingTable paths) = some (.complete head)) :
    head.paths = paths := by
  cases kinds with
  | nil => cases Option.some.inj h
  | cons kind kinds =>
      rw [List.foldlM_cons] at h
      obtain ⟨state, hstep, hrest⟩ := Option.bind_eq_some_iff.mp h
      cases kind with
      | name value =>
          obtain rfl := Option.some.inj hstep
          cases kinds with
          | nil =>
              obtain rfl := HeadState.complete.inj (Option.some.inj hrest)
              rfl
          | cons next kinds => contradiction
      | _ => contradiction

/-- The head of a query for everything is parsed to a single star, if it is parsed. -/
theorem paths_of_parseHead_star {table : List Char} {head : Head}
    (h : parseHead ("SELECT * FROM ".toList ++ table) = .ok head) : head.paths = [["*"]] := by
  have hspace : ∀ {rest : List Char}, Text.Halts Token.continuesName (' ' :: rest) :=
    fun {rest} => Text.halts_cons (by decide) rest
  obtain ⟨kinds, hselect, hsteps⟩ := cuts_of_parseHead h
  obtain ⟨kinds, rfl, hstar⟩ := cuts_word (c := 'S') (by decide)
    (List.all_eq_true.mp (by decide : "ELECT".toList.all Token.continuesName = true)) hspace hselect
  obtain ⟨kind, more, kinds, hread, rfl, hfrom⟩ := (hstar.of_gap (by decide)).exists_token (by decide)
  obtain ⟨rfl, rfl⟩ := Prod.mk.inj (Option.some.inj hread)
  obtain ⟨kinds, rfl, -⟩ := cuts_word (c := 'F') (by decide)
    (List.all_eq_true.mp (by decide : "ROM".toList.all Token.continuesName = true)) hspace
    (hfrom.of_gap (by decide))
  exact paths_of_foldlM_expectingTable hsteps

/-- Everything is selected from a table, whether its head is parsed or not. -/
theorem readHead_star {table name : List Char} (htable : IsTableText table name) :
    (readHead ("SELECT * FROM ".toList ++ table) table).2 = bareTable table ∧
      ((readHead ("SELECT * FROM ".toList ++ table) table).1 = [] ∨
        (readHead ("SELECT * FROM ".toList ++ table) table).1 = [Selection.leaf "*"]) := by
  unfold readHead
  cases hparse : parseHead ("SELECT * FROM ".toList ++ table) with
  | error rejection => exact ⟨rfl, Or.inl rfl⟩
  | ok head =>
      have hsplit : "SELECT * FROM ".toList ++ table = "SELECT * FROM".toList ++ ' ' :: table := rfl
      refine ⟨?_, Or.inr ?_⟩
      · rw [hsplit] at hparse
        rw [htable.bareTable_eq]
        exact table_of_parseHead htable hparse
      · dsimp only
        rw [paths_of_parseHead_star hparse]
        rfl

/-- The query for everything from a table is cut off behind the table. -/
theorem splitHead?_star {table tail : List Char}
    (hspaced : Text.Spaced Text.Solid (table ++ tail))
    (htable : tableText? (table ++ tail) = some (table, tail)) :
    splitHead? ("SELECT * FROM ".toList ++ table ++ tail) =
      some ("SELECT * FROM ".toList ++ table, table, tail) := by
  have hstar : Text.Spaced (Avoids "FROM") "*".toList :=
    .word (avoids_from_of_mark (List.forall_mem_singleton.mpr (by decide)) (by decide))
  have hselect : Text.Capitals "SELECT".toList := by decide
  have hhalts : Text.Halts Text.isBlank (table ++ tail) := fun c hc => hspaced.trimmed.1 c hc
  exact splitHead?_of_spaced (Text.spells_self hselect) hstar (Text.spells_self capitals_from) hhalts
    htable

/-- The query for everything from a table is read as it is written. -/
theorem parse_star {table tail : List Char} (hspaced : Text.Spaced Text.Solid (table ++ tail)) :
    parse (String.ofList ("SELECT * FROM ".toList ++ table ++ tail)) =
      parseSelect ("SELECT * FROM ".toList ++ table ++ tail) := by
  have hstar : Text.Solid "*".toList := by decide
  have hfrom : Text.Solid "FROM".toList := by decide
  exact parse_of_spaced (.cons hstar (.cons hfrom hspaced))

end Query

namespace Catalog

/-- A star selects what an empty list selects. -/
theorem select_star (catalog : Catalog) (layout : Layout) :
    catalog.select layout [Selection.leaf "*"] = catalog.select layout [] := by
  rfl

/-- The answer to a query depends on its kind, its first table, what it selects and whether it is a
list. -/
theorem answerShape_congr (catalog : Catalog) {query other : Query}
    (hkind : query.kind = other.kind) (htable : query.table? = other.table?)
    (hselect : ∀ layout, catalog.select layout query.selections =
      catalog.select layout other.selections)
    (hmany : query.returnsMany = other.returnsMany) :
    catalog.answerShape query = catalog.answerShape other := by
  unfold answerShape queried?
  rw [hkind, htable, hmany]
  simp only [hselect]

/-- **The two readings of a head agree, and a head that is not understood selects everything.**  If
the head is parsed, its table is the one that the search has found.  If it is not, the answer has
the shape of the answer to the query for everything from that table. -/
theorem parseHead_agrees {query : String} {head table tail : List Char}
    (hfirst : (Text.words query.toList).head?.map Text.upper = some "SELECT".toList)
    (hsplit : Query.splitHead? (Text.collapseBlanks query.toList) = some (head, table, tail)) :
    (∀ parsed, Query.parseHead head = .ok parsed → parsed.table = Query.bareTable table) ∧
      ∀ rejection, Query.parseHead head = .error rejection → ∀ catalog : Catalog,
        catalog.answerShape (Query.parse query) =
          catalog.answerShape
            (Query.parse (String.ofList ("SELECT * FROM ".toList ++ table ++ tail))) := by
  obtain ⟨first, hword, hupper⟩ := Option.map_eq_some_iff.mp hfirst
  have hwords : Text.words query.toList ≠ [] := by
    intro hnil
    rw [hnil] at hword
    contradiction
  have hkind : (Query.parse query).kind = .select := by
    rw [Query.kind_parse, hword, Option.getD_some, hupper]
    rfl
  have hspaced := Text.spaced_collapseBlanks hwords
  obtain ⟨front, htext, rfl, htable⟩ := Query.exists_of_splitHead hspaced hsplit
  obtain ⟨-, name, hname⟩ := Query.exists_of_tableText htable
  rw [htext] at hspaced
  constructor
  · intro parsed hparse
    rw [hname.bareTable_eq]
    exact Query.table_of_parseHead hname hparse
  · intro rejection hparse catalog
    have hrejected : Query.readHead (front ++ ' ' :: table) table = ([], Query.bareTable table) := by
      rw [Query.readHead, hparse]
    obtain ⟨hbare, hselections⟩ := Query.readHead_star hname
    rw [Query.parse_eq_parseSelect hkind, Query.parse_star hspaced.of_append]
    unfold Query.parseSelect
    rw [hsplit, Query.splitHead?_star hspaced.of_append htable]
    dsimp only
    rw [hrejected]
    refine catalog.answerShape_congr rfl ?_ (fun layout => ?_) rfl
    · exact congrArg some hbare.symm
    · rcases hselections with hselections | hselections
      · rw [hselections]
      · rw [hselections, select_star]

/-- The search stops at a `FROM` inside a name between backticks, and the head is not parsed. -/
theorem parseHead_agrees_inside_name :
    let query := "select  `FROM x` FROM post LIMIT 1"
    ((Text.words query.toList).head?.map Text.upper = some "SELECT".toList ∧
        Query.splitHead? (Text.collapseBlanks query.toList) =
          some ("select `FROM x".toList, "x".toList, "` FROM post LIMIT 1".toList) ∧
        Query.parseHead "select `FROM x".toList = .error (.illegalCharacter '`' 7)) ∧
      ∀ catalog : Catalog, catalog.answerShape (Query.parse query) =
        catalog.answerShape (Query.parse (String.ofList
          ("SELECT * FROM ".toList ++ "x".toList ++ "` FROM post LIMIT 1".toList))) := by
  intro query
  have hfirst : (Text.words query.toList).head?.map Text.upper = some "SELECT".toList := by
    decide +kernel
  have hsplit : Query.splitHead? (Text.collapseBlanks query.toList) =
      some ("select `FROM x".toList, "x".toList, "` FROM post LIMIT 1".toList) := by
    decide +kernel
  have hreject : Query.parseHead "select `FROM x".toList = .error (.illegalCharacter '`' 7) := by
    rfl
  exact ⟨⟨hfirst, hsplit, hreject⟩, (parseHead_agrees hfirst hsplit).2 _ hreject⟩

end Catalog
end SurrealSchema
