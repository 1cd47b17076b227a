import SurrealSchema.Proofs.Query.Clauses
import SurrealSchema.Proofs.Text.Trim

namespace SurrealSchema

/-!
# Names in canonical queries

A name that is written, bare or in backticks, is read back from the front of a text, both by the
scan for tables and by the tokens of the head.  No path ends in the word `FROM`, so the head ends
where it was written to end.
-/

namespace Text

/-- A character of the class at the end is dropped with the rest of its kind. -/
theorem dropTrailing_append_singleton {drop : Char → Bool} {c : Char} (h : drop c = true)
    (text : List Char) : dropTrailing drop (text ++ [c]) = dropTrailing drop text := by
  induction text with
  | nil => simp [dropTrailing, h]
  | cons d text ih => rw [List.cons_append, dropTrailing, dropTrailing, ih]

end Text

namespace Query

/-! ## Bare names and names in backticks -/

/-- What is known of a name that may be written as it is. -/
structure BareParts (name : String) : Prop where
  exists_cons : ∃ c rest, name.toList = c :: rest ∧ Token.startsName c = true ∧
    ∀ d ∈ rest, Token.continuesName d = true
  ne_select : lowerName name ≠ "select"
  ne_from : lowerName name ≠ "from"

theorem bareParts_of_isBareName {name : String} (h : isBareName name = true) : BareParts name := by
  unfold isBareName at h
  cases hname : name.toList with
  | nil =>
      rw [hname] at h
      contradiction
  | cons c rest =>
      rw [hname] at h
      simp only [Bool.and_eq_true, List.all_eq_true, bne_iff_ne] at h
      obtain ⟨⟨⟨hc, hrest⟩, hselect⟩, hfrom⟩ := h
      exact ⟨⟨c, rest, hname, hc, hrest⟩, hselect, hfrom⟩

theorem BareParts.chars {name : String} (h : BareParts name) :
    ∀ c ∈ name.toList, Token.continuesName c = true := by
  obtain ⟨first, rest, hname, hfirst, hrest⟩ := h.exists_cons
  intro c hc
  rw [hname] at hc
  rcases List.mem_cons.mp hc with rfl | hmem
  · exact Token.continuesName_of_startsName hfirst
  · exact hrest c hmem

theorem BareParts.isWord {name : String} (h : BareParts name) :
    ∀ c ∈ name.toList, Text.isWord c = true := by
  intro c hc
  exact (Token.isWord_of_continuesName (h.chars c hc)).2

theorem IsName.no_backtick {name : String} (h : IsName name) : '`' ∉ name.toList :=
  fun hmem => (h.chars '`' hmem).1 rfl

theorem ne_backtick_of_isWord {c : Char} (h : Text.isWord c = true) : c ≠ '`' := by
  rintro rfl
  exact absurd h (by decide)

/-- Neither spelling of a name has blanks. -/
theorem solid_nameText {name : String} (h : IsName name) : Text.Solid (nameText name) := by
  unfold nameText
  split
  · exact ⟨h.ne_empty, fun c hc => (h.chars c hc).2⟩
  · exact Token.solid_backticked fun c hc => (h.chars c hc).2

/-! ## Tables -/

/-- A name between backticks is read as a table. -/
theorem tableText?_backticked {name : List Char} (hne : name ≠ []) (hname : '`' ∉ name)
    (rest : List Char) :
    tableText? (Token.backticked name ++ rest) = some (Token.backticked name, rest) := by
  have hinside : ∀ c ∈ name, (c != '`') = true := by
    intro c hc
    rw [bne_iff_ne]
    rintro rfl
    exact hname hc
  have hhalts : Text.Halts (· != '`') ('`' :: rest) := Text.halts_cons (by decide) rest
  have hne' : name.isEmpty = false := List.isEmpty_eq_false_iff.mpr hne
  rw [Token.backticked_append]
  simp only [tableText?, Text.takeWhile_run hinside hhalts, Text.dropWhile_run hinside hhalts, hne',
    Bool.false_eq_true, if_false, Option.some_or]
  rfl

/-- A name that is written is read as a table, up to a character that is not part of a word. -/
theorem tableText?_nameText {name : String} (h : IsName name) {rest : List Char}
    (hrest : Text.Halts Text.isWord rest) :
    tableText? (nameText name ++ rest) = some (nameText name, rest) := by
  unfold nameText
  split
  · next hbare =>
      have hparts := bareParts_of_isBareName hbare
      have htake := Text.takeWhile_run hparts.isWord hrest
      have hdrop := Text.dropWhile_run hparts.isWord hrest
      obtain ⟨c, more, hname, hc, -⟩ := hparts.exists_cons
      have hword := hparts.isWord c (by rw [hname]; exact List.mem_cons_self)
      have htick := ne_backtick_of_isWord hword
      unfold tableText?
      dsimp only
      rw [htake, hdrop, hname, List.cons_append]
      split
      · next heq => exact absurd (List.cons.inj heq).1 htick
      · rfl
  · exact tableText?_backticked h.ne_empty h.no_backtick rest

/-- Without its backticks a name that is written is the name. -/
theorem bareTable_nameText {name : String} (h : IsName name) :
    bareTable (nameText name) = name := by
  have hlast : ∀ c, name.toList.getLast? = some c → (c == '`') = false := by
    intro c hc
    rw [beq_eq_false_iff_ne]
    exact (h.chars c (List.mem_of_getLast? hc)).1
  have hfirst : Text.Halts (· == '`') name.toList := by
    intro c hc
    rw [beq_eq_false_iff_ne]
    exact (h.chars c (List.mem_of_head? hc)).1
  have hfirst' : Text.Halts (· == '`') (name.toList ++ ['`']) := by
    obtain ⟨c, rest, hname⟩ := List.exists_cons_of_ne_nil h.ne_empty
    rw [hname] at hfirst ⊢
    exact Text.halts_cons (p := (· == '`')) (hfirst c rfl) _
  unfold bareTable nameText
  split
  · rw [Text.dropWhile_of_halts hfirst, Text.dropTrailing_eq_self hlast, String.ofList_toList]
  · rw [List.cons_append, List.dropWhile_cons_of_pos (by decide), Text.dropWhile_of_halts hfirst',
      Text.dropTrailing_append_singleton (by decide), Text.dropTrailing_eq_self hlast,
      String.ofList_toList]

/-- Further tables as they are written. -/
def furtherText (tables : List String) : List Char :=
  tables.flatMap fun table => ',' :: ' ' :: nameText table

theorem listText_nameText (table : String) (tables : List String) :
    listText ((table :: tables).map nameText) = nameText table ++ furtherText tables := by
  unfold listText furtherText
  rw [List.map_cons, Text.intercalate_cons, List.flatMap_map]
  rfl

theorem halts_furtherText {p : Char → Bool} (hcomma : p ',' = false) (hspace : p ' ' = false)
    (tables : List String) (clauses : List Clause) :
    Text.Halts p (furtherText tables ++ clausesText clauses) := by
  cases tables with
  | nil => exact halts_clausesText hspace clauses
  | cons table tables => exact Text.halts_cons hcomma _

/-- A further table is read with its comma. -/
theorem nextTable?_cons {table : String} (h : IsName table) {rest : List Char}
    (hrest : Text.Halts Text.isWord rest) :
    nextTable? (',' :: ' ' :: (nameText table ++ rest)) = some (table, rest) := by
  have hcomma : Text.trimStart (',' :: ' ' :: (nameText table ++ rest)) =
      ',' :: ' ' :: (nameText table ++ rest) :=
    Text.dropWhile_of_halts (Text.halts_cons (by decide) _)
  have hspace : Text.trimStart (' ' :: (nameText table ++ rest)) = nameText table ++ rest := by
    unfold Text.trimStart
    rw [List.dropWhile_cons_of_pos (by decide),
      Text.dropWhile_of_halts ((solid_nameText h).halts_append rest)]
  simp only [nextTable?, hcomma, hspace, tableText?_nameText h hrest, Option.map_some,
    bareTable_nameText h]

/-- No further table stands in front of the clauses. -/
theorem nextTable?_clausesText {clauses : List Clause} (h : AreClauses clauses) :
    nextTable? (clausesText clauses) = none := by
  cases clauses with
  | nil => rfl
  | cons clause clauses =>
      have hkeyword := h clause List.mem_cons_self
      obtain ⟨c, rest, hcons, hc⟩ := (solid_keyword hkeyword).exists_cons
      have hcomma : c ≠ ',' := by
        have hcapitals := capitals_of_mem_clauseWords clause.keyword hkeyword
        rintro rfl
        exact absurd (hcapitals ',' (by rw [hcons]; exact List.mem_cons_self)) (by decide)
      have htrim : Text.trimStart (clausesText (clause :: clauses)) =
          c :: (rest ++ ' ' :: (clause.body ++ clausesText clauses)) := by
        unfold Text.trimStart
        rw [clausesText_cons, hcons, List.dropWhile_cons_of_pos (by decide)]
        exact Text.dropWhile_of_halts (Text.halts_cons hc _)
      unfold nextTable?
      rw [htrim]
      split
      · next heq => exact absurd (List.cons.inj heq).1 hcomma
      · rfl

/-- **The further tables are peeled off one by one, up to the clauses.** -/
theorem moreTables_furtherText {tables : List String} (htables : ∀ table ∈ tables, IsName table)
    {clauses : List Clause} (hclauses : AreClauses clauses) {most : Nat}
    (hmost : tables.length ≤ most) :
    moreTables most (furtherText tables ++ clausesText clauses) =
      (tables, clausesText clauses) := by
  induction tables generalizing most with
  | nil =>
      cases most with
      | zero => rfl
      | succ most =>
          rw [show furtherText [] = [] from rfl, List.nil_append, moreTables,
            nextTable?_clausesText hclauses]
  | cons table tables ih =>
      cases most with
      | zero => exact absurd hmost (by simp)
      | succ most =>
          have hrest := ih (fun other hmem => htables other (List.mem_cons_of_mem _ hmem))
            (Nat.le_of_succ_le_succ hmost)
          have hnext := nextTable?_cons (htables table List.mem_cons_self)
            (halts_furtherText (by decide) (by decide) tables clauses)
          have hsplit : furtherText (table :: tables) ++ clausesText clauses =
              ',' :: ' ' :: (nameText table ++ (furtherText tables ++ clausesText clauses)) := by
            simp [furtherText]
          rw [hsplit, moreTables, hnext]
          dsimp only
          rw [hrest]

/-- Every table that is written takes up some characters. -/
theorem length_le_furtherText (tables : List String) :
    tables.length ≤ (furtherText tables).length := by
  induction tables with
  | nil => exact Nat.le_refl 0
  | cons table tables ih =>
      have hlength : (furtherText (table :: tables)).length =
          (nameText table).length + 2 + (furtherText tables).length := by
        simp [furtherText]
        omega
      rw [hlength, List.length_cons]
      omega

end Query
end SurrealSchema
