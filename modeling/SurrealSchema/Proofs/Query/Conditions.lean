import SurrealSchema.Proofs.Query.Limits
import SurrealSchema.Proofs.Query.RoundTrip

namespace SurrealSchema
namespace Query

/-!
# Queries with a condition on a string

A query that consists of a head and one condition on a string is read as its head is.  The string
has a say in one thing only: the limit is searched for in it too, although it stands between quotes.
-/

/-! ## A condition on a string -/

/-- A clause that compares a field with a string, with a space before it. -/
def stringCondition (field content : String) : String :=
  " WHERE " ++ field ++ " = '" ++ content ++ "'"

/-- What follows the space in front of that clause. -/
def conditionText (field content : List Char) : List Char :=
  "WHERE".toList ++ ' ' :: (field ++ ' ' :: ('=' :: ' ' :: '\'' :: (content ++ ['\''])))

theorem toList_stringCondition (field content : String) :
    (stringCondition field content).toList = ' ' :: conditionText field.toList content.toList := by
  have hwhere : " WHERE ".toList = ' ' :: ("WHERE".toList ++ [' ']) := by decide
  have hequals : " = '".toList = [' ', '=', ' ', '\''] := by decide
  have hquote : "'".toList = ['\''] := by decide
  simp only [stringCondition, conditionText, String.toList_append, hwhere, hequals, hquote,
    List.append_assoc, List.cons_append, List.nil_append]

theorem gapped_conditionText (field content : List Char) :
    Text.Gapped (conditionText field content) := by
  have hfirst : Text.Halts Text.isBlank (conditionText field content) :=
    Text.halts_cons (by decide) _
  have hlast : (conditionText field content).getLast? = some '\'' := by
    simp [conditionText, List.getLast?_cons]
  exact Text.gapped_of_ends hfirst hlast (by decide)

theorem collapseBlanks_conditionText (field content : List Char) : ∃ rest,
    Text.collapseBlanks (conditionText field content) = "WHERE".toList ++ ' ' :: rest := by
  have hwhere : Text.Solid "WHERE".toList := by decide
  have hrest : Text.words (field ++ ' ' :: ('=' :: ' ' :: '\'' :: (content ++ ['\'']))) ≠ [] := by
    rw [Text.words_append_blank (by decide)]
    exact List.append_ne_nil_of_right_ne_nil _ (Text.words_ne_nil (by decide) _)
  have hnothing : ∀ c ∈ ([] : List Char), Text.isBlank c = true := by simp
  have hcollapsed :=
    Text.collapseBlanks_append_blank hwhere (by decide : Text.isBlank ' ') hnothing hrest
  exact ⟨_, hcollapsed⟩

/-- Nothing in front of the string is taken for a limit. -/
theorem find_limit_conditionText {field : List Char} (hfield : ∀ c ∈ field, Text.isBlank c = false)
    (content : List Char) :
    find "LIMIT" limitNumber? none (conditionText field content) = limit? content := by
  have hne : "LIMIT".toList ≠ [] := by decide
  have hwhere : Avoids "LIMIT" "WHERE".toList := by
    have hcapitals : Text.Capitals "WHERE".toList := by decide
    refine ⟨(solid_of_capitals hcapitals (by decide)).2, fun hends => ?_⟩
    rw [← List.nil_append "WHERE".toList] at hends
    have hspells := Text.spells_of_ends capitals_limit rfl (isWord_of_capitals hcapitals) hends
    exact absurd hspells (by decide)
  have hequals : limitNumber? ('=' :: ' ' :: '\'' :: (content ++ ['\''])) = none := by
    rfl
  have hspace : Text.afterWord none = Text.afterWord (some ' ') := by decide
  -- The field may be any word, even the keyword: no number stands behind it.
  unfold conditionText
  rw [find_congr_before hne hspace, find_spaced capitals_limit hne (.word hwhere),
    find_unread capitals_limit hne hfield (Text.halts_cons (by decide) _) hequals,
    find_mark capitals_limit hne (by decide), find_mark capitals_limit hne (by decide),
    find_mark capitals_limit hne (by decide),
    find_append_mark capitals_limit hne (by decide) (by decide)
      (limitNumber?_append (by decide) (by decide) (by decide)), limit?_eq_find]

/-- **The limit of a query with a condition on a string is the one that is read in the string.** -/
theorem limit?_conditionText {field : List Char} (hfield : ∀ c ∈ field, Text.isBlank c = false)
    (content : List Char) :
    limit? (' ' :: Text.collapseBlanks (conditionText field content)) = limit? content := by
  have hne : "LIMIT".toList ≠ [] := by decide
  rw [limit?_eq_find, find_mark capitals_limit hne (by decide),
    find_collapseBlanks capitals_limit hne (fun _ h => limitNumber?_collapseBlanks h)
      (gapped_conditionText field content),
    find_limit_conditionText hfield]

/-! ## Queries with a condition on a string -/

/-- The kind of a query is told by its first word. -/
theorem kind_parse (query : String) :
    (parse query).kind = kindOfWord (Text.upper ((Text.words query.toList).head?.getD [])) := by
  unfold parse
  dsimp only
  split
  · next hkind =>
      rw [hkind]
      unfold parseSelect
      split <;> rfl
  · rfl

/-- A query that starts with `SELECT` is read without the length of its blanks. -/
theorem parse_eq_parseSelect {query : String} (hkind : (parse query).kind = .select) :
    parse query = parseSelect (Text.collapseBlanks query.toList) := by
  rw [kind_parse] at hkind
  unfold parse
  dsimp only
  rw [hkind]
  rfl

/-- Only a query that starts with `SELECT` reads from tables. -/
theorem tables_of_kind_ne {query : String} (hkind : (parse query).kind ≠ .select) :
    (parse query).tables = [] := by
  rw [kind_parse] at hkind
  unfold parse
  dsimp only
  split
  · next hselect => exact absurd hselect hkind
  · rfl

/-- A query is read as its head is, and with a single result exactly when its string holds a limit
of one. -/
theorem parse_stringCondition {head : String} {table : List Char}
    (hhead : IsHead (Text.collapseBlanks head.toList) table) (hkind : (parse head).kind = .select)
    {field : String} (hfield : ∀ c ∈ field.toList, Text.isBlank c = false) (content : String) :
    ∃ conditions modifiers,
      parse (head ++ stringCondition field content) =
        { parse head with
          conditions
          modifiers
          returnsMany := limit? content.toList != some 1 } := by
  have hwords : Text.words head.toList ≠ [] := by
    intro hnil
    have hcut := hhead [] (Text.halts_nil _)
    unfold Text.collapseBlanks at hcut
    rw [hnil] at hcut
    contradiction
  have hclause := (gapped_conditionText field.toList content.toList).words_ne_nil
  have hkind' : (parse (head ++ stringCondition field content)).kind = .select := by
    rw [kind_parse] at hkind ⊢
    rw [String.toList_append, toList_stringCondition, Text.words_append_blank (by decide),
      List.head?_append_of_ne_nil _ hwords]
    exact hkind
  have hcollapse : Text.collapseBlanks (head ++ stringCondition field content).toList =
      Text.collapseBlanks head.toList ++
        ' ' :: Text.collapseBlanks (conditionText field.toList content.toList) := by
    rw [String.toList_append, toList_stringCondition,
      Text.collapseBlanks_append (by decide) hwords hclause]
  have hnext : nextTable?
      (' ' :: Text.collapseBlanks (conditionText field.toList content.toList)) = none := by
    -- The clause starts with its keyword and not with a comma.
    obtain ⟨rest, hrest⟩ := collapseBlanks_conditionText field.toList content.toList
    rw [hrest]
    rfl
  have hhalts : Text.Halts Text.isWord
      (' ' :: Text.collapseBlanks (conditionText field.toList content.toList)) :=
    Text.halts_cons (by decide) _
  -- With and without the clause the head is cut off at the same place.
  have hnothing := parseSelect_of_isHead hhead (Text.halts_nil _)
  have htail := parseSelect_of_isHead hhead hhalts
  rw [List.append_nil] at hnothing
  rw [List.length_cons, moreTables, hnext] at htail
  dsimp only at htail
  rw [limit?_conditionText hfield] at htail
  rw [parse_eq_parseSelect hkind, parse_eq_parseSelect hkind', hcollapse, hnothing, htail]
  exact ⟨_, _, rfl⟩

end Query
end SurrealSchema
