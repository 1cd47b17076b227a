import SurrealSchema.Query.Parse

namespace SurrealSchema
namespace Query

/-!
# Canonical queries

Queries in the one form in which every part of them is understood: paths and tables with commas
between them, conditions joined by `AND`, and then the lists of `GROUP BY` and `ORDER BY` and the
number of `LIMIT`.  A canonical query is given by its parts; `text` writes it and `meaning` is what
parsing has to give back.
-/

/-! ## Names and paths -/

/-- Whether a name may be written as it is. -/
def isBareName (name : String) : Bool :=
  match name.toList with
  | [] => false
  | c :: rest =>
    Token.startsName c && rest.all Token.continuesName && lowerName name != "select"
      && lowerName name != "from"

/-- A name as it is written: in backticks unless it is bare. -/
def nameText (name : String) : List Char :=
  if isBareName name then name.toList else '`' :: name.toList ++ ['`']

/-- A segment of a path: a star or a name. -/
def segmentText (segment : String) : List Char :=
  if segment = "*" then ['*'] else nameText segment

/-- A path: its segments with dots between them. -/
def pathText (path : Path) : List Char :=
  ['.'].intercalate (path.map segmentText)

/-- The items of a list with commas between them. -/
def listText (items : List (List Char)) : List Char :=
  [',', ' '].intercalate items

/-! ## Clauses -/

/-- A comparison and whether its value is written between quotes. -/
structure Comparison where
  condition : Condition
  isQuoted : Bool
  deriving DecidableEq, Repr

/-- The value of a comparison as it is written. -/
def Comparison.valueText (comparison : Comparison) : List Char :=
  if comparison.isQuoted then '\'' :: comparison.condition.value.toList ++ ['\'']
  else comparison.condition.value.toList

/-- A comparison as it is written. -/
def Comparison.text (comparison : Comparison) : List Char :=
  comparison.condition.field.toList ++ ' ' ::
    (comparison.condition.operator.toList ++ ' ' :: comparison.valueText)

/-- In which direction results are ordered. -/
inductive Direction where
  | ascending
  | descending
  deriving DecidableEq, Repr

def Direction.keyword : Direction → String
  | ascending => "ASC"
  | descending => "DESC"

/-- An item of an `ORDER` list. -/
structure OrderItem where
  field : String
  direction : Option Direction
  deriving DecidableEq, Repr

/-- An item of an `ORDER` list as it is written. -/
def OrderItem.text (item : OrderItem) : List Char :=
  match item.direction with
  | none => item.field.toList
  | some direction => item.field.toList ++ ' ' :: direction.keyword.toList

/-- A clause behind the tables: its keyword, whether `BY` follows the keyword, and the rest. -/
structure Clause where
  keyword : String
  takesBy : Bool
  expression : List Char

/-- What follows the keyword of a clause. -/
def Clause.body (clause : Clause) : List Char :=
  if clause.takesBy then "BY".toList ++ ' ' :: clause.expression else clause.expression

/-- A clause with a space before it. -/
def Clause.text (clause : Clause) : List Char :=
  ' ' :: (clause.keyword.toList ++ ' ' :: clause.body)

/-- Clauses one after the other. -/
def clausesText (clauses : List Clause) : List Char :=
  clauses.flatMap Clause.text

/-! ## Queries -/

/-- The parts of a canonical query; a list that is empty stands for a clause that is left out. -/
structure Canonical where
  paths : List Path
  tables : List String
  comparisons : List Comparison
  group : List String
  order : List OrderItem
  limit : Option Nat
  deriving DecidableEq, Repr

namespace Canonical

def whereClause? (query : Canonical) : Option Clause :=
  if query.comparisons.isEmpty then none
  else some ⟨"WHERE", false, " AND ".toList.intercalate (query.comparisons.map Comparison.text)⟩

def groupClause? (query : Canonical) : Option Clause :=
  if query.group.isEmpty then none
  else some ⟨"GROUP", true, listText (query.group.map String.toList)⟩

def orderClause? (query : Canonical) : Option Clause :=
  if query.order.isEmpty then none
  else some ⟨"ORDER", true, listText (query.order.map OrderItem.text)⟩

def limitClause? (query : Canonical) : Option Clause :=
  query.limit.map fun count => ⟨"LIMIT", false, (toString count).toList⟩

/-- The clauses of a query in the order in which they are written. -/
def clauses (query : Canonical) : List Clause :=
  query.whereClause?.toList ++ query.groupClause?.toList ++ query.orderClause?.toList
    ++ query.limitClause?.toList

/-- The tables and the clauses of a query as they are written. -/
def tailText (query : Canonical) : List Char :=
  listText (query.tables.map nameText) ++ clausesText query.clauses

/-- A query as it is written. -/
def text (query : Canonical) : List Char :=
  "SELECT".toList ++ ' ' :: (listText (query.paths.map pathText) ++ ' ' ::
    ("FROM".toList ++ ' ' :: query.tailText))

/-- What a query asks for. -/
def meaning (query : Canonical) : Query where
  kind := .select
  tables := query.tables
  selections := query.paths.filterMap Selection.ofPath?
  conditions := query.comparisons.map Comparison.condition
  modifiers :=
    (if query.group.isEmpty then [] else [.group query.group])
      ++ (if query.order.isEmpty then []
          else [.order (query.order.map fun item => String.ofList item.text)])
      ++ (query.limit.map Modifier.limit).toList
  returnsMany := query.limit != some 1

end Canonical

/-! ## Canonical queries that can be written -/

/-- The words that start a clause. -/
def clauseWords : List String :=
  ["WHERE", "SPLIT", "GROUP", "ORDER", "LIMIT", "START", "FETCH", "TIMEOUT", "PARALLEL",
    "EXPLAIN"]

/-- A name that can be written, in backticks if need be, and is not taken for a star. -/
structure IsName (name : String) : Prop where
  ne_empty : name.toList ≠ []
  ne_star : name ≠ "*"
  chars : ∀ c ∈ name.toList, c ≠ '`' ∧ Text.isBlank c = false

/-- A star, or a name followed by names and stars. -/
def IsPath (path : Path) : Prop :=
  path = ["*"] ∨
    ∃ name rest, path = name :: rest ∧ IsName name ∧
      ∀ segment ∈ rest, segment = "*" ∨ IsName segment

/-- A word of ASCII letters, digits and underscores that is no word of the query language. -/
structure IsPlainWord (word : String) : Prop where
  ne_empty : word.toList ≠ []
  chars : ∀ c ∈ word.toList, Token.continuesName c = true
  not_reserved : ∀ keyword ∈ clauseWords ++ ["BY"], lowerName word ≠ lowerName keyword

/-- A comparison of a plain word with a plain word. -/
structure Comparison.IsPlain (comparison : Comparison) : Prop where
  field : IsPlainWord comparison.condition.field
  operator_ne_empty : comparison.condition.operator.toList ≠ []
  operator : ∀ c ∈ comparison.condition.operator.toList, isOperator c = true
  value : IsPlainWord comparison.condition.value

/-- A canonical query whose parts can be written so that they are told apart again. -/
structure Canonical.Valid (query : Canonical) : Prop where
  paths_ne_nil : query.paths ≠ []
  paths : ∀ path ∈ query.paths, IsPath path
  tables_ne_nil : query.tables ≠ []
  tables : ∀ table ∈ query.tables, IsName table
  comparisons : ∀ comparison ∈ query.comparisons, comparison.IsPlain
  group : ∀ item ∈ query.group, IsPlainWord item
  order : ∀ item ∈ query.order, IsPlainWord item.field

/-! ## Deciding what can be written -/

instance (name : String) : Decidable (IsName name) :=
  decidable_of_iff
    (name.toList ≠ [] ∧ name ≠ "*" ∧
      name.toList.all (fun c => decide (c ≠ '`' ∧ Text.isBlank c = false)) = true)
    ⟨fun ⟨hne, hstar, hchars⟩ => ⟨hne, hstar, by simpa using hchars⟩,
      fun h => ⟨h.ne_empty, h.ne_star, by simpa using h.chars⟩⟩

theorem isPath_iff (path : Path) :
    IsPath path ↔ path = ["*"] ∨
      (path.head?.any (fun name => decide (IsName name)) = true ∧
        ∀ segment ∈ path.tail, segment = "*" ∨ IsName segment) := by
  constructor
  · intro h
    rcases h with rfl | ⟨name, rest, rfl, hname, hrest⟩
    · exact Or.inl rfl
    · exact Or.inr ⟨by simpa using hname, hrest⟩
  · intro h
    rcases h with rfl | ⟨hname, hrest⟩
    · exact Or.inl rfl
    · cases path with
      | nil => contradiction
      | cons name rest => exact Or.inr ⟨name, rest, rfl, by simpa using hname, hrest⟩

instance (path : Path) : Decidable (IsPath path) :=
  decidable_of_iff _ (isPath_iff path).symm

instance (word : String) : Decidable (IsPlainWord word) :=
  decidable_of_iff
    (word.toList ≠ [] ∧ word.toList.all Token.continuesName = true ∧
      ∀ keyword ∈ clauseWords ++ ["BY"], lowerName word ≠ lowerName keyword)
    ⟨fun ⟨hne, hchars, hreserved⟩ => ⟨hne, List.all_eq_true.mp hchars, hreserved⟩,
      fun h => ⟨h.ne_empty, List.all_eq_true.mpr h.chars, h.not_reserved⟩⟩

instance (comparison : Comparison) : Decidable comparison.IsPlain :=
  decidable_of_iff
    (IsPlainWord comparison.condition.field ∧ comparison.condition.operator.toList ≠ [] ∧
      comparison.condition.operator.toList.all isOperator = true ∧
      IsPlainWord comparison.condition.value)
    ⟨fun ⟨hfield, hne, hoperator, hvalue⟩ =>
        ⟨hfield, hne, List.all_eq_true.mp hoperator, hvalue⟩,
      fun h => ⟨h.field, h.operator_ne_empty, List.all_eq_true.mpr h.operator, h.value⟩⟩

instance (query : Canonical) : Decidable query.Valid :=
  decidable_of_iff
    (query.paths ≠ [] ∧ (∀ path ∈ query.paths, IsPath path) ∧ query.tables ≠ [] ∧
      (∀ table ∈ query.tables, IsName table) ∧
      (∀ comparison ∈ query.comparisons, comparison.IsPlain) ∧
      (∀ item ∈ query.group, IsPlainWord item) ∧ ∀ item ∈ query.order, IsPlainWord item.field)
    ⟨fun ⟨hpathsNe, hpaths, htablesNe, htables, hcomparisons, hgroup, horder⟩ =>
        ⟨hpathsNe, hpaths, htablesNe, htables, hcomparisons, hgroup, horder⟩,
      fun h => ⟨h.paths_ne_nil, h.paths, h.tables_ne_nil, h.tables, h.comparisons, h.group,
        h.order⟩⟩

end Query
end SurrealSchema
