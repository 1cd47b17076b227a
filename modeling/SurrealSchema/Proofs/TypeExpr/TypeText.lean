import SurrealSchema.Proofs.Text.Passing
import SurrealSchema.Proofs.Text.Trim
import SurrealSchema.TypeExpr.Descriptor

namespace SurrealSchema
namespace Descriptor

/-!
# Texts that are taken for types

Before the text of a type is parsed, a reference clause and semicolons at its end are cut off.  A
text without either is parsed as it stands.
-/

theorem readsWord_reference : Text.ReadsWord (Text.keywordAnyCase? "REFERENCE") :=
  Text.readsWord_keywordAnyCase (by decide) (by decide)

/-- Behind blanks a word is read as if nothing stood before it. -/
theorem read_of_blanks {read : Text.Reader (List Char)} (hread : Text.ReadsWord read)
    {before : Option Char} {blanks rest : List Char} (hbefore : Text.afterWord before = false)
    (hblanks : ∀ c ∈ blanks, Text.isBlank c = true)
    (hsearch : Text.search read before (blanks ++ rest) = none) : read none rest = none := by
  have hmarks : ∀ c ∈ blanks, Text.isWord c = false :=
    fun c hc => Text.isWord_of_isBlank (hblanks c hc)
  have hlast : Text.afterWord (blanks.getLast?.or before) = false := by
    cases hl : blanks.getLast? with
    | none => exact hbefore
    | some c => exact hmarks c (List.mem_of_getLast? hl)
  rw [Text.search_of_passes (hread.passes_marks hmarks before), Option.map_eq_none_iff] at hsearch
  rw [← hread.outside _ _ hlast]
  cases rest with
  | nil =>
      rw [Text.search, Option.map_eq_none_iff] at hsearch
      exact hsearch
  | cons c rest =>
      rw [Text.search] at hsearch
      cases hfirst : read (blanks.getLast?.or before) (c :: rest) with
      | none => rfl
      | some found => simp [hfirst] at hsearch

/-- Where the keyword of a reference is no word of a text, no reference clause is in it. -/
theorem passes_atReferenceClause {before : Option Char} {text : List Char}
    (h : Text.search (Text.keywordAnyCase? "REFERENCE") before text = none) :
    Text.Passes (fun _ rest => atReferenceClause rest) [] before text := by
  induction text generalizing before with
  | nil => trivial
  | cons c text ih =>
      rw [Text.search] at h
      cases hfirst : Text.keywordAnyCase? "REFERENCE" before (c :: text) with
      | some found => simp [hfirst] at h
      | none =>
          rw [hfirst, Option.map_eq_none_iff] at h
          refine ⟨?_, ih h⟩
          rw [List.append_nil]
          show atReferenceClause (c :: text) = false
          unfold atReferenceClause
          cases hc : Text.isBlank c with
          | false => rw [Text.afterBlanks_of_halts (Text.halts_cons hc text)]
          | true =>
              -- Behind the blanks the clause would start with the keyword, which the search misses.
              have hsplit : text.takeWhile Text.isBlank ++ text.dropWhile Text.isBlank = text :=
                List.takeWhile_append_dropWhile
              rw [← hsplit] at h
              have hbefore : Text.afterWord (some c) = false := Text.isWord_of_isBlank hc
              have hnone := read_of_blanks readsWord_reference hbefore
                (fun d hd => List.mem_takeWhile_imp hd) h
              simp [Text.afterBlanks?, hc, hnone]

/-- A reference clause starts with blanks. -/
theorem passes_atReferenceClause_of_solid {before : Option Char} {text : List Char}
    (h : ∀ c ∈ text, Text.isBlank c = false) :
    Text.Passes (fun _ rest => atReferenceClause rest) [] before text := by
  induction text generalizing before with
  | nil => trivial
  | cons c text ih =>
      obtain ⟨hc, htext⟩ := List.forall_mem_cons.mp h
      refine ⟨?_, ih htext⟩
      show atReferenceClause (c :: (text ++ [])) = false
      unfold atReferenceClause
      rw [Text.afterBlanks_of_halts (Text.halts_cons hc _)]

/-- A text without blanks around it, semicolons and reference clauses is taken as it stands. -/
theorem typeText_eq_self {text : List Char} (htrimmed : Text.Trimmed text) (hsemicolon : ';' ∉ text)
    (hreference : Text.Passes (fun _ rest => atReferenceClause rest) [] none text) :
    typeText text = text := by
  have hupTo := Text.upTo_of_passes hreference
  rw [List.append_nil, Text.upTo, List.append_nil] at hupTo
  have hend : Text.trimEnd text = text := Text.dropTrailing_eq_self htrimmed.2
  have hlast : ∀ c, text.getLast? = some c → (c == ';') = false := by
    intro c hc
    rw [beq_eq_false_iff_ne]
    rintro rfl
    exact hsemicolon (List.mem_of_getLast? hc)
  unfold typeText
  dsimp only
  rw [Text.trim_eq_self htrimmed, hupTo, hend, Text.dropTrailing_eq_self hlast,
    Text.trim_eq_self htrimmed]

/-- The text of a type expression describes what the expression does. -/
theorem ofTypeText_of_parse {text : List Char} {type : TypeExpr} (htext : typeText text = text)
    (hne : text ≠ []) (hparse : TypeExpr.parse text = .ok type) :
    ofTypeText text = type.describe := by
  obtain ⟨c, more, rfl⟩ := List.exists_cons_of_ne_nil hne
  unfold ofTypeText
  rw [htext]
  dsimp only
  rw [hparse]

end Descriptor
end SurrealSchema
