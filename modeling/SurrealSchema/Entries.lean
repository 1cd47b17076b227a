namespace SurrealSchema

/-!
# Ordered entries

Values under names, in the order in which the names first appeared.  Writing a name again keeps its
place and replaces its value.
-/

/-- Values under names, in order. -/
abbrev Entries (α : Type) := List (String × α)

namespace Entries

variable {α : Type}

/-- Writes a value under a name: at the place of the name if it is there, else at the end. -/
def put (name : String) (value : α) : Entries α → Entries α
  | [] => [(name, value)]
  | (other, old) :: entries =>
    if other = name then (other, value) :: entries else (other, old) :: put name value entries

/-- The value under a name. -/
def get? (name : String) : Entries α → Option α
  | [] => none
  | (other, value) :: entries => if other = name then some value else get? name entries

/-- The names in order. -/
def names (entries : Entries α) : List String :=
  entries.map Prod.fst

/-- The values in the order of their names. -/
def values (entries : Entries α) : List α :=
  entries.map Prod.snd

/-- Writes further values one after the other. -/
def putAll (entries : Entries α) (more : Entries α) : Entries α :=
  more.foldl (fun entries entry => put entry.1 entry.2 entries) entries

/-- The entries of a list that may repeat names: each name at its first place with its last
value. -/
def ofList (pairs : List (String × α)) : Entries α :=
  putAll [] pairs

/-! ## Names and look-ups -/

/-- A name that has just been written holds the new value, and every other name what it held. -/
theorem get?_put (name other : String) (value : α) (entries : Entries α) :
    get? name (put other value entries) =
      if other = name then some value else get? name entries := by
  induction entries with
  | nil => simp [put, get?]
  | cons entry entries ih =>
    obtain ⟨first, old⟩ := entry
    by_cases h : first = other
    · by_cases hn : other = name <;> simp [put, get?, h, hn]
    · by_cases hn : first = name
      · subst hn
        simp [put, get?, h, Ne.symm h]
      · simp [put, get?, h, hn, ih]

/-- Writing adds a name at the end if it is new and leaves the names alone if it is not. -/
theorem names_put (name : String) (value : α) (entries : Entries α) :
    names (put name value entries) =
      if name ∈ names entries then names entries else names entries ++ [name] := by
  induction entries with
  | nil => simp [put, names]
  | cons entry entries ih =>
    obtain ⟨first, old⟩ := entry
    simp only [names] at ih
    by_cases h : first = name
    · simp [put, names, h]
    · by_cases hm : name ∈ entries.map Prod.fst
      · simp [put, names, h, ih, hm]
      · simp [put, names, h, ih, hm, Ne.symm h]

/-- Writing keeps the names distinct. -/
theorem nodup_names_put (name : String) (value : α) (entries : Entries α)
    (distinct : (names entries).Nodup) : (names (put name value entries)).Nodup := by
  rw [names_put]
  split
  · exact distinct
  · next fresh =>
    rw [List.nodup_append]
    refine ⟨distinct, by simp, ?_⟩
    intro a ha b hb
    rw [List.mem_singleton] at hb
    rintro rfl
    exact fresh (hb ▸ ha)

/-- Writing several values keeps the names distinct. -/
theorem nodup_names_putAll (more entries : Entries α) (distinct : (names entries).Nodup) :
    (names (putAll entries more)).Nodup := by
  induction more generalizing entries with
  | nil => exact distinct
  | cons entry more ih => exact ih _ (nodup_names_put entry.1 entry.2 entries distinct)

/-- The entries of a list have distinct names. -/
theorem nodup_names_ofList (pairs : List (String × α)) : (names (ofList pairs)).Nodup :=
  nodup_names_putAll pairs [] List.nodup_nil

/-- A value is found exactly under the names that are there. -/
theorem isSome_get?_iff (name : String) (entries : Entries α) :
    (get? name entries).isSome ↔ name ∈ names entries := by
  induction entries with
  | nil => simp [get?, names]
  | cons entry entries ih =>
    obtain ⟨first, old⟩ := entry
    simp only [names] at ih
    by_cases h : first = name
    · simp [get?, names, h]
    · simp [get?, names, h, ih, Ne.symm h]

end Entries
end SurrealSchema
