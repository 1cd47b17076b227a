import Mathlib.Data.List.Basic
import Mathlib.Data.List.Induction
import SurrealSchema.Proofs.Catalog

namespace SurrealSchema

/-!
# Entries as ordered maps

Entries whose names differ are told by their names in order and the values under them.  Entries
written one by one keep of each name the last value in the place of the first one.
-/

namespace Entries

variable {α β ι : Type}

/-! ## Names and values -/

/-- Where names differ, every entry is found. -/
theorem get?_of_mem {entries : Entries α} (h : (names entries).Nodup) {entry : String × α}
    (hmem : entry ∈ entries) : get? entry.1 entries = some entry.2 := by
  induction entries with
  | nil => contradiction
  | cons first entries ih =>
      obtain ⟨hfresh, hrest⟩ := List.nodup_cons.mp h
      rcases List.mem_cons.mp hmem with rfl | hmem
      · simp [get?]
      · have hne : first.1 ≠ entry.1 := fun heq => hfresh (heq ▸ List.mem_map_of_mem hmem)
        rw [get?, if_neg hne, ih hrest hmem]

/-- Entries are told by their names and the values under them. -/
theorem eq_filterMap_names {entries : Entries α} (h : (names entries).Nodup) :
    entries = (names entries).filterMap fun name =>
      (get? name entries).map fun value => (name, value) := by
  induction entries with
  | nil => rfl
  | cons first entries ih =>
      obtain ⟨name, value⟩ := first
      obtain ⟨hfresh, hrest⟩ := List.nodup_cons.mp h
      have hothers : ∀ other ∈ names entries,
          (get? other ((name, value) :: entries)).map (fun value => (other, value)) =
            (get? other entries).map fun value => (other, value) := by
        intro other hother
        have hne : name ≠ other := fun heq => hfresh (heq ▸ hother)
        rw [get?, if_neg hne]
      show (name, value) :: entries = List.filterMap _ (name :: names entries)
      rw [List.filterMap_cons_some (b := (name, value)) (by simp [get?]),
        List.filterMap_congr hothers, ← ih hrest]

/-- Under a name that is there a value is written in its place. -/
theorem put_map {entries : Entries α} (h : (names entries).Nodup) {name : String}
    (hname : name ∈ names entries) (shown : String → α → β) (value : β) :
    put name value (entries.map fun entry => (entry.1, shown entry.1 entry.2)) =
      entries.map fun entry =>
        (entry.1, if entry.1 = name then value else shown entry.1 entry.2) := by
  induction entries with
  | nil => contradiction
  | cons first entries ih =>
      obtain ⟨hfresh, hrest⟩ := List.nodup_cons.mp h
      by_cases hfirst : first.1 = name
      · have hothers : ∀ entry ∈ entries, entry.1 ≠ name := fun entry hmem heq =>
          hfresh (hfirst ▸ heq ▸ List.mem_map_of_mem hmem)
        have hsame : (entries.map fun entry => (entry.1, shown entry.1 entry.2)) =
            entries.map fun entry =>
              (entry.1, if entry.1 = name then value else shown entry.1 entry.2) :=
          List.map_congr_left fun entry hmem => by rw [if_neg (hothers entry hmem)]
        simp only [List.map_cons, put, hfirst, if_true, hsame]
      · have hmem : name ∈ names entries :=
          (List.mem_cons.mp hname).resolve_left fun heq => hfirst heq.symm
        simp only [List.map_cons, put, hfirst, if_false, ih hrest hmem]

/-! ## The last ones in the places of the first ones -/

/-- Of items with one key the last one, in the order in which the keys first come. -/
def lastOfEach (key : ι → String) (items : List ι) : List ι :=
  (items.map key).eraseDups.filterMap fun name => items.reverse.find? fun item => key item = name

theorem ofList_concat (pairs : List (String × α)) (pair : String × α) :
    ofList (pairs ++ [pair]) = put pair.1 pair.2 (ofList pairs) := by
  simp [ofList, putAll]

/-- Names keep the places where they first come. -/
theorem names_ofList (pairs : List (String × α)) :
    names (ofList pairs) = (names pairs).eraseDups := by
  induction pairs using List.reverseRecOn with
  | nil => rfl
  | append_singleton pairs pair ih =>
      have hnames : names (pairs ++ [pair]) = names pairs ++ [pair.1] := by simp [names]
      rw [ofList_concat, names_put, ih, hnames, List.eraseDups_append]
      simp only [List.mem_eraseDups]
      by_cases hknown : pair.1 ∈ names pairs
      · simp [hknown, List.removeAll]
      · simp [hknown, List.removeAll, List.eraseDups_cons]

/-- A name holds the value that it has last. -/
theorem get?_ofList (pairs : List (String × α)) (name : String) :
    get? name (ofList pairs) = get? name pairs.reverse := by
  induction pairs using List.reverseRecOn with
  | nil => rfl
  | append_singleton pairs pair ih =>
      rw [ofList_concat, get?_put, ih, List.reverse_concat]
      rfl

/-- Writing items under their keys keeps the last one of each key in the place of the first one. -/
theorem ofList_map_key (key : ι → String) (value : ι → α) (items : List ι) :
    ofList (items.map fun item => (key item, value item)) =
      (lastOfEach key items).map fun item => (key item, value item) := by
  have hnames : names (items.map fun item => (key item, value item)) = items.map key := by
    simp [names, Function.comp_def]
  rw [eq_filterMap_names (nodup_names_ofList _), names_ofList, hnames, lastOfEach,
    List.map_filterMap]
  apply List.filterMap_congr
  intro name _
  rw [get?_ofList, ← List.map_reverse, get?_map, Option.map_map]
  cases hlast : items.reverse.find? fun item => key item = name with
  | none => rfl
  | some item =>
      have hkey : key item = name := by simpa using List.find?_some hlast
      simp [hkey]

/-- Every key comes once, in the order in which the keys first come. -/
theorem map_key_lastOfEach (key : ι → String) (items : List ι) :
    (lastOfEach key items).map key = (items.map key).eraseDups := by
  have hnames := congrArg names (ofList_map_key key key items)
  rw [names_ofList] at hnames
  simpa [names, Function.comp_def] using hnames.symm

/-! ## Mapping the values -/

/-- The values mapped under their names, each by its name and itself. -/
def mapValues (g : String → α → β) (entries : Entries α) : Entries β :=
  entries.map fun entry => (entry.1, g entry.1 entry.2)

section MapValues

variable (g : String → α → β)

theorem get?_mapValues (entries : Entries α) (name : String) :
    get? name (mapValues g entries) = (get? name entries).map (g name) := by
  induction entries with
  | nil => rfl
  | cons first entries ih =>
      by_cases h : first.1 = name
      · simp [mapValues, get?, h]
      · simpa [mapValues, get?, h] using ih

theorem mapValues_put (name : String) (value : α) (entries : Entries α) :
    mapValues g (put name value entries) = put name (g name value) (mapValues g entries) := by
  induction entries with
  | nil => rfl
  | cons first entries ih =>
      by_cases h : first.1 = name
      · simp [mapValues, put, h]
      · simpa [mapValues, put, h] using ih

theorem mapValues_putAll (entries more : Entries α) :
    mapValues g (putAll entries more) = putAll (mapValues g entries) (mapValues g more) := by
  induction more generalizing entries with
  | nil => rfl
  | cons next more ih =>
      calc mapValues g (putAll entries (next :: more))
        _ = mapValues g (putAll (put next.1 next.2 entries) more) := rfl
        _ = putAll (put next.1 (g next.1 next.2) (mapValues g entries)) (mapValues g more) := by
            rw [ih, mapValues_put]
        _ = putAll (mapValues g entries) (mapValues g (next :: more)) := rfl

theorem mapValues_ofList (pairs : List (String × α)) :
    mapValues g (ofList pairs) = ofList (mapValues g pairs) :=
  mapValues_putAll g [] pairs

end MapValues

end Entries
end SurrealSchema
