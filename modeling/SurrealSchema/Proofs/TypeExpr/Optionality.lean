import Mathlib.Data.List.Perm.Basic
import SurrealSchema.Proofs.TypeExpr.Pointers
import SurrealSchema.Proofs.TypeExpr.Sentences

namespace SurrealSchema

/-!
# Optional types

Two spellings make a type optional: `option` around it, and `none` or `null` beside it in a union.
Both describe the same values, and neither depends on the order in which alternatives are written.
What becomes of the pointer is fixed by its kind: links become optional with the value, while the
elements of a list of links are never optional one by one.

Main statement: `TypeExpr.describe_optional_algebra`.  Only the trees of the grammar obey it: a
union of one alternative, which no text is parsed to, drops the pointer that it keeps beside `none`.
-/

/-! ## Descriptors of values that may be absent -/

namespace Descriptor

/-- The same values or none: a link becomes optional with them, and nothing else changes. -/
def orAbsent (descriptor : Descriptor) : Descriptor :=
  { descriptor with
    isOptional := true
    reference :=
      if descriptor.kind = .record ∨ descriptor.kind = .references then
        descriptor.reference.map fun reference => { reference with isOptional := true }
      else descriptor.reference }

/-- How the pointer of a descriptor goes with the kind and the optionality of the values. -/
def PointerAgrees (descriptor : Descriptor) : Prop :=
  ∀ reference, descriptor.reference = some reference →
    ((descriptor.kind = .record ∨ descriptor.kind = .references) ∧
      reference.isOptional = descriptor.isOptional) ∨
    (descriptor.kind = .arrayOfRecord ∧ reference.isOptional = false)

/-- Where the pointer agrees, only its kind decides whether it becomes optional. -/
theorem PointerAgrees.optional_eq {descriptor : Descriptor} (h : descriptor.PointerAgrees) :
    descriptor.optional = descriptor.orAbsent := by
  obtain ⟨kind, isOptional, reference⟩ := descriptor
  unfold optional orAbsent
  cases reference with
  | none => simp
  | some reference =>
      have hlist : ¬ (Kind.arrayOfRecord = .record ∨ Kind.arrayOfRecord = .references) := by decide
      have hlink : ∀ kind, kind = Kind.record ∨ kind = .references → kind ≠ .arrayOfRecord := by
        rintro kind (rfl | rfl) <;> decide
      rcases h reference rfl with ⟨hkind, -⟩ | ⟨rfl, -⟩
      · dsimp only at hkind ⊢
        rw [if_pos hkind, if_neg (hlink kind hkind)]
      · dsimp only
        rw [if_neg hlist, if_pos rfl]

theorem persists_pointerAgrees : Persists PointerAgrees where
  plain := by
    intro kind reference h
    contradiction
  pointing := by
    intro kind table hkind reference h
    obtain rfl := Option.some.inj h
    simp only [Kind.isReference, Kind.isCollection, Bool.or_eq_true, decide_eq_true_eq] at hkind
    rcases hkind with hrecord | hreferences | hlist
    · exact Or.inl ⟨Or.inl hrecord, rfl⟩
    · exact Or.inl ⟨Or.inr hreferences, rfl⟩
    · exact Or.inr ⟨hlist, rfl⟩
  optional := by
    intro descriptor h reference hreference
    rw [h.optional_eq] at hreference ⊢
    unfold orAbsent at hreference ⊢
    dsimp only at hreference ⊢
    split at hreference
    · next hkind =>
        obtain ⟨other, -, rfl⟩ := Option.map_eq_some_iff.mp hreference
        exact Or.inl ⟨hkind, rfl⟩
    · next hkind =>
        rcases h reference hreference with ⟨hlink, -⟩ | hlist
        · exact absurd hlink hkind
        · exact Or.inr hlist

/-- Values that may be absent already are not changed. -/
theorem optional_optional (descriptor : Descriptor) :
    descriptor.optional.optional = descriptor.optional := by
  obtain ⟨kind, isOptional, reference⟩ := descriptor
  unfold optional
  dsimp only
  split
  · rfl
  · rw [Option.map_map]
    rfl

end Descriptor

/-! ## Unions in another order -/

namespace TypeExpr

/-- The kind of any of some kinds is the common one, if there is a common one. -/
theorem commonKind_of_mem {kind : Kind} {kinds : List Kind} (h : kind ∈ kinds) :
    commonKind kinds = if ∀ other ∈ kinds, other = kind then kind else .string := by
  cases kinds with
  | nil => contradiction
  | cons first kinds =>
      have hall : kinds.all (· = first) = true ↔ ∀ other ∈ first :: kinds, other = kind := by
        rw [List.all_eq_true]
        constructor
        · intro hsame other hother
          have hfirst : ∀ other ∈ first :: kinds, other = first := by
            simpa using hsame
          rw [hfirst other hother, hfirst kind h]
        · intro hsame other hother
          rw [hsame other (List.mem_cons_of_mem _ hother), hsame first List.mem_cons_self]
          exact decide_eq_true rfl
      rw [commonKind]
      by_cases hsame : ∀ other ∈ first :: kinds, other = kind
      · rw [if_pos (hall.mpr hsame), if_pos hsame, hsame first List.mem_cons_self]
      · rw [if_neg fun hfirst => hsame (hall.mp hfirst), if_neg hsame]

theorem commonKind_perm {kinds others : List Kind} (h : kinds.Perm others) :
    commonKind kinds = commonKind others := by
  cases kinds with
  | nil => rw [List.nil_perm.mp h]
  | cons kind kinds =>
      have hmem : kind ∈ others := h.subset List.mem_cons_self
      rw [commonKind_of_mem List.mem_cons_self, commonKind_of_mem hmem]
      simp only [h.mem_iff]

theorem describeUnion_perm (admitsAbsence : Bool) {present others : List Descriptor}
    (h : present.Perm others) :
    describeUnion admitsAbsence present = describeUnion admitsAbsence others := by
  have hkinds := commonKind_perm (h.map Descriptor.kind)
  unfold describeUnion
  split
  · match present, others with
    | [descriptor], others => rw [List.singleton_perm.mp h]
    | present, [descriptor] => rw [List.perm_singleton.mp h]
    | [], [] => rfl
    | [], _ :: _ :: _ => exact absurd h.length_eq (by simp)
    | _ :: _ :: _, [] => exact absurd h.length_eq (by simp)
    | first :: second :: present, first' :: second' :: others => exact by dsimp only; rw [hkinds]
  · rw [hkinds]

/-- The alternatives that do not stand for absence are described one by one. -/
theorem describePresent_eq (alternatives : List TypeExpr) :
    describePresent alternatives =
      (alternatives.filter fun alternative => !alternative.isAbsence).map describe := by
  induction alternatives with
  | nil => rw [describePresent, List.filter_nil, List.map_nil]
  | cons alternative alternatives ih =>
      rw [describePresent, List.filter_cons, ih]
      cases alternative.isAbsence <;> rfl

/-- **A union is described alike in any order of its alternatives.** -/
theorem describe_union_perm {alternatives others : List TypeExpr} (h : alternatives.Perm others) :
    (union alternatives).describe = (union others).describe := by
  have hpresent : (describePresent alternatives).Perm (describePresent others) := by
    rw [describePresent_eq, describePresent_eq]
    exact (h.filter _).map _
  rw [describe, describe, h.any_eq, describeUnion_perm _ hpresent]

/-! ## Absence beside a type -/

/-- A type with one alternative more, behind its own if it is a union. -/
def withAlternative : TypeExpr → TypeExpr → TypeExpr
  | union alternatives, alternative => union (alternatives ++ [alternative])
  | type, alternative => union [type, alternative]

/-- A union that already admits absence is described as one that does, and so is one of several
alternatives that does not. -/
theorem describeUnion_true {admitsAbsence : Bool} {present : List Descriptor}
    (h : admitsAbsence = false → 2 ≤ present.length) :
    describeUnion true present = (describeUnion admitsAbsence present).optional := by
  cases admitsAbsence with
  | true =>
      unfold describeUnion
      simp only [if_true]
      split <;> rw [Descriptor.optional_optional]
  | false =>
      match present, h rfl with
      | _ :: _ :: _, _ => rfl

/-- **Absence beside a type makes it optional.** -/
theorem describe_withAlternative {type : TypeExpr} (hsentence : type.isSentence = true)
    (hpresent : type.isAbsence = false) {absence : TypeExpr} (habsence : absence.isAbsence = true) :
    (type.withAlternative absence).describe = type.describe.optional := by
  have hbeside : ∀ type : TypeExpr, type.isAbsence = false →
      (union [type, absence]).describe = type.describe.optional := by
    intro type htype
    rw [describe]
    simp [describePresent, htype, habsence, describeUnion]
  cases type with
  | named name arguments => exact hbeside _ hpresent
  | literal value => exact hbeside _ hpresent
  | union alternatives =>
      rw [isSentence, Bool.and_eq_true, decide_eq_true_eq] at hsentence
      have hkept : describePresent (alternatives ++ [absence]) = describePresent alternatives := by
        rw [describePresent_eq, describePresent_eq, List.filter_append]
        simp [habsence]
      rw [withAlternative, describe, describe, List.any_append, hkept]
      simp only [List.any_cons, habsence, Bool.true_or, Bool.or_true]
      refine describeUnion_true fun hnone => ?_
      -- Without absence among them all alternatives are described.
      rw [List.any_eq_false] at hnone
      rw [describePresent_eq, List.filter_eq_self.mpr fun alternative hmem => by
        simpa using hnone alternative hmem, List.length_map]
      exact hsentence.1

/-- **The algebra of optional types.**  For every tree of the grammar, `option` around it and
absence beside it describe the same values or none, a union does not depend on the order of its
alternatives, and the pointer is optional exactly as its kind and the values demand. -/
theorem describe_optional_algebra {type : TypeExpr} (hsentence : type.isSentence = true) :
    (∀ name, lowerName name = "option" →
      (named name [type]).describe = type.describe.orAbsent) ∧
    (type.isAbsence = false → ∀ absence : TypeExpr, absence.isAbsence = true →
      (type.withAlternative absence).describe = type.describe.orAbsent) ∧
    (∀ alternatives others : List TypeExpr, alternatives.Perm others →
      (union alternatives).describe = (union others).describe) ∧
    type.describe.PointerAgrees := by
  have hagrees := describe_induction Descriptor.persists_pointerAgrees type
  refine ⟨?_, ?_, fun _ _ => describe_union_perm, hagrees⟩
  · intro name hname
    rw [describe, if_pos hname, describeFirst, hagrees.optional_eq]
  · intro hpresent absence habsence
    rw [describe_withAlternative hsentence hpresent habsence, hagrees.optional_eq]

/-- A link beside `none` stays what it is under `Option`, beside `NULL` and behind `none`. -/
theorem describe_optional_algebra_link :
    isSentence (union [named "record" [named "user" []], named "none" []]) = true ∧
    (named "Option" [union [named "record" [named "user" []], named "none" []]]).describe =
      ⟨.record, true, some ⟨"user", true⟩⟩ ∧
    (union [named "record" [named "user" []], named "none" [], named "NULL" []]).describe =
      ⟨.record, true, some ⟨"user", true⟩⟩ ∧
    (union [named "none" [], named "record" [named "user" []]]).describe =
      ⟨.record, true, some ⟨"user", true⟩⟩ := by
  have hsentence : isSentence (union [named "record" [named "user" []], named "none" []]) = true :=
    by decide
  obtain ⟨hoption, hbeside, hperm, -⟩ := describe_optional_algebra hsentence
  have hdescribe : (union [named "record" [named "user" []], named "none" []]).describe =
      ⟨.record, true, some ⟨"user", true⟩⟩ := by decide +kernel
  refine ⟨hsentence, ?_, ?_, ?_⟩
  · rw [hoption "Option" (by decide +kernel), hdescribe]
    rfl
  · have hnull := hbeside rfl (named "NULL" []) (by decide +kernel)
    rw [hdescribe] at hnull
    exact hnull
  · rw [hperm _ _ (List.Perm.swap _ _ _), hdescribe]

end TypeExpr

/-- In every description of a text, too, the pointer is optional exactly as its kind and the values
demand. -/
theorem Descriptor.pointerAgrees_ofTypeText (token : List Char) :
    (ofTypeText token).PointerAgrees :=
  ofTypeText_induction persists_pointerAgrees token

end SurrealSchema
