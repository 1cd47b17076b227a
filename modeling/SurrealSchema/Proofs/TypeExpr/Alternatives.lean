import SurrealSchema.Proofs.TypeExpr.Optionality

namespace SurrealSchema
namespace TypeExpr

/-!
# Optional alternatives

A union is optional if absence is one of its alternatives, and for no other reason.  An alternative
that is optional by itself does not make it so: only the kind of such an alternative is asked for,
and `option` around it is lost with its optionality.  So `option` and a type with `none` beside it,
which describe the same values by themselves, differ among further alternatives.

Main statement: `isOptional_describe_union_iff`.
-/

/-! ## Types that are optional by themselves -/

/-- Whether a type is written with `option` around it. -/
def isOption : TypeExpr → Bool
  | named name _ => lowerName name = "option"
  | _ => false

theorem isOptional_link (kind : Kind) (arguments : List TypeExpr) :
    (link kind arguments).isOptional = false := by
  unfold link
  split <;> rfl

theorem isOptional_listOf (arguments : List TypeExpr) : (listOf arguments).isOptional = false := by
  unfold listOf
  repeat' split
  all_goals rfl

/-- A type that is no union is optional exactly if it is written with `option` around it. -/
theorem isOptional_describe_eq_isOption {type : TypeExpr} (h : type.isUnion = false) :
    type.describe.isOptional = type.isOption := by
  cases type with
  | union alternatives => contradiction
  | literal value => cases value <;> simp [describe, Descriptor.plain, isOption]
  | named name arguments =>
      rw [describe, isOption]
      by_cases hoption : lowerName name = "option"
      · rw [if_pos hoption, decide_eq_true hoption]
        rfl
      · rw [if_neg hoption, decide_eq_false hoption]
        -- Without `option` around it no named type is optional, whatever its arguments are.
        split
        · exact isOptional_link _ _
        · split
          · exact isOptional_link _ _
          · split
            · exact isOptional_listOf _
            · rfl

/-! ## Unions -/

/-- A union is optional if absence is one of its alternatives. -/
theorem isOptional_describe_union (alternatives : List TypeExpr) :
    (union alternatives).describe.isOptional = alternatives.any isAbsence := by
  rw [describe]
  unfold describeUnion
  cases alternatives.any isAbsence with
  | false => rfl
  | true =>
      rw [if_pos rfl]
      split <;> rfl

/-- The members of a union that are optional by themselves count exactly if there are none or
absence is one of the members. -/
theorem isOptional_describe_union_iff_of_members {members : List TypeExpr}
    (hmembers : ∀ member ∈ members, member.describe.isOptional = member.isOption) :
    ((union members).describe.isOptional = true ↔
        ∃ member ∈ members, member.isAbsence = true ∨ member.describe.isOptional = true) ↔
      (∃ member ∈ members, member.isAbsence = true) ∨
        ∀ member ∈ members, member.isOption = false := by
  rw [isOptional_describe_union, List.any_eq_true]
  constructor
  · intro hiff
    by_cases habsence : ∃ member ∈ members, member.isAbsence = true
    · exact Or.inl habsence
    · refine Or.inr fun member hmem => ?_
      by_contra hoption
      rw [Bool.not_eq_false, ← hmembers member hmem] at hoption
      exact habsence (hiff.mpr ⟨member, hmem, Or.inr hoption⟩)
  · intro hcases
    constructor
    · rintro ⟨member, hmem, habsence⟩
      exact ⟨member, hmem, Or.inl habsence⟩
    · rintro ⟨member, hmem, habsence | hoptional⟩
      · exact ⟨member, hmem, habsence⟩
      · refine hcases.resolve_right fun hnone => ?_
        rw [hmembers member hmem, hnone member hmem] at hoptional
        contradiction

/-- The alternatives that a type adds to a union it is written in. -/
def alternatives : TypeExpr → List TypeExpr
  | union alternatives => alternatives
  | type => [type]

/-- A union with `option` around a member is optional exactly if it has absence beside it, while the
union with the absence written out always is. -/
theorem isOptional_describe_withoutOption_iff (front back : List TypeExpr) {name : String}
    (hname : lowerName name = "option") (type : TypeExpr) {absence : TypeExpr}
    (habsence : absence.isAbsence = true) :
    (union (front ++ named name [type] :: back)).describe.isOptional =
        (union (front ++ (type.alternatives ++ absence :: back))).describe.isOptional ↔
      ∃ member ∈ front ++ back, member.isAbsence = true := by
  have hoption : (named name [type]).isAbsence = false := by
    rw [isAbsence, hname]
    decide
  have hwritten : (union (front ++ (type.alternatives ++ absence :: back))).describe.isOptional =
      true := by
    rw [isOptional_describe_union, List.any_eq_true]
    exact ⟨absence, by simp, habsence⟩
  rw [hwritten, isOptional_describe_union, List.any_eq_true]
  simp [hoption, or_and_right, exists_or]

/-- **When a union is optional.**  A union of the grammar is optional if and only if absence is one
of its members.  So the members that are optional by themselves count exactly if there are none or
absence is there as well, and taking `option` off a member and writing absence behind it changes
nothing exactly if absence is there anyway. -/
theorem isOptional_describe_union_iff {members : List TypeExpr}
    (h : (union members).isSentence = true) :
    ((union members).describe.isOptional = true ↔ ∃ member ∈ members, member.isAbsence = true) ∧
    (((union members).describe.isOptional = true ↔
        ∃ member ∈ members, member.isAbsence = true ∨ member.describe.isOptional = true) ↔
      (∃ member ∈ members, member.isAbsence = true) ∨
        ∀ member ∈ members, member.isOption = false) ∧
    ∀ front back name type absence, members = front ++ named name [type] :: back →
      lowerName name = "option" → absence.isAbsence = true →
        ((union members).describe.isOptional =
            (union (front ++ (type.alternatives ++ absence :: back))).describe.isOptional ↔
          ∃ member ∈ front ++ back, member.isAbsence = true) := by
  rw [isSentence, Bool.and_eq_true, areTerms_iff] at h
  refine ⟨?_, ?_, ?_⟩
  · rw [isOptional_describe_union, List.any_eq_true]
  · exact isOptional_describe_union_iff_of_members fun member hmem =>
      isOptional_describe_eq_isOption (h.2 member hmem).1
  · rintro front back name type absence rfl hname habsence
    exact isOptional_describe_withoutOption_iff front back hname type habsence

/-- An `option` of a union counts where `NULL` is another member. -/
theorem isOptional_describe_union_iff_null :
    let wrapped := named "Option" [union [named "int" [], named "string" []]]
    let members := [named "record" [named "user" []], wrapped, named "NULL" []]
    (union members).isSentence = true ∧ members.any isOption = true ∧
      (union members).describe.isOptional = true ∧
      ((union members).describe.isOptional = true ↔
        ∃ member ∈ members, member.isAbsence = true ∨ member.describe.isOptional = true) ∧
      (union members).describe.isOptional =
        (union [named "record" [named "user" []], named "int" [], named "string" [],
          named "none" [], named "NULL" []]).describe.isOptional := by
  intro wrapped members
  have hsentence : (union members).isSentence = true := by decide
  have hnull : (named "NULL" []).isAbsence = true := by decide +kernel
  obtain ⟨hunion, hmembers, hwritten⟩ := isOptional_describe_union_iff hsentence
  refine ⟨hsentence, by decide +kernel, ?_, ?_, ?_⟩
  · exact hunion.mpr ⟨_, by simp [members], hnull⟩
  · exact hmembers.mpr (Or.inl ⟨_, by simp [members], hnull⟩)
  · exact (hwritten [named "record" [named "user" []]] [named "NULL" []] "Option"
      (union [named "int" [], named "string" []]) (named "none" []) rfl (by decide +kernel)
      (by decide +kernel)).mpr ⟨_, by simp, hnull⟩

/-- An `option` beside another type is not optional, though `option` by itself is and `none` in its
place would be. -/
theorem not_isOptional_optionBesideString :
    let wrapped := named "option" [named "int" []]
    let members := [wrapped, named "string" []]
    (union members).isSentence = true ∧
      ¬ ((union members).describe.isOptional = true ↔
        ∃ member ∈ members, member.isAbsence = true ∨ member.describe.isOptional = true) ∧
      (union members).describe.isOptional ≠
        (union [named "int" [], named "none" [], named "string" []]).describe.isOptional := by
  intro wrapped members
  have hunion : (union members).describe.isOptional = false := by decide +kernel
  have hwrapped : wrapped.describe.isOptional = true := by decide +kernel
  refine ⟨by decide, ?_, ?_⟩
  · rw [hunion]
    intro hiff
    have hoptional := hiff.mpr ⟨wrapped, List.mem_cons_self, Or.inr hwrapped⟩
    contradiction
  · rw [hunion]
    decide +kernel

end TypeExpr
end SurrealSchema
