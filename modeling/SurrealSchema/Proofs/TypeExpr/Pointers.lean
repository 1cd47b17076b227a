import SurrealSchema.TypeExpr.Descriptor

namespace SurrealSchema

/-!
# Kinds of pointers

A type is described by a plain kind or a pointer, made optional any number of times, so a property
of descriptors that holds of these holds of every type, `TypeExpr.describe_induction`.  The first
such property is that a descriptor that carries a pointer is of one of the kinds that point at
another table, whatever text the type comes from.
-/

/-! ## What types are described by -/

/-- A property of descriptors that plain kinds and pointers have and that is kept where they are
made optional. -/
structure Descriptor.Persists (P : Descriptor → Prop) : Prop where
  plain : ∀ kind, P (.plain kind)
  pointing : ∀ kind table, kind.isReference = true → P (.pointing kind table)
  optional : ∀ descriptor, P descriptor → P descriptor.optional

namespace TypeExpr

variable {P : Descriptor → Prop}

theorem link_induction (h : Descriptor.Persists P) {kind : Kind} (hkind : kind.isReference = true)
    (arguments : List TypeExpr) : P (link kind arguments) := by
  unfold link
  split
  · exact h.pointing kind _ hkind
  · exact h.plain kind

theorem listOf_induction (h : Descriptor.Persists P) (arguments : List TypeExpr) :
    P (listOf arguments) := by
  unfold listOf
  split
  · split
    · split
      · exact h.pointing _ _ (by decide)
      · exact h.plain _
    · split <;> exact h.plain _
  · exact h.plain _

theorem describeUnion_induction (h : Descriptor.Persists P) (admitsAbsence : Bool)
    {present : List Descriptor} (hpresent : ∀ descriptor ∈ present, P descriptor) :
    P (describeUnion admitsAbsence present) := by
  unfold describeUnion
  split
  · split
    · exact h.optional _ (hpresent _ (List.mem_singleton.mpr rfl))
    · exact h.optional _ (h.plain _)
  · exact h.plain _

mutual

/-- **What holds of plain kinds and of pointers, and still when they are made optional, holds of the
description of every type.** -/
theorem describe_induction (h : Descriptor.Persists P) : (type : TypeExpr) → P type.describe
  | literal (.text _) => by
      rw [describe]
      exact h.plain _
  | literal (.integer _) => by
      rw [describe]
      exact h.plain _
  | literal (.decimal _) => by
      rw [describe]
      exact h.plain _
  | union alternatives => by
      rw [describe]
      exact describeUnion_induction h _ (describePresent_induction h alternatives)
  | named name arguments => by
      rw [describe]
      split
      · exact h.optional _ (describeFirst_induction h arguments)
      · split
        · exact link_induction h (by decide) arguments
        · split
          · exact link_induction h (by decide) arguments
          · split
            · exact listOf_induction h arguments
            · exact h.plain _

theorem describeFirst_induction (h : Descriptor.Persists P) :
    (arguments : List TypeExpr) → P (describeFirst arguments)
  | [] => by
      rw [describeFirst]
      exact h.plain _
  | first :: _ => by
      rw [describeFirst]
      exact describe_induction h first

theorem describePresent_induction (h : Descriptor.Persists P) :
    (alternatives : List TypeExpr) → ∀ descriptor ∈ describePresent alternatives, P descriptor
  | [] => by
      intro descriptor hmem
      rw [describePresent] at hmem
      contradiction
  | alternative :: alternatives => by
      intro descriptor hmem
      have hrest := describePresent_induction h alternatives descriptor
      rw [describePresent] at hmem
      split at hmem
      · exact hrest hmem
      · rcases List.mem_cons.mp hmem with rfl | hmem
        · exact describe_induction h alternative
        · exact hrest hmem

end

end TypeExpr

/-- It also holds of the description of every text. -/
theorem Descriptor.ofTypeText_induction {P : Descriptor → Prop} (h : Persists P)
    (token : List Char) : P (ofTypeText token) := by
  unfold ofTypeText
  split
  · exact h.plain _
  · split
    · exact TypeExpr.describe_induction h _
    · exact h.plain _

/-! ## Pointers and kinds -/

namespace Descriptor

/-- A pointer only comes with a kind that points. -/
def PointsByKind (descriptor : Descriptor) : Prop :=
  descriptor.reference.isSome = true → descriptor.kind.isReference = true

/-- Making a value optional changes neither its kind nor whether it points. -/
theorem persists_pointsByKind : Persists PointsByKind where
  plain := by
    intro kind h
    contradiction
  pointing := by
    intro kind table hkind _
    exact hkind
  optional := by
    intro descriptor h hsome
    apply h
    unfold Descriptor.optional at hsome
    dsimp only at hsome
    split at hsome
    · exact hsome
    · simpa using hsome

/-- Whatever the text of a type is, it is described with a pointer only where its kind points. -/
theorem pointsByKind_ofTypeText (token : List Char) : (ofTypeText token).PointsByKind :=
  ofTypeText_induction persists_pointsByKind token

end Descriptor

end SurrealSchema
