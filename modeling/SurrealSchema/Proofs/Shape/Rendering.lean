import SurrealSchema.Proofs.Shape.Links
import SurrealSchema.Proofs.Shape.Writes
import SurrealSchema.Proofs.Token
import SurrealSchema.Shape.Render

namespace SurrealSchema

/-!
# Shapes read back from their written form

The written form of a shape that selections can answer tells the shape.  Apart from the brackets
behind it, which say how deep it lies in lists, such a shape is a word, a word closed by an angle
bracket, or fields closed by a brace.  So it ends at one place only, whatever it is followed by, and
the brackets end where none follows.

Main statement: `Catalog.render_tells_shape`.
-/

namespace Shape

/-! ## Shapes that selections can answer -/

/-- The shape of the values of a field where there are any. -/
def present : Shape → Shape
  | optional inner => inner
  | shape => shape

mutual

/-- Whether a shape is built from leaves, links to tables that are identifiers, lists, and structs
of such shapes under different identifiers, where only the fields of structs may be absent. -/
def isSelectable : Shape → Bool
  | scalar _ => true
  | recordId table => Token.isIdentifier table.toList
  | array element => isSelectable element
  | struct fields => decide (Entries.names fields).Nodup && fieldsSelectable fields
  | literal _ => false
  | optional _ => false
  | union _ => false

/-- Whether fields have identifiers as names and, where they are present, shapes of this kind. -/
def fieldsSelectable : List (String × Shape) → Bool
  | [] => true
  | (name, optional inner) :: fields =>
    Token.isIdentifier name.toList && isSelectable inner && fieldsSelectable fields
  | (name, shape) :: fields =>
    Token.isIdentifier name.toList && isSelectable shape && fieldsSelectable fields

end

/-- Whether an entry may stand in a struct that selections can answer. -/
def IsField (entry : String × Shape) : Prop :=
  Token.isIdentifier entry.1.toList = true ∧ entry.2.present.isSelectable = true

theorem fieldsSelectable_iff {fields : List (String × Shape)} :
    fieldsSelectable fields = true ↔ ∀ entry ∈ fields, IsField entry := by
  induction fields with
  | nil => simp [fieldsSelectable]
  | cons entry fields ih =>
      obtain ⟨name, shape⟩ := entry
      have hcons : fieldsSelectable ((name, shape) :: fields) = true ↔
          IsField (name, shape) ∧ fieldsSelectable fields = true := by
        cases shape <;> simp [fieldsSelectable, IsField, present]
      rw [hcons, ih, List.forall_mem_cons]

theorem isSelectable_struct {fields : List (String × Shape)} :
    (struct fields).isSelectable = true ↔
      (Entries.names fields).Nodup ∧ ∀ entry ∈ fields, IsField entry := by
  rw [isSelectable, Bool.and_eq_true, decide_eq_true_eq, fieldsSelectable_iff]

/-- Only a field may be absent, so a shape by itself is always present. -/
theorem present_of_isSelectable {shape : Shape} (h : shape.isSelectable = true) :
    shape.present = shape := by
  cases shape with
  | optional inner => simp [isSelectable] at h
  | scalar _ | recordId _ | array _ | struct _ | literal _ | union _ => rfl

theorem isUnion_of_isSelectable {shape : Shape} (h : shape.isSelectable = true) :
    shape.isUnion = false := by
  cases shape with
  | union options => simp [isSelectable] at h
  | scalar _ | recordId _ | array _ | struct _ | literal _ | optional _ => rfl

/-! ## Lists -/

/-- What a shape is a list of, or a list of lists of, and so on. -/
def core : Shape → Shape
  | array element => core element
  | shape => shape

/-- How deep the core of a shape lies in lists. -/
def depth : Shape → Nat
  | array element => depth element + 1
  | _ => 0

/-- The brackets of lists within lists. -/
def brackets : Nat → List Char
  | 0 => []
  | depth + 1 => '[' :: ']' :: brackets depth

theorem brackets_append (depth : Nat) : brackets depth ++ ['[', ']'] = brackets (depth + 1) := by
  induction depth with
  | zero => rfl
  | succ depth ih => simp only [brackets, List.cons_append, ih]

/-- A shape in lists within lists. -/
def listed : Nat → Shape → Shape
  | 0, shape => shape
  | depth + 1, shape => array (listed depth shape)

theorem listed_core : (shape : Shape) → listed shape.depth shape.core = shape
  | array element => by rw [depth, core, listed, listed_core element]
  | scalar _ | literal _ | recordId _ | struct _ | optional _ | union _ => rfl

/-- A shape is told by its core and its depth. -/
theorem eq_of_core_eq {shape other : Shape} (hcore : shape.core = other.core)
    (hdepth : shape.depth = other.depth) : shape = other := by
  rw [← listed_core shape, ← listed_core other, hcore, hdepth]

theorem renderChars_array {element : Shape} (h : element.isSelectable = true) :
    (array element).renderChars = element.renderChars ++ ['[', ']'] := by
  show (if element.isUnion then _ else element.renderChars) ++ _ = _
  rw [isUnion_of_isSelectable h, if_neg Bool.false_ne_true]

/-- The brackets of a list are written behind everything else. -/
theorem renderChars_eq : (shape : Shape) → shape.isSelectable = true →
    shape.renderChars = shape.core.renderChars ++ brackets shape.depth
  | array element, h => by
      have helement : element.isSelectable = true := h
      rw [renderChars_array helement, renderChars_eq element helement, core, depth,
        ← brackets_append, List.append_assoc]
  | scalar _, _ | recordId _, _ | struct _, _ | literal _, _ | optional _, _ | union _, _ =>
      (List.append_nil _).symm

/-- Brackets end where no further one follows. -/
theorem eq_of_brackets_append {depth other : Nat} {rest rest' : List Char}
    (hrest : Text.Halts (· == '[') rest) (hrest' : Text.Halts (· == '[') rest')
    (h : brackets depth ++ rest = brackets other ++ rest') : depth = other ∧ rest = rest' := by
  induction depth generalizing other with
  | zero =>
      cases other with
      | zero => exact ⟨rfl, h⟩
      | succ other =>
          have hopening := hrest '[' (congrArg List.head? h)
          contradiction
  | succ depth ih =>
      cases other with
      | zero =>
          have hopening := hrest' '[' (congrArg List.head? h.symm)
          contradiction
      | succ other =>
          obtain ⟨hdepth, heq⟩ := ih (List.cons.inj (List.cons.inj h).2).2
          exact ⟨congrArg Nat.succ hdepth, heq⟩

/-- What the core of a shape can be. -/
theorem core_cases : (shape : Shape) → shape.isSelectable = true →
    (∃ leaf, shape.core = scalar leaf) ∨
    (∃ table, shape.core = recordId table ∧ Token.isIdentifier table.toList = true) ∨
    ∃ fields, shape.core = struct fields ∧ ∀ entry ∈ fields, IsField entry
  | scalar leaf, _ => Or.inl ⟨leaf, rfl⟩
  | recordId table, h => Or.inr (Or.inl ⟨table, rfl, h⟩)
  | array element, h => core_cases element h
  | struct fields, h => Or.inr (Or.inr ⟨fields, rfl, (isSelectable_struct.mp h).2⟩)

/-! ## Cores -/

/-- Whether the core of a shape ends at one place only in every text it stands at the front of. -/
def IsClosed (shape : Shape) : Prop :=
  ∀ other : Shape, other.isSelectable = true → ∀ rest rest' : List Char,
    shape.core.renderChars ++ rest = other.core.renderChars ++ rest' →
      shape.core = other.core ∧ rest = rest'

/-- Behind the core the brackets are read, so a shape ends where no further bracket follows. -/
theorem IsClosed.eq_of_append {shape other : Shape} (hclosed : shape.IsClosed)
    (hshape : shape.isSelectable = true) (hother : other.isSelectable = true)
    {rest rest' : List Char} (hrest : Text.Halts (· == '[') rest)
    (hrest' : Text.Halts (· == '[') rest')
    (h : shape.renderChars ++ rest = other.renderChars ++ rest') :
    shape = other ∧ rest = rest' := by
  rw [renderChars_eq shape hshape, renderChars_eq other hother, List.append_assoc,
    List.append_assoc] at h
  obtain ⟨hcore, hbrackets⟩ := hclosed other hother _ _ h
  obtain ⟨hdepth, heq⟩ := eq_of_brackets_append hrest hrest' hbrackets
  exact ⟨eq_of_core_eq hcore hdepth, heq⟩

/-! ### Words -/

theorem eq_of_name_isPrefix (leaf other : Scalar) (h : leaf.name.toList <+: other.name.toList) :
    leaf = other := by
  revert h
  cases leaf <;> cases other <;> decide

/-- The name of a leaf ends at one place only. -/
theorem eq_of_name_append {leaf other : Scalar} {rest rest' : List Char}
    (h : leaf.name.toList ++ rest = other.name.toList ++ rest') :
    leaf = other ∧ rest = rest' := by
  have hsame : leaf = other := by
    rcases List.prefix_or_prefix_of_prefix ⟨rest, h⟩ ⟨rest', rfl⟩ with hprefix | hprefix
    · exact eq_of_name_isPrefix leaf other hprefix
    · exact (eq_of_name_isPrefix other leaf hprefix).symm
  subst hsame
  exact ⟨rfl, List.append_cancel_left h⟩

/-- A leaf is written neither like a link nor like a struct. -/
theorem ne_of_name_append {leaf : Scalar} {c : Char} {rest text : List Char}
    (h : leaf.name.toList ++ rest = c :: text) : c ≠ 'r' ∧ c ≠ '\x7b' := by
  cases leaf <;> rw [← (List.cons.inj h).1] <;> decide

theorem continuesName_of_isIdentifier {text : List Char} (h : Token.isIdentifier text = true) :
    ∀ c ∈ text, Token.continuesName c = true := by
  cases text with
  | nil => contradiction
  | cons first more =>
      obtain ⟨hfirst, hmore⟩ := Token.isIdentifier_cons.mp h
      exact List.forall_mem_cons.mpr ⟨Token.continuesName_of_startsName hfirst, hmore⟩

/-- Identifiers end where something else follows. -/
theorem eq_of_identifier_append {name other : String} (hname : Token.isIdentifier name.toList = true)
    (hother : Token.isIdentifier other.toList = true) {rest rest' : List Char}
    (hrest : Text.Halts Token.continuesName rest) (hrest' : Text.Halts Token.continuesName rest')
    (h : name.toList ++ rest = other.toList ++ rest') : name = other ∧ rest = rest' := by
  obtain ⟨hsame, heq⟩ := Text.run_eq_run (continuesName_of_isIdentifier hname)
    (continuesName_of_isIdentifier hother) hrest hrest' h
  exact ⟨String.toList_injective hsame, heq⟩

theorem isClosed_scalar (leaf : Scalar) : (scalar leaf).IsClosed := by
  intro other hother rest rest' h
  change leaf.name.toList ++ rest = _ at h
  rcases core_cases other hother with ⟨leaf', hcore⟩ | ⟨table, hcore, -⟩ | ⟨fields, hcore, -⟩ <;>
    rw [hcore] at h ⊢
  · obtain ⟨rfl, heq⟩ := eq_of_name_append h
    exact ⟨rfl, heq⟩
  · exact absurd rfl (ne_of_name_append (c := 'r') h).1
  · exact absurd rfl (ne_of_name_append (c := '\x7b') h).2

theorem isClosed_recordId {table : String} (htable : Token.isIdentifier table.toList = true) :
    (recordId table).IsClosed := by
  intro other hother rest rest' h
  rcases core_cases other hother with ⟨leaf, hcore⟩ | ⟨table', hcore, htable'⟩ |
    ⟨fields, hcore, -⟩ <;> rw [hcore] at h ⊢
  · exact absurd rfl (ne_of_name_append (c := 'r') h.symm).1
  · have hnames : table.toList ++ '>' :: rest = table'.toList ++ '>' :: rest' := by
      change "record<".toList ++ table.toList ++ ['>'] ++ rest =
        "record<".toList ++ table'.toList ++ ['>'] ++ rest' at h
      simpa using h
    have hangle : ∀ text, Text.Halts Token.continuesName ('>' :: text) :=
      Text.halts_cons (by decide)
    obtain ⟨rfl, heq⟩ := eq_of_identifier_append htable htable' (hangle _) (hangle _) hnames
    exact ⟨rfl, (List.cons.inj heq).2⟩
  · exact absurd (List.cons.inj h).1 (by decide)

/-! ### Fields -/

/-- Whether a shape is that of a field that may be absent. -/
def mayBeAbsent : Shape → Bool
  | optional _ => true
  | _ => false

theorem eq_around_present (shape : Shape) :
    shape = if shape.mayBeAbsent then optional shape.present else shape.present := by
  cases shape <;> rfl

/-- What stands between the name of a field and the shape of its values. -/
def marker (absent : Bool) : List Char :=
  if absent then "?: ".toList else ": ".toList

/-- Whether a field may be absent is written before its shape starts. -/
theorem eq_of_marker_append {absent other : Bool} {rest rest' : List Char}
    (h : marker absent ++ rest = marker other ++ rest') : absent = other ∧ rest = rest' := by
  cases absent <;> cases other
  · exact ⟨rfl, List.append_cancel_left h⟩
  · exact absurd (List.cons.inj h).1 (by decide)
  · exact absurd (List.cons.inj h).1 (by decide)
  · exact ⟨rfl, List.append_cancel_left h⟩

theorem halts_marker (absent : Bool) (rest : List Char) :
    Text.Halts Token.continuesName (marker absent ++ rest) := by
  cases absent <;> exact Text.halts_cons (by decide) _

/-- A field of a struct as it is written. -/
def fieldText (entry : String × Shape) : List Char :=
  entry.1.toList ++ (marker entry.2.mayBeAbsent ++ entry.2.present.renderChars)

theorem fieldTexts_eq_map (fields : List (String × Shape)) :
    fieldTexts fields = fields.map fieldText := by
  induction fields with
  | nil => rfl
  | cons entry fields ih =>
      obtain ⟨name, shape⟩ := entry
      have hcons : fieldTexts ((name, shape) :: fields) =
          fieldText (name, shape) :: fieldTexts fields := by
        cases shape <;> exact congrArg (· :: fieldTexts fields) (List.append_assoc _ _ _)
      rw [hcons, ih, List.map_cons]

/-- A field ends where the brackets behind its shape do. -/
theorem eq_of_fieldText_append {entry other : String × Shape}
    (hclosed : entry.2.present.IsClosed) (hentry : IsField entry) (hother : IsField other)
    {rest rest' : List Char} (hrest : Text.Halts (· == '[') rest)
    (hrest' : Text.Halts (· == '[') rest')
    (h : fieldText entry ++ rest = fieldText other ++ rest') : entry = other ∧ rest = rest' := by
  simp only [fieldText, List.append_assoc] at h
  obtain ⟨hname, hbehind⟩ := eq_of_identifier_append hentry.1 hother.1 (halts_marker _ _)
    (halts_marker _ _) h
  obtain ⟨habsent, hshapes⟩ := eq_of_marker_append hbehind
  obtain ⟨hpresent, heq⟩ := hclosed.eq_of_append hentry.2 hother.2 hrest hrest' hshapes
  refine ⟨Prod.ext hname ?_, heq⟩
  rw [eq_around_present entry.2, eq_around_present other.2, habsent, hpresent]

/-- The fields behind others as they are written, up to the brace that closes the struct. -/
def furtherFields (fields : List (String × Shape)) (rest : List Char) : List Char :=
  (fields.flatMap fun entry => ", ".toList ++ fieldText entry) ++ '\x7d' :: rest

theorem furtherFields_cons (entry : String × Shape) (fields : List (String × Shape))
    (rest : List Char) :
    furtherFields (entry :: fields) rest =
      ", ".toList ++ (fieldText entry ++ furtherFields fields rest) := by
  simp [furtherFields]

theorem halts_furtherFields (fields : List (String × Shape)) (rest : List Char) :
    Text.Halts (· == '[') (furtherFields fields rest) := by
  cases fields with
  | nil => exact Text.halts_cons (by decide) _
  | cons entry fields =>
      rw [furtherFields_cons]
      exact Text.halts_cons (by decide) _

/-- Fields whose shapes are closed are told one after the other up to the brace. -/
theorem eq_of_furtherFields {fields others : List (String × Shape)}
    (hclosed : ∀ entry ∈ fields, entry.2.present.IsClosed) (hfields : ∀ entry ∈ fields, IsField entry)
    (hothers : ∀ entry ∈ others, IsField entry) {rest rest' : List Char}
    (h : furtherFields fields rest = furtherFields others rest') :
    fields = others ∧ rest = rest' := by
  induction fields generalizing others with
  | nil =>
      cases others with
      | nil => exact ⟨rfl, (List.cons.inj h).2⟩
      | cons other others =>
          rw [furtherFields_cons] at h
          exact absurd (List.cons.inj h).1 (by decide)
  | cons entry fields ih =>
      cases others with
      | nil =>
          rw [furtherFields_cons] at h
          exact absurd (List.cons.inj h).1 (by decide)
      | cons other others =>
          obtain ⟨hfirst, hclosedRest⟩ := List.forall_mem_cons.mp hclosed
          obtain ⟨hentry, hfieldsRest⟩ := List.forall_mem_cons.mp hfields
          obtain ⟨hother, hothersRest⟩ := List.forall_mem_cons.mp hothers
          rw [furtherFields_cons, furtherFields_cons] at h
          -- A comma or the closing brace follows and no bracket, so both first fields end here.
          obtain ⟨rfl, hrest⟩ := eq_of_fieldText_append hfirst hentry hother
            (halts_furtherFields _ _) (halts_furtherFields _ _) (List.append_cancel_left h)
          obtain ⟨rfl, heq⟩ := ih hclosedRest hfieldsRest hothersRest hrest
          exact ⟨rfl, heq⟩

/-- The fields of a struct as they are written, up to the brace that closes it. -/
def fieldsText (fields : List (String × Shape)) (rest : List Char) : List Char :=
  ", ".toList.intercalate (fields.map fieldText) ++ '\x7d' :: rest

theorem renderChars_struct_append (fields : List (String × Shape)) (rest : List Char) :
    (struct fields).renderChars ++ rest = '\x7b' :: fieldsText fields rest := by
  have hstruct : (struct fields).renderChars =
      '\x7b' :: ", ".toList.intercalate (fieldTexts fields) ++ ['\x7d'] := rfl
  rw [hstruct, fieldTexts_eq_map, fieldsText]
  simp

theorem separator_append_fieldsText (entry : String × Shape) (fields : List (String × Shape))
    (rest : List Char) :
    ", ".toList ++ fieldsText (entry :: fields) rest = furtherFields (entry :: fields) rest := by
  rw [furtherFields_cons, fieldsText, furtherFields, List.map_cons, Text.intercalate_cons,
    List.flatMap_map, List.append_assoc]

/-- Where a field follows, the brace that closes a struct does not. -/
theorem fieldsText_cons_ne {entry : String × Shape} (hentry : IsField entry)
    (fields : List (String × Shape)) (rest rest' : List Char) :
    fieldsText (entry :: fields) rest ≠ '\x7d' :: rest' := by
  intro h
  have hname := hentry.1
  rw [fieldsText, List.map_cons, Text.intercalate_cons, fieldText] at h
  cases hchars : entry.1.toList with
  | nil =>
      rw [hchars] at hname
      contradiction
  | cons first more =>
      rw [hchars] at h hname
      have hfirst := (Token.isIdentifier_cons.mp hname).1
      rw [(List.cons.inj h).1] at hfirst
      exact absurd hfirst (by decide)

/-- Structs are told by their fields. -/
theorem eq_of_fieldsText {fields others : List (String × Shape)}
    (hclosed : ∀ entry ∈ fields, entry.2.present.IsClosed) (hfields : ∀ entry ∈ fields, IsField entry)
    (hothers : ∀ entry ∈ others, IsField entry) {rest rest' : List Char}
    (h : fieldsText fields rest = fieldsText others rest') :
    fields = others ∧ rest = rest' := by
  cases fields with
  | nil =>
      cases others with
      | nil => exact ⟨rfl, (List.cons.inj h).2⟩
      | cons other others =>
          exact absurd h.symm (fieldsText_cons_ne (hothers other List.mem_cons_self) _ _ _)
  | cons entry fields =>
      cases others with
      | nil => exact absurd h (fieldsText_cons_ne (hfields entry List.mem_cons_self) _ _ _)
      | cons other others =>
          have hfurther := congrArg (", ".toList ++ ·) h
          rw [separator_append_fieldsText, separator_append_fieldsText] at hfurther
          exact eq_of_furtherFields hclosed hfields hothers hfurther

theorem isClosed_struct {fields : List (String × Shape)} (hfields : ∀ entry ∈ fields, IsField entry)
    (hclosed : ∀ entry ∈ fields, entry.2.present.IsClosed) : (struct fields).IsClosed := by
  intro other hother rest rest' h
  rcases core_cases other hother with ⟨leaf, hcore⟩ | ⟨table, hcore, -⟩ | ⟨others, hcore, hothers⟩ <;>
    rw [hcore] at h ⊢
  · exact absurd rfl (ne_of_name_append (c := '\x7b') h.symm).2
  · exact absurd (List.cons.inj h).1 (by decide)
  · change (struct fields).renderChars ++ rest = (struct others).renderChars ++ rest' at h
    rw [renderChars_struct_append, renderChars_struct_append] at h
    obtain ⟨rfl, heq⟩ := eq_of_fieldsText hclosed hfields hothers (List.cons.inj h).2
    exact ⟨rfl, heq⟩

/-! ## Reading back -/

theorem sizeOf_present_lt {fields : List (String × Shape)} {entry : String × Shape}
    (hmem : entry ∈ fields) : sizeOf entry.2.present < sizeOf fields := by
  have hpresent : sizeOf entry.2.present ≤ sizeOf entry.2 := by
    cases entry.2 with
    | optional inner => simp [present]
    | scalar _ | recordId _ | array _ | struct _ | literal _ | union _ => exact Nat.le_refl _
  have hentry : sizeOf entry < sizeOf fields := List.sizeOf_lt_of_mem hmem
  have hpart : sizeOf entry = 1 + sizeOf entry.1 + sizeOf entry.2 := rfl
  omega

/-- **The core of every shape that selections can answer is closed.** -/
theorem isClosed_of_isSelectable :
    (shape : Shape) → shape.isSelectable = true → shape.IsClosed
  | scalar leaf, _ => isClosed_scalar leaf
  | recordId table, h => isClosed_recordId h
  | array element, h => isClosed_of_isSelectable element h
  | struct fields, h =>
      -- The recursion is on the shapes of present values, which a field that may be absent hides.
      have hfields := (isSelectable_struct.mp h).2
      isClosed_struct hfields fun entry hmem =>
        have _ := sizeOf_present_lt hmem
        isClosed_of_isSelectable entry.2.present (hfields entry hmem).2
termination_by shape => sizeOf shape

/-- **Shapes that selections can answer are told by their written form.** -/
theorem eq_of_render_eq {shape other : Shape} (hshape : shape.isSelectable = true)
    (hother : other.isSelectable = true) (h : shape.render = other.render) : shape = other := by
  have hchars : shape.renderChars ++ [] = other.renderChars ++ [] := by
    rw [String.ofList_injective h]
  exact ((isClosed_of_isSelectable shape hshape).eq_of_append hshape hother (Text.halts_nil _)
    (Text.halts_nil _) hchars).1

end Shape

open Shape

/-! ## Answers of selections -/

/-- Whether the fields of a table, and the tables they point at, are named by identifiers. -/
def Table.HasIdentifiers (table : Table) : Prop :=
  ∀ field ∈ table.fields, Token.isIdentifier field.name.toList = true ∧
    ∀ reference ∈ field.reference, Token.isIdentifier reference.table.toList = true

instance : DecidablePred Table.HasIdentifiers :=
  fun table => inferInstanceAs (Decidable (∀ field ∈ table.fields, _))

/-- Whether the columns of a layout are named by different identifiers and point at tables that
are. -/
structure Layout.HasIdentifiers (layout : Layout) : Prop where
  distinct : (Entries.names layout.columns).Nodup
  columns : ∀ entry ∈ layout.columns, Token.isIdentifier entry.1.toList = true
  pointers : layout.PointsTo fun table => Token.isIdentifier table.toList = true

theorem Table.HasIdentifiers.layout {table : Table} (h : table.HasIdentifiers) :
    (Layout.ofTable table).HasIdentifiers where
  distinct := Entries.nodup_names_ofList _
  columns := by
    intro entry hentry
    obtain ⟨field, hfield, rfl⟩ := List.mem_map.mp (Entries.mem_ofList hentry)
    exact (h field hfield).1
  pointers := by
    intro entry hentry
    obtain ⟨field, hfield, hcolumn⟩ := Layout.exists_of_mem_columns hentry
    rw [hcolumn]
    exact (h field hfield).2

/-- Whether all tables of a catalog have identifiers. -/
def Catalog.HasIdentifiers (catalog : Catalog) : Prop :=
  ∀ entry ∈ catalog.layouts, entry.2.HasIdentifiers

theorem Catalog.hasIdentifiers_ofTables {tables : List Table}
    (h : ∀ table ∈ tables, table.HasIdentifiers) : (ofTables tables).HasIdentifiers := by
  intro entry hentry
  obtain ⟨table, htable, hlayout⟩ := exists_of_mem_layouts hentry
  rw [hlayout]
  exact (h table htable).layout

theorem Catalog.HasIdentifiers.layout {catalog : Catalog} (h : catalog.HasIdentifiers)
    {name : String} {layout : Layout} (hlayout : catalog.layout? name = some layout) :
    layout.HasIdentifiers :=
  h _ (Entries.mem_of_get? hlayout)

/-- A pointer at an identifier is shown as a link to it, and text where there is none. -/
theorem isSelectable_of_reference {reference : Option Reference} :
    (∀ target, reference = some target → Token.isIdentifier target.table.toList = true) →
      Shape.isSelectable (match reference with
        | some target => Shape.recordId target.table
        | none => .scalar .string) = true := by
  intro h
  cases reference with
  | none => rfl
  | some target => exact h target rfl

theorem Kind.isSelectable_shape (kind : Kind) {reference : Option Reference}
    (h : ∀ target, reference = some target → Token.isIdentifier target.table.toList = true) :
    (kind.shape reference).isSelectable = true := by
  unfold Kind.shape
  dsimp only
  split
  · exact isSelectable_of_reference h
  · split
    · exact isSelectable_of_reference h
    · -- No other kind looks at the pointer.
      repeat' split
      all_goals rfl

/-- A column by itself is a field that may be selected. -/
theorem Layout.HasIdentifiers.isField {layout : Layout} (h : layout.HasIdentifiers)
    {entry : String × Column} (hentry : entry ∈ layout.columns) : IsField (entry.1, entry.2.shape) := by
  refine ⟨h.columns entry hentry, ?_⟩
  have hkind := entry.2.kind.isSelectable_shape (h.pointers entry hentry)
  unfold Column.shape
  dsimp only
  split
  · exact hkind
  · rw [present_of_isSelectable hkind]
    exact hkind

namespace Catalog

variable {catalog : Catalog}

/-- What is written over fields that may be selected leaves a struct that may. -/
theorem isSelectable_struct_putAll {found more : Entries Shape}
    (hdistinct : (Entries.names found).Nodup) (hfound : ∀ entry ∈ found, IsField entry)
    (hmore : ∀ entry ∈ more, IsField entry) :
    (Shape.struct (Entries.putAll found more)).isSelectable = true := by
  refine isSelectable_struct.mpr ⟨Entries.nodup_names_putAll more found hdistinct, ?_⟩
  intro entry hentry
  exact (Entries.mem_putAll hentry).elim (hfound entry) (hmore entry)

theorem isSelectable_behind (h : catalog.HasIdentifiers) (column : Column)
    {select : Layout → Entries Shape}
    (hselect : ∀ target : Layout, target.HasIdentifiers →
      (Shape.struct (select target)).isSelectable = true) :
    (catalog.behind column select).isSelectable = true := by
  unfold behind
  split
  · rfl
  · next target htarget =>
      obtain ⟨reference, -, hlayout⟩ := Option.bind_eq_some_iff.mp htarget
      have hstruct := hselect target (h.layout hlayout)
      dsimp only
      split
      · exact hstruct
      · exact hstruct

/-- **What a selection writes are fields that may be selected**, at every depth. -/
theorem isField_of_mem_written (h : catalog.HasIdentifiers) :
    (selection : Selection) → {layout : Layout} → layout.HasIdentifiers →
      ∀ entry ∈ catalog.written layout selection, IsField entry
  | .mk field nested, layout, hlayout, entry, hentry => by
      have hnested : ∀ target : Layout, target.HasIdentifiers →
          ∀ other ∈ nested.flatMap (catalog.written target), IsField other := by
        intro target htarget other hother
        obtain ⟨selection, hmem, hwritten⟩ := List.mem_flatMap.mp hother
        exact isField_of_mem_written h selection htarget other hwritten
      unfold written at hentry
      split at hentry
      · obtain ⟨column, hcolumn, rfl⟩ := List.mem_map.mp hentry
        exact hlayout.isField hcolumn
      · obtain ⟨column, hcolumn, rfl⟩ :=
          Option.map_eq_some_iff.mp (Option.mem_toList.mp hentry)
        have hfield := hlayout.isField (Entries.mem_of_get? hcolumn)
        unfold chosen
        split
        · exact hfield
        · have hexpansion : (catalog.expansion column nested).isSelectable = true := by
            refine isSelectable_behind h column fun target htarget => ?_
            rw [pick_eq_putAll]
            exact isSelectable_struct_putAll List.nodup_nil (by simp) (hnested target htarget)
          refine ⟨hfield.1, ?_⟩
          show (Shape.present (catalog.expansion column nested)).isSelectable = true
          rw [present_of_isSelectable hexpansion]
          exact hexpansion

theorem isSelectable_struct_select (h : catalog.HasIdentifiers) {layout : Layout}
    (hlayout : layout.HasIdentifiers) (selections : List Selection) :
    (Shape.struct (catalog.select layout selections)).isSelectable = true := by
  have hwritten : ∀ others : List Selection,
      ∀ entry ∈ others.flatMap (catalog.written layout), IsField entry := by
    intro others entry hentry
    obtain ⟨selection, -, hmem⟩ := List.mem_flatMap.mp hentry
    exact isField_of_mem_written h selection hlayout entry hmem
  unfold select
  split
  · rw [foldl_expandIn_eq_putAll]
    refine isSelectable_struct_putAll (layout.names_shapes ▸ hlayout.distinct) ?_ (hwritten _)
    intro entry hentry
    obtain ⟨column, hcolumn, rfl⟩ := List.mem_map.mp hentry
    exact hlayout.isField hcolumn
  · rw [pick_eq_putAll]
    exact isSelectable_struct_putAll List.nodup_nil (by simp) (hwritten _)

/-- The answer to a query that selects is a shape of this kind. -/
theorem isSelectable_answerShape (h : catalog.HasIdentifiers) {query : Query}
    (hkind : query.kind = .select) : (catalog.answerShape query).isSelectable = true := by
  cases hqueried : catalog.queried? query with
  | none =>
      have hunknown : catalog.answerShape query = .unknown := by
        simp [answerShape, hkind, hqueried]
      rw [hunknown]
      rfl
  | some layout =>
      obtain ⟨table, -, hlayout⟩ := Option.bind_eq_some_iff.mp hqueried
      have hstruct := isSelectable_struct_select h (h.layout hlayout) query.selections
      rw [catalog.answerShape_of_select hkind hqueried]
      split
      · exact hstruct
      · exact hstruct

/-- **Written shapes are unambiguous.**  Two shapes that are built from leaves, links to identifiers,
lists, and structs of such shapes under different identifiers, some of whose fields may be absent,
have the same written form only if they are the same shape with the fields in the same order; and
whatever is selected from tables with identifiers, the answer is a shape of this kind. -/
theorem render_tells_shape :
    (∀ shape other : Shape, shape.isSelectable = true → other.isSelectable = true →
      shape.render = other.render → shape = other) ∧
    ∀ tables : List Table, (∀ table ∈ tables, table.HasIdentifiers) → ∀ query : Query,
      query.kind = .select → ((ofTables tables).answerShape query).isSelectable = true := by
  constructor
  · intro shape other hshape hother h
    exact Shape.eq_of_render_eq hshape hother h
  · intro tables htables query hkind
    exact isSelectable_answerShape (hasIdentifiers_ofTables htables) hkind

/-- An answer with a field that may be absent, a list behind it and a struct in it is told by its
written form. -/
theorem render_tells_shape_likes :
    let user : Table := ⟨"user", none,
      [⟨"name", .string, false, none, none, none⟩,
        ⟨"likes", .arrayOfRecord, true, none, none, some ⟨"post", false⟩⟩]⟩
    let post : Table := ⟨"post", none,
      [⟨"author", .record, false, none, none, some ⟨"user", false⟩⟩,
        ⟨"tags", .array, true, none, none, none⟩]⟩
    let query : Query := {
      kind := .select
      tables := ["post"]
      selections := [.mk "author" [.leaf "*"], .leaf "tags"]
      conditions := []
      modifiers := []
      returnsMany := true }
    let answer := (ofTables [user, post]).answerShape query
    let shape := Shape.array (.struct [
      ("author", .struct [
        ("name", .scalar .string), ("likes", .optional (.array (.recordId "post")))]),
      ("tags", .optional (.array (.scalar .unknown)))])
    (∀ table ∈ [user, post], table.HasIdentifiers) ∧ query.kind = .select ∧
      shape.isSelectable = true ∧ answer.render = shape.render ∧ answer = shape := by
  intro user post query answer shape
  have htables : ∀ table ∈ [user, post], table.HasIdentifiers := by decide +kernel
  have hanswer : answer.isSelectable = true := render_tells_shape.2 _ htables query rfl
  have hshape : shape.isSelectable = true := by decide +kernel
  have hrender : answer.render = shape.render := by decide +kernel
  exact ⟨htables, rfl, hshape, hrender, render_tells_shape.1 answer shape hanswer hshape hrender⟩

end Catalog
end SurrealSchema
