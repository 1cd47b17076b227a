import SurrealSchema.Binary64.Decimal
import SurrealSchema.Entries
import SurrealSchema.Text.Quoted

namespace SurrealSchema

/-!
# Free-form values

The values that settings and introspection responses are made of, their written text, and the
comparison of their numbers.
-/

/-- A value of free form. -/
inductive Value where
  | null
  | bool (value : Bool)
  | integer (value : Int)
  | float (value : Binary64)
  | text (value : String)
  | list (items : List Value)
  | map (entries : List (String × Value))
  deriving Inhabited

namespace Value

/-! ## Written text -/

mutual

/-- The written form of a value, texts quoted. -/
def written : Value → List Char
  | null => "None".toList
  | bool value => if value then "True".toList else "False".toList
  | integer value => (toString value).toList
  | float value => value.text
  | text value => Text.quoted value.toList
  | list items => '[' :: ", ".toList.intercalate (itemTexts items) ++ [']']
  | map entries => '\x7b' :: ", ".toList.intercalate (entryTexts entries) ++ ['\x7d']

/-- The written forms of the items of a list. -/
def itemTexts : List Value → List (List Char)
  | [] => []
  | item :: items => written item :: itemTexts items

/-- The written forms of the entries of a map. -/
def entryTexts : List (String × Value) → List (List Char)
  | [] => []
  | (name, value) :: entries =>
    (Text.quoted name.toList ++ ": ".toList ++ written value) :: entryTexts entries

end

/-- The text of a value: a text itself, and the written form of anything else. -/
def display : Value → String
  | text value => value
  | value => String.ofList value.written

/-! ## Views -/

/-- The entries of a map. -/
def entries? : Value → Option (Entries Value)
  | map entries => some entries
  | _ => none

/-- The characters of a text. -/
def text? : Value → Option String
  | text value => some value
  | _ => none

/-- Whether a value counts as present: it is neither null nor false nor zero nor empty. -/
def isTruthy : Value → Bool
  | null => false
  | bool value => value
  | integer value => value != 0
  | float value => !value.isZero
  | text value => value != ""
  | list items => !items.isEmpty
  | map entries => !entries.isEmpty

/-! ## Numbers -/

/-- The number a value stands for; the truth values stand for one and zero. -/
def number? : Value → Option (Int ⊕ Binary64)
  | bool value => some (.inl (if value then 1 else 0))
  | integer value => some (.inl value)
  | float value => some (.inr value)
  | _ => none

/-- Whether an integer and a floating-point number have exactly the same value. -/
def integerIsFloat (n : Int) (x : Binary64) : Bool :=
  match x.ratio? with
  | some (num, den) => n * den == num
  | none => false

/-- Equality of numbers by value. -/
def sameNumber : Int ⊕ Binary64 → Int ⊕ Binary64 → Bool
  | .inl n, .inl n' => n == n'
  | .inl n, .inr x => integerIsFloat n x
  | .inr x, .inl n => integerIsFloat n x
  | .inr x, .inr x' => x.sameValue x'

/-- Equality of scalars by value: numbers of any kind with numbers, texts with texts, null with
itself. -/
def sameScalar (x y : Value) : Bool :=
  match x.number?, y.number? with
  | some n, some n' => sameNumber n n'
  | none, none =>
    match x, y with
    | null, null => true
    | text s, text s' => s == s'
    | _, _ => false
  | _, _ => false

/-- Whether a value can be told apart from others by value: lists and maps cannot. -/
def isScalar : Value → Bool
  | list _ => false
  | map _ => false
  | _ => true

/-- The order of numbers. -/
def numberBelow : Int ⊕ Binary64 → Int ⊕ Binary64 → Bool
  | .inl n, .inl n' => n < n'
  | .inl n, .inr x =>
    match x with
    | .nan => false
    | .infinite negative => !negative
    | .finite .. => (x.ratio?).any fun (num, den) => n * den < num
  | .inr x, .inl n =>
    match x with
    | .nan => false
    | .infinite negative => negative
    | .finite .. => (x.ratio?).any fun (num, den) => num < n * den
  | .inr x, .inr x' => x.below x'

end Value
end SurrealSchema
