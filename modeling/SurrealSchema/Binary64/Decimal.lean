import SurrealSchema.Binary64.Basic
import SurrealSchema.Text.Trim

namespace SurrealSchema
namespace Binary64

/-!
# Decimal texts of floating-point numbers

Reading takes the nearest number to the decimal that is written.  Writing takes the fewest digits
that read back as the number, and of the decimals with that many digits the nearest one.
-/

/-! ## Reading -/

/-- The number nearest to `digits * 10 ^ power`.  A decimal whose magnitude is far outside the
format is settled by its number of digits alone. -/
def ofDecimal (negative : Bool) (digits : Nat) (power : Int) : Binary64 :=
  let magnitude : Int := (Nat.toDigits 10 digits).length + power
  if digits = 0 ∨ magnitude < -330 then finite negative 0 (-1074)
  else if 310 < magnitude then infinite negative
  else
    let (num, den) := timesPower 10 power digits 1
    nearest negative num den

/-- A run of digits in which single underscores may stand between two digits, and what follows;
`afterDigit` says whether a digit stands right before the text. -/
def digitRun (afterDigit : Bool) : List Char → List Char × List Char
  | [] => ([], [])
  | c :: text =>
    if Text.isDigit c then
      let (digits, rest) := digitRun true text
      (c :: digits, rest)
    else if afterDigit && c == '_' && text.head?.any Text.isDigit then digitRun false text
    else ([], c :: text)

/-- A sign, if there is one, and what follows it. -/
def signOf : List Char → Bool × List Char
  | '-' :: text => (true, text)
  | '+' :: text => (false, text)
  | text => (false, text)

/-- The decimal exponent that a text consists of; nothing at all stands for zero. -/
def exponent? : List Char → Option Int
  | [] => some 0
  | c :: text =>
    if c == 'e' || c == 'E' then
      let (negative, text) := signOf text
      match digitRun false text with
      | (d :: digits, []) =>
        let size : Int := Text.natOfDigits (d :: digits)
        some (if negative then -size else size)
      | _ => none
    else none

/-- The digits after a decimal point, if there is one, and what follows them. -/
def fraction : List Char → List Char × List Char
  | '.' :: text => digitRun false text
  | text => ([], text)

/-- Reads a decimal with optional sign, fraction and exponent, or one of the names of the values
that are not finite; blanks around it are ignored. -/
def read? (text : List Char) : Option Binary64 :=
  let (negative, body) := signOf (Text.trim text)
  let name := String.ofList (body.map Char.toLower)
  if name = "inf" ∨ name = "infinity" then some (infinite negative)
  else if name = "nan" then some nan
  else
    let (whole, rest) := digitRun false body
    let (part, rest) := fraction rest
    if whole.isEmpty && part.isEmpty then none
    else
      (exponent? rest).map fun power =>
        ofDecimal negative (Text.natOfDigits (whole ++ part)) (power - part.length)

/-! ## Writing -/

/-- The decimals that read back as a finite number lie between two bounds, which belong to the
range exactly when the mantissa is even.  All three are given in quarters of the last binary
place. -/
def quarterBounds (mantissa : Nat) (exponent : Int) : Nat × Nat × Nat :=
  let low :=
    if mantissa = Nat.pow 2 52 ∧ -1074 < exponent then 4 * mantissa - 1 else 4 * mantissa - 2
  (low, 4 * mantissa, 4 * mantissa + 2)

/-- How many digits the integer part of a positive ratio has; zero or less when the ratio is below
one tenth. -/
def digitsBeforePoint (num den : Nat) : Int :=
  let guess : Int := (((num.log2 : Int) - den.log2) * 30103) / 100000
  let fits (places : Int) : Bool :=
    let (num', den') := timesPower 10 (-places) num den
    num' < den'
  if fits guess then guess else if fits (guess + 1) then guess + 1 else guess + 2

/-- Of two neighbours on a decimal grid, the one that is to be written: one that lies in the range
before one that does not, the nearer one if both do, and the even one if both are as near. -/
def choose (floor : Nat) (lowIn highIn : Bool) (twiceRest den : Nat) : Option Nat :=
  match lowIn, highIn with
  | false, false => none
  | true, false => some floor
  | false, true => some (floor + 1)
  | true, true =>
    if twiceRest < den then some floor
    else if den < twiceRest then some (floor + 1)
    else some (floor + floor % 2)

/-- The decimal with `count` digits that is to be written for a positive finite number, if one
reads back: its digits as a number and the power of ten they are to be multiplied by. -/
def decimalOfLength? (mantissa : Nat) (exponent : Int) (count : Nat) : Option (Nat × Int) :=
  let (low, middle, high) := quarterBounds mantissa exponent
  let (num, den) := timesPower 2 (exponent - 2) middle 1
  let power := digitsBeforePoint num den - count
  let (num, den) := timesPower 10 (-power) num den
  -- `num / den` is the number in units of the grid, so `num / middle` is one quarter in them.
  let floor := num / den
  let within (candidate : Nat) : Bool :=
    let scaled := candidate * den * middle
    if mantissa % 2 = 0 then num * low ≤ scaled && scaled ≤ num * high
    else num * low < scaled && scaled < num * high
  (choose floor (within floor) (within (floor + 1)) (2 * (num % den)) den).map (·, power)

/-- The fewest digits that read back as a positive finite number, with their power of ten.
Seventeen always suffice. -/
def shortest (mantissa : Nat) (exponent : Int) : Nat × Int :=
  ((List.range 17).findSome? fun count => decimalOfLength? mantissa exponent (count + 1)).getD
    (0, 0)

/-- Digits with the decimal point after the first `point` of them. -/
def positional (digits : List Char) (point : Int) : List Char :=
  if point ≤ 0 then '0' :: '.' :: List.replicate (-point).toNat '0' ++ digits
  else if digits.length ≤ point.toNat then
    digits ++ List.replicate (point.toNat - digits.length) '0' ++ ['.', '0']
  else digits.take point.toNat ++ '.' :: digits.drop point.toNat

/-- Digits with the decimal point after the first one and a signed exponent of at least two
digits. -/
def scientific (digits : List Char) (point : Int) : List Char :=
  let power := (Nat.toDigits 10 (point - 1).natAbs)
  let padded := if power.length < 2 then '0' :: power else power
  let sign := if point - 1 < 0 then '-' else '+'
  digits.take 1 ++ (if digits.length ≤ 1 then [] else '.' :: digits.drop 1) ++ 'e' :: sign :: padded

/-- The decimal text of a number: positional from `0.0001` up to sixteen digits before the point,
with an exponent outside of that. -/
def text : Binary64 → List Char
  | nan => "nan".toList
  | infinite negative => if negative then "-inf".toList else "inf".toList
  | finite negative mantissa exponent =>
    let body :=
      if mantissa = 0 then "0.0".toList
      else
        let (digits, power) := shortest mantissa exponent
        let shown := Nat.toDigits 10 digits
        let point : Int := shown.length + power
        let shown := Text.dropTrailing (· == '0') shown
        if -4 < point ∧ point ≤ 16 then positional shown point else scientific shown point
    if negative then '-' :: body else body

end Binary64
end SurrealSchema
