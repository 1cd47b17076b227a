namespace SurrealSchema

/-!
# Binary floating-point numbers

The 64-bit binary format by the values it has, and rounding a ratio of natural numbers to it.
All arithmetic is exact arithmetic on natural numbers.
-/

/-- A 64-bit binary floating-point number.  A finite one is the mantissa times two to the exponent;
the exponent is the least possible one, -1074, or the mantissa has 53 bits. -/
inductive Binary64 where
  | nan
  | infinite (negative : Bool)
  | finite (negative : Bool) (mantissa : Nat) (exponent : Int)
  deriving DecidableEq, Repr

namespace Binary64

/-- The ratio `num / den` times a power of an integer base, as a ratio. -/
def timesPower (base : Nat) (power : Int) (num den : Nat) : Nat × Nat :=
  if 0 ≤ power then (num * Nat.pow base power.toNat, den)
  else (num, den * Nat.pow base (-power).toNat)

/-- The quotient rounded to the nearest natural number, a half to the even neighbour. -/
def roundHalfEven (num den : Nat) : Nat :=
  let floor := num / den
  let twice := 2 * (num % den)
  if twice < den then floor
  else if den < twice then floor + 1
  else floor + floor % 2

/-- The exponent at which the integer part of `num / den` has 53 bits, or the least possible one. -/
def exponentOf (num den : Nat) : Int :=
  let low : Int := max (-1074) (num.log2 - den.log2 - 53)
  let (num', den') := timesPower 2 (-low) num den
  if num' / den' < Nat.pow 2 53 then low else low + 1

/-- The number nearest to `num / den`, a half going to the even mantissa; too large a ratio gives
an infinity. -/
def nearest (negative : Bool) (num den : Nat) : Binary64 :=
  if num = 0 then finite negative 0 (-1074)
  else
    let exponent := exponentOf num den
    let (num', den') := timesPower 2 (-exponent) num den
    let mantissa := roundHalfEven num' den'
    let (mantissa, exponent) :=
      if mantissa = Nat.pow 2 53 then (Nat.pow 2 52, exponent + 1) else (mantissa, exponent)
    if 971 < exponent then infinite negative else finite negative mantissa exponent

/-- The number nearest to a ratio of an integer. -/
def ofInt (n : Int) : Binary64 :=
  nearest (n < 0) n.natAbs 1

/-- Whether the number is zero, of either sign. -/
def isZero : Binary64 → Bool
  | finite _ mantissa _ => mantissa == 0
  | _ => false

/-- Equality of values: the two zeros are equal and no number equals a number that is none. -/
def sameValue (x y : Binary64) : Bool :=
  x != nan && (x == y || (x.isZero && y.isZero))

/-- The value of a finite number as a ratio of an integer and a positive natural number. -/
def ratio? : Binary64 → Option (Int × Nat)
  | finite negative mantissa exponent =>
    let (num, den) := timesPower 2 exponent mantissa 1
    some (if negative then -(num : Int) else num, den)
  | _ => none

/-- The order of values; a number that is none is below nothing and above nothing. -/
def below (x y : Binary64) : Bool :=
  match x, y with
  | nan, _ => false
  | _, nan => false
  | infinite negative, infinite negative' => negative && !negative'
  | infinite negative, finite .. => negative
  | finite .., infinite negative => !negative
  | finite n m e, finite n' m' e' =>
    match ratio? (finite n m e), ratio? (finite n' m' e') with
    | some (num, den), some (num', den') => num * den' < num' * den
    | _, _ => false

end Binary64
end SurrealSchema
