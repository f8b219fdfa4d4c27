/-!
# Decimals

A decimal is a natural number of digits scaled by a power of ten.  Its value is the quotient of
two natural numbers, so every comparison with another quotient is exact.
-/

namespace LineBasic.Number

/-- The number `digits * 10 ^ exponent`. -/
structure Decimal where
  digits : Nat
  exponent : Int
deriving DecidableEq, Repr, Inhabited

namespace Decimal

/-- The numerator of the decimal's value. -/
def numerator (d : Decimal) : Nat :=
  d.digits * Nat.pow 10 d.exponent.toNat

/-- The denominator of the decimal's value. -/
def denominator (d : Decimal) : Nat :=
  Nat.pow 10 (-d.exponent).toNat

theorem denominator_pos (d : Decimal) : 0 < d.denominator :=
  Nat.pow_pos (by decide)

/-- The number that a run of decimal digits spells. -/
def ofDigits (chars : List Char) : Nat :=
  chars.foldl (fun value c => 10 * value + (c.toNat - '0'.toNat)) 0

end Decimal

end LineBasic.Number
