import LineBasic.Number.Magnitude

/-!
# Sign and magnitude of a number

A binary64 number is a sign and the word of a magnitude.
-/

namespace LineBasic.Number

/-- The weight of the sign bit in the word of a number. -/
def signBit : Nat := Nat.pow 2 63

/-- The number with the given sign and magnitude. -/
def ofWord (negative : Bool) (word : Nat) : Float :=
  Float.ofBits (UInt64.ofNat (word + if negative then signBit else 0))

/-- The sign bit of a number. -/
def isNegative (x : Float) : Bool :=
  signBit ≤ x.toBits.toNat

/-- The magnitude of a number. -/
def magnitude (x : Float) : Nat :=
  x.toBits.toNat % signBit

/-- The value that is not a number. -/
def notANumber : Float :=
  Float.ofBits 0x7FF8000000000000

end LineBasic.Number
