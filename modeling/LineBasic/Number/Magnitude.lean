import LineBasic.Number.Decimal

/-!
# Magnitudes of binary64 numbers

The magnitude of a binary64 number is its word without the sign bit, a natural number.  Words are
ordered as the magnitudes they stand for: the words below `infinityWord` are the finite magnitudes
in ascending order, `infinityWord` is infinity, and the words above it are not numbers.

Every finite magnitude is a natural number of the smallest positive magnitude `2 ^ (-1074)`, so
rounding to the nearest magnitude is a division of natural numbers.
-/

namespace LineBasic.Number

/-- The weight of the bit that a normal significand has in front of its fraction, and the distance
between the words of one and twice a normal magnitude. -/
def hiddenBit : Nat := Nat.pow 2 52

/-- The word of infinity. -/
def infinityWord : Nat := 0x7FF * hiddenBit

/-- How many of the smallest positive magnitude make one. -/
def unitsInOne : Nat := Nat.pow 2 1074

/-- The significand of a finite word: its fraction, with the hidden bit of a normal number. -/
def significand (word : Nat) : Nat :=
  if word / hiddenBit = 0 then word else hiddenBit + word % hiddenBit

/-- The binary exponent of a finite word, counted from that of the smallest positive magnitude. -/
def scale (word : Nat) : Nat :=
  word / hiddenBit - 1

/-- The magnitude of a finite word, in units of `2 ^ (-1074)`. -/
def units (word : Nat) : Nat :=
  significand word * Nat.pow 2 (scale word)

/-- The natural number nearest to a quotient; of two equally near ones, the even one. -/
def roundHalfEven (numerator denominator : Nat) : Nat :=
  let whole := numerator / denominator
  let twice := 2 * (numerator % denominator)
  if twice < denominator then whole
  else if twice = denominator then whole + whole % 2
  else whole + 1

/-- The word whose magnitude is nearest to a quotient; of two equally near ones, the one with the
even significand.  A quotient beyond the largest finite magnitude rounds as if the exponents went
on, and then counts as infinity. -/
def nearest (numerator denominator : Nat) : Nat :=
  let scaled := numerator * unitsInOne
  let shift := (scaled / denominator).log2 - 52
  min (roundHalfEven scaled (denominator * Nat.pow 2 shift) + shift * hiddenBit) infinityWord

/-- The word nearest to a decimal. -/
def Decimal.word (d : Decimal) : Nat :=
  nearest d.numerator d.denominator

theorem nearest_le_infinityWord (numerator denominator : Nat) :
    nearest numerator denominator ≤ infinityWord :=
  Nat.min_le_right _ _

end LineBasic.Number
