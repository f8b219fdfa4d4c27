import LineBasic.Number.Magnitude

/-!
# Shortest decimals

The shortest decimal of a finite magnitude is found on grids of powers of ten, the coarsest first.
On each grid only the two neighbours of the magnitude can be nearest to it; the first grid on which
one of them reads back as the magnitude has the fewest digits, and of two that read back the nearer
one is taken, the upper one if both are equally near.
-/

namespace LineBasic.Number

/-- The decimal reads back as the magnitude of the word. -/
def readsBack (word : Nat) (d : Decimal) : Bool :=
  d.word == word

/-- The two neighbours of a magnitude among the multiples of `10 ^ exponent`, the nearer first. -/
def neighbours (word : Nat) (exponent : Int) : List Decimal :=
  let numerator := units word * Nat.pow 10 (-exponent).toNat
  let denominator := unitsInOne * Nat.pow 10 exponent.toNat
  let below := numerator / denominator
  if 2 * (numerator % denominator) < denominator then
    [⟨below, exponent⟩, ⟨below + 1, exponent⟩]
  else
    [⟨below + 1, exponent⟩, ⟨below, exponent⟩]

/-- An exponent of ten whose power exceeds the magnitude: 0.30103 is the decimal logarithm of two,
rounded up. -/
def coarsestExponent (word : Nat) : Int :=
  ((units word).log2 - 1074 : Int) * 30103 / 100000 + 2

/-- The magnitude itself as a decimal, with as many digits as it takes. -/
def exactDecimal (word : Nat) : Decimal :=
  ⟨significand word * Nat.pow 2 (scale word - 1074) * Nat.pow 5 (1074 - scale word),
    -((1074 - scale word : Nat) : Int)⟩

/-- The decimal with the fewest digits that reads back as the magnitude.  Seventeen digits are
always enough, and twenty grids hold all decimals of up to seventeen digits near the magnitude. -/
def shortest (word : Nat) : Decimal :=
  if word = 0 then ⟨0, 0⟩
  else
    ((List.range 20).findSome? fun finer : Nat =>
      (neighbours word (coarsestExponent word - (finer : Int))).find? (readsBack word)).getD
    (exactDecimal word)

end LineBasic.Number
