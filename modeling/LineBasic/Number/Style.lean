import LineBasic.Number.Binary64
import LineBasic.Number.Shortest

/-!
# Styles of written numbers

A number is written with the digits of its shortest decimal.  A style says which numbers are
written positionally, and what follows a whole number.  There are two: `valueStyle` for values,
which keeps a point in every positional number and turns to exponents for very large and very small
numbers, and `literalStyle` for literals in listings, which never writes an exponent.
-/

namespace LineBasic.Number

/-- The decisions that differ between the ways of writing a number. -/
structure Style where
  /-- Whether a number is written positionally, by the exponent of its leading digit. -/
  isPositional : Int → Bool
  /-- What follows a whole number that is written positionally. -/
  wholeEnd : List Char

/-- Values have a point or an exponent: positional from `10 ^ (-4)` up to `10 ^ 16`. -/
def valueStyle : Style :=
  ⟨fun leading => -4 ≤ leading && leading < 16, ['.', '0']⟩

/-- Literals in listings are positional and end with their last digit. -/
def literalStyle : Style :=
  ⟨fun _ => true, []⟩

/-- The decimal digits of a natural number. -/
def digitChars (n : Nat) : List Char :=
  Nat.toDigits 10 n

namespace Style

/-- A decimal without an exponent. -/
def positional (style : Style) (d : Decimal) : List Char :=
  let digits := digitChars d.digits
  let places := (-d.exponent).toNat
  if places = 0 then
    digits ++ List.replicate d.exponent.toNat '0' ++ style.wholeEnd
  else if places < digits.length then
    digits.take (digits.length - places) ++ '.' :: digits.drop (digits.length - places)
  else
    '0' :: '.' :: List.replicate (places - digits.length) '0' ++ digits

/-- An integer with a minus sign if it is negative. -/
def signedDigits (n : Int) : List Char :=
  if n < 0 then '-' :: digitChars n.natAbs else digitChars n.natAbs

/-- A decimal as its leading digit, the digits behind the point, and an exponent. -/
def scientific (d : Decimal) : List Char :=
  match digitChars d.digits with
  | [] => []
  | [digit] => digit :: 'e' :: signedDigits d.exponent
  | digit :: digits =>
    digit :: '.' :: digits ++ 'e' :: signedDigits (d.exponent + digits.length)

/-- A decimal in the style. -/
def decimal (style : Style) (d : Decimal) : List Char :=
  if style.isPositional (d.exponent + (digitChars d.digits).length - 1) then
    style.positional d
  else
    scientific d

/-- A magnitude in the style. -/
def magnitude (style : Style) (word : Nat) : List Char :=
  if word = infinityWord then ['i', 'n', 'f'] else style.decimal (shortest word)

/-- The characters of a number in the style.  What is not a number has no sign. -/
def chars (style : Style) (x : Float) : List Char :=
  let word := Number.magnitude x
  if infinityWord < word then ['N', 'a', 'N']
  else if isNegative x then '-' :: style.magnitude word
  else style.magnitude word

/-- A number in the style. -/
def write (style : Style) (x : Float) : String :=
  String.ofList (style.chars x)

end Style

end LineBasic.Number
