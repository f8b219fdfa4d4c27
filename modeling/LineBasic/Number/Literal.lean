import LineBasic.Number.Binary64

/-!
# Literals of numbers

A literal is an optional sign, then either one of the words `inf`, `infinity` and `nan` in any mix
of cases, or decimal digits with at most one point among them and an optional exponent.  At least
one digit stands on a side of the point, and at least one in the exponent.  Nothing else is allowed
around it.  The number read is the one nearest to what the literal says.
-/

namespace LineBasic.Number

/-- The sign at the front of a literal, and what follows it. -/
def splitSign : List Char → Bool × List Char
  | '-' :: rest => (true, rest)
  | '+' :: rest => (false, rest)
  | chars => (false, chars)

/-- The number that the digits of an exponent spell.  Digits count while the number is below
65536; an exponent that large is out of the range of all numbers. -/
def exponentOfDigits (chars : List Char) : Nat :=
  chars.foldl (fun value c => if value < 65536 then 10 * value + (c.toNat - '0'.toNat) else value) 0

/-- The exponent at the end of a literal: nothing, or a mark and a signed run of digits. -/
def readExponent? : List Char → Option Int
  | [] => some 0
  | mark :: chars =>
    let (negative, digits) := splitSign chars
    if (mark = 'e' ∨ mark = 'E') ∧ digits ≠ [] ∧ digits.all Char.isDigit then
      some (if negative then -(exponentOfDigits digits : Int) else exponentOfDigits digits)
    else none

/-- The digits behind a point, and what follows them. -/
def splitFraction : List Char → List Char × List Char
  | '.' :: chars => (chars.takeWhile Char.isDigit, chars.dropWhile Char.isDigit)
  | chars => ([], chars)

/-- The decimal that an unsigned literal of digits spells. -/
def readDecimal? (chars : List Char) : Option Decimal :=
  let whole := chars.takeWhile Char.isDigit
  let (fraction, rest) := splitFraction (chars.dropWhile Char.isDigit)
  if whole = [] ∧ fraction = [] then none
  else
    (readExponent? rest).map fun exponent =>
      ⟨Decimal.ofDigits (whole ++ fraction), exponent - fraction.length⟩

/-- The number that a literal spells. -/
def read? (chars : List Char) : Option Float :=
  let (negative, unsigned) := splitSign chars
  match readDecimal? unsigned with
  | some d => some (ofWord negative d.word)
  | none =>
    let name := unsigned.map Char.toLower
    if name = "inf".toList ∨ name = "infinity".toList then some (ofWord negative infinityWord)
    else if name = "nan".toList then some notANumber
    else none

end LineBasic.Number
