import LineBasic.Number.Literal
import LineBasic.Number.Style
import LineBasic.Proofs.Number.Magnitude
import LineBasic.Proofs.Token.Scan

/-!
# Written decimals

A decimal that is written as values are, with a point or with an exponent, is read as a decimal of
the same value.  The digits of an exponent count as long as it is small, and the exponents of
shortest decimals are.
-/

namespace LineBasic.Number

open Token (Stops stops_nil stops_cons)

/-- Two decimals have the same value. -/
def Decimal.SameValue (d other : Decimal) : Prop :=
  d.numerator * other.denominator = other.numerator * d.denominator

/-- The exponent of the leading digit. -/
def Decimal.leading (d : Decimal) : Int :=
  d.exponent + (digitChars d.digits).length - 1

theorem Decimal.SameValue.word_eq {d other : Decimal} (hsame : d.SameValue other) :
    d.word = other.word :=
  nearest_eq_of_mul_eq d.denominator_pos other.denominator_pos hsame

/-! ## Digits -/

section Digits

variable {n : Nat} {c : Char} {chars : List Char}

theorem isDigit_of_mem_digitChars (hc : c ∈ digitChars n) : c.isDigit = true :=
  Nat.isDigit_of_mem_toDigits (by decide) (by decide) hc

theorem isDigit_of_mem_zeros {count : Nat} (hc : c ∈ List.replicate count '0') :
    c.isDigit = true := by
  rw [List.eq_of_mem_replicate hc]
  rfl

theorem digitChars_ne_nil (n : Nat) : digitChars n ≠ [] :=
  Nat.toDigits_ne_nil

theorem ofDigits_eq_ofDigitChars (chars : List Char) :
    Decimal.ofDigits chars = Nat.ofDigitChars 10 chars 0 := by
  rw [Decimal.ofDigits, Nat.ofDigitChars_eq_foldl]

theorem ofDigits_append (chars more : List Char) :
    Decimal.ofDigits (chars ++ more) = Nat.ofDigitChars 10 more (Decimal.ofDigits chars) := by
  simp only [ofDigits_eq_ofDigitChars, Nat.ofDigitChars_append]

@[simp]
theorem ofDigits_digitChars (n : Nat) : Decimal.ofDigits (digitChars n) = n := by
  rw [ofDigits_eq_ofDigitChars, digitChars, Nat.ofDigitChars_ten_toDigits]

/-- Zeros in front of digits do not count. -/
theorem ofDigits_zeros_append (count : Nat) (chars : List Char) :
    Decimal.ofDigits (List.replicate count '0' ++ chars) = Decimal.ofDigits chars := by
  simp only [ofDigits_eq_ofDigitChars, Nat.ofDigitChars_append, Nat.ofDigitChars_replicate_zero,
    Nat.mul_zero]

/-- Each zero behind digits counts ten times. -/
theorem ofDigits_append_zeros (chars : List Char) (count : Nat) :
    Decimal.ofDigits (chars ++ List.replicate count '0') = Decimal.ofDigits chars * 10 ^ count := by
  rw [ofDigits_append, Nat.ofDigitChars_replicate_zero, Nat.mul_comm]

/-- The digits of a small exponent all count. -/
theorem exponentOfDigits_eq (hsmall : Decimal.ofDigits chars < 65536) :
    exponentOfDigits chars = Decimal.ofDigits chars := by
  -- by the last digit: what stands in front of it is smaller still, so no digit has been left out
  induction chars using List.reverseRecOn with
  | nil => rfl
  | append_singleton chars c ih =>
    have hdigits : Decimal.ofDigits (chars ++ [c]) =
        10 * Decimal.ofDigits chars + (c.toNat - '0'.toNat) := by
      simp only [Decimal.ofDigits, List.foldl_append, List.foldl_cons, List.foldl_nil]
    have hfront : Decimal.ofDigits chars < 65536 := by omega
    calc
      exponentOfDigits (chars ++ [c]) =
          if exponentOfDigits chars < 65536 then
            10 * exponentOfDigits chars + (c.toNat - '0'.toNat)
          else exponentOfDigits chars := by
        rw [exponentOfDigits, List.foldl_append]
        rfl
      _ = Decimal.ofDigits (chars ++ [c]) := by rw [ih hfront, if_pos hfront, hdigits]

end Digits

/-! ## Forms of decimals -/

section Forms

variable {whole fraction rest : List Char}

/-- Digits, and no point behind them. -/
theorem readDecimal?_append (hwhole : ∀ c ∈ whole, c.isDigit = true) (hne : whole ≠ [])
    (hrest : Stops Char.isDigit rest) (hpoint : Stops (· = '.') rest) :
    readDecimal? (whole ++ rest) =
      (readExponent? rest).map fun exponent => ⟨Decimal.ofDigits whole, exponent⟩ := by
  have hsplit : splitFraction rest = ([], rest) := by
    cases rest with
    | nil => rfl
    | cons c rest =>
      have hc : c ≠ '.' := by simpa [Stops] using hpoint
      simp [splitFraction, hc]
  simp [readDecimal?, hrest.takeWhile_append hwhole, hrest.dropWhile_append hwhole, hsplit, hne]

/-- Digits, a point and digits. -/
theorem readDecimal?_append_point (hwhole : ∀ c ∈ whole, c.isDigit = true) (hne : whole ≠ [])
    (hfraction : ∀ c ∈ fraction, c.isDigit = true) (hrest : Stops Char.isDigit rest) :
    readDecimal? (whole ++ '.' :: (fraction ++ rest)) =
      (readExponent? rest).map fun exponent =>
        ⟨Decimal.ofDigits (whole ++ fraction), exponent - fraction.length⟩ := by
  have hpoint : Stops Char.isDigit ('.' :: (fraction ++ rest)) := stops_cons rfl _
  simp [readDecimal?, hpoint.takeWhile_append hwhole, hpoint.dropWhile_append hwhole,
    splitFraction, hrest.takeWhile_append hfraction, hrest.dropWhile_append hfraction, hne]

/-- Digits have no sign in front of them. -/
theorem splitSign_of_isDigit {chars : List Char} (hdigits : ∀ c ∈ chars, c.isDigit = true) :
    splitSign chars = (false, chars) := by
  cases chars with
  | nil => rfl
  | cons c chars =>
    have hdigit := hdigits c (List.mem_cons_self ..)
    simp only [splitSign]
    split
    · next heq => cases heq; simp at hdigit
    · next heq => cases heq; simp at hdigit
    · rfl

/-- A small exponent is read as it has been written. -/
theorem readExponent?_signedDigits {n : Int} (hsmall : n.natAbs < 65536) :
    readExponent? ('e' :: Style.signedDigits n) = some n := by
  have hread : exponentOfDigits (digitChars n.natAbs) = n.natAbs := by
    rw [exponentOfDigits_eq, ofDigits_digitChars]
    rwa [ofDigits_digitChars]
  have hall : (digitChars n.natAbs).all Char.isDigit = true :=
    List.all_eq_true.mpr fun c => isDigit_of_mem_digitChars
  by_cases hnegative : n < 0
  · simp [readExponent?, Style.signedDigits, hnegative, splitSign, digitChars_ne_nil, hall, hread,
      abs_of_neg hnegative]
  · have hsign := splitSign_of_isDigit fun c => isDigit_of_mem_digitChars (n := n.natAbs)
    simp [readExponent?, Style.signedDigits, hnegative, hsign, digitChars_ne_nil, hall, hread,
      abs_of_nonneg (Int.not_lt.mp hnegative)]

end Forms

/-! ## Signs -/

section Signs

theorem readDecimal?_minus (chars : List Char) : readDecimal? ('-' :: chars) = none := by
  simp [readDecimal?, splitFraction]

theorem readDecimal?_plus (chars : List Char) : readDecimal? ('+' :: chars) = none := by
  simp [readDecimal?, splitFraction]

/-- What is read as a decimal has no sign in front of it, and may get one. -/
theorem splitSign_of_readDecimal? {chars : List Char} {d : Decimal}
    (hread : readDecimal? chars = some d) : splitSign chars = (false, chars) := by
  simp only [splitSign]
  split
  · rw [readDecimal?_minus] at hread
    cases hread
  · rw [readDecimal?_plus] at hread
    cases hread
  · rfl

theorem read?_of_readDecimal? {chars : List Char} {d : Decimal}
    (hread : readDecimal? chars = some d) : read? chars = some (ofWord false d.word) := by
  rw [read?, splitSign_of_readDecimal? hread]
  simp only [hread]

theorem read?_minus_of_readDecimal? {chars : List Char} {d : Decimal}
    (hread : readDecimal? chars = some d) :
    read? ('-' :: chars) = some (ofWord true d.word) := by
  simp only [read?, splitSign, hread]

end Signs

/-! ## Written decimals -/

section Written

variable {d : Decimal}

/-- A whole number is written with a zero behind the point. -/
theorem readDecimal?_positional_of_whole (hwhole : (-d.exponent).toNat = 0) :
    readDecimal? (valueStyle.positional d) =
      some ⟨d.digits * 10 ^ d.exponent.toNat * 10, -1⟩ := by
  have hzeros : ∀ c ∈ digitChars d.digits ++ List.replicate d.exponent.toNat '0',
      c.isDigit = true :=
    List.forall_mem_append.mpr
      ⟨fun _ => isDigit_of_mem_digitChars, fun _ => isDigit_of_mem_zeros⟩
  have hchars : valueStyle.positional d =
      digitChars d.digits ++ List.replicate d.exponent.toNat '0' ++ '.' :: (['0'] ++ []) :=
    if_pos hwhole
  have hdigits : Decimal.ofDigits
      (digitChars d.digits ++ List.replicate d.exponent.toNat '0' ++ List.replicate 1 '0') =
      d.digits * 10 ^ d.exponent.toNat * 10 := by
    rw [ofDigits_append_zeros, ofDigits_append_zeros, ofDigits_digitChars, Nat.pow_one]
  rw [hchars, readDecimal?_append_point hzeros (by simp [digitChars_ne_nil]) (by simp)
    stops_nil]
  rw [readExponent?, Option.map_some, ← hdigits]
  rfl

theorem sameValue_of_whole (hwhole : (-d.exponent).toNat = 0) :
    Decimal.SameValue ⟨d.digits * 10 ^ d.exponent.toNat * 10, -1⟩ d := by
  simp [Decimal.SameValue, Decimal.numerator, Decimal.denominator, hwhole]

/-- A point among the digits stands in front of as many of them as there are places. -/
theorem readDecimal?_positional_of_point {places : Nat} (hexponent : d.exponent = -places)
    (hpos : places ≠ 0) (hinside : places < (digitChars d.digits).length) :
    readDecimal? (valueStyle.positional d) = some d := by
  have hall : ∀ c ∈ digitChars d.digits, c.isDigit = true := fun c => isDigit_of_mem_digitChars
  obtain ⟨whole, hwhole⟩ : ∃ whole, (digitChars d.digits).length - places = whole := ⟨_, rfl⟩
  have hchars : valueStyle.positional d = (digitChars d.digits).take whole ++
      '.' :: ((digitChars d.digits).drop whole ++ []) := by
    simp [Style.positional, hexponent, hpos, hinside, hwhole]
  have hne : (digitChars d.digits).take whole ≠ [] := by
    simp only [ne_eq, List.take_eq_nil_iff, digitChars_ne_nil, or_false]
    omega
  have hlength : ((digitChars d.digits).drop whole).length = places := by
    rw [List.length_drop]
    omega
  rw [hchars, readDecimal?_append_point (fun c hc => hall c (List.mem_of_mem_take hc)) hne
    (fun c hc => hall c (List.mem_of_mem_drop hc)) stops_nil]
  rw [readExponent?, Option.map_some, List.take_append_drop, ofDigits_digitChars, hlength,
    Int.zero_sub, ← hexponent]

/-- A point in front of the digits has zeros around it. -/
theorem readDecimal?_positional_of_zeros {places : Nat} (hexponent : d.exponent = -places)
    (hpos : places ≠ 0) (hfront : ¬ places < (digitChars d.digits).length) :
    readDecimal? (valueStyle.positional d) = some d := by
  obtain ⟨zeros, hzeros⟩ : ∃ zeros, places - (digitChars d.digits).length = zeros := ⟨_, rfl⟩
  have hchars : valueStyle.positional d =
      List.replicate 1 '0' ++ '.' :: (List.replicate zeros '0' ++ digitChars d.digits ++ []) := by
    simp [Style.positional, hexponent, hpos, hfront, hzeros]
  have hall : ∀ c ∈ List.replicate zeros '0' ++ digitChars d.digits, c.isDigit = true :=
    List.forall_mem_append.mpr
      ⟨fun _ => isDigit_of_mem_zeros, fun _ => isDigit_of_mem_digitChars⟩
  have hlength : (List.replicate zeros '0' ++ digitChars d.digits).length = places := by
    rw [List.length_append, List.length_replicate]
    omega
  rw [hchars, readDecimal?_append_point (fun _ => isDigit_of_mem_zeros) (by simp) hall stops_nil]
  rw [readExponent?, Option.map_some, hlength, ofDigits_zeros_append, ofDigits_zeros_append,
    ofDigits_digitChars, Int.zero_sub, ← hexponent]

/-- A number with places behind the point is read as it has been written. -/
theorem readDecimal?_positional_of_fraction (hfraction : (-d.exponent).toNat ≠ 0) :
    readDecimal? (valueStyle.positional d) = some d := by
  have hexponent : d.exponent = -((-d.exponent).toNat : Int) := by omega
  by_cases hinside : (-d.exponent).toNat < (digitChars d.digits).length
  · exact readDecimal?_positional_of_point hexponent hfraction hinside
  · exact readDecimal?_positional_of_zeros hexponent hfraction hinside

/-- A decimal that is written with an exponent is read as itself. -/
theorem readDecimal?_scientific (hsmall : d.leading.natAbs < 65536) :
    readDecimal? (Style.scientific d) = some d := by
  have hall : ∀ c ∈ digitChars d.digits, c.isDigit = true := fun c => isDigit_of_mem_digitChars
  have hread : Decimal.ofDigits (digitChars d.digits) = d.digits := ofDigits_digitChars _
  rw [Decimal.leading] at hsmall
  rw [Style.scientific]
  -- one digit stands alone; of several, the first is in front of a point
  split
  · next hchars => exact absurd hchars (digitChars_ne_nil _)
  · next digit hchars =>
    rw [hchars] at hall hread hsmall
    have hexponent : d.exponent + [digit].length - 1 = d.exponent := by simp
    rw [hexponent] at hsmall
    have happend : digit :: 'e' :: Style.signedDigits d.exponent =
        [digit] ++ 'e' :: Style.signedDigits d.exponent := rfl
    rw [happend, readDecimal?_append hall (by simp) (stops_cons rfl _) (stops_cons rfl _),
      readExponent?_signedDigits hsmall, Option.map_some, hread]
  · next digit digits hmore hchars =>
    rw [hchars] at hall hread hsmall
    have hexponent : d.exponent + (digit :: digits).length - 1 = d.exponent + digits.length := by
      rw [List.length_cons]
      omega
    rw [hexponent] at hsmall
    have happend : digit :: '.' :: digits ++ 'e' :: Style.signedDigits (d.exponent + digits.length)
        = [digit] ++ '.' :: (digits ++ 'e' :: Style.signedDigits (d.exponent + digits.length)) :=
      rfl
    rw [List.forall_mem_cons] at hall
    rw [happend, readDecimal?_append_point (by simpa using hall.1) (by simp) hall.2
      (stops_cons rfl _), readExponent?_signedDigits hsmall, Option.map_some, List.singleton_append,
      hread, Int.add_sub_cancel]

/-- A decimal that is written as values are is read as one of the same value. -/
theorem readDecimal?_decimal (hsmall : d.leading.natAbs < 65536) :
    ∃ read, readDecimal? (valueStyle.decimal d) = some read ∧ read.SameValue d := by
  rw [Style.decimal]
  split
  · by_cases hwhole : (-d.exponent).toNat = 0
    · exact ⟨_, readDecimal?_positional_of_whole hwhole, sameValue_of_whole hwhole⟩
    · exact ⟨d, readDecimal?_positional_of_fraction hwhole, rfl⟩
  · exact ⟨d, readDecimal?_scientific hsmall, rfl⟩

end Written

end LineBasic.Number
