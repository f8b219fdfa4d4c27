import LineBasic.Proofs.Number.Decimal
import LineBasic.Proofs.Number.Order
import LineBasic.Proofs.Number.Shortest

/-!
# Numbers read back

Every number is read back from what is written of it as a value: the shortest decimal is nearest to
no other magnitude, the sign is in front of it, and infinity and what is not a number have names of
their own.  The exponent that is written is far from the bound behind which digits do not count.
-/

namespace LineBasic.Number

/-! ## Sizes of shortest decimals -/

section Sizes

variable {word : Nat}

theorem length_digitChars_le {n k : Nat} (hpos : 0 < k) (hlt : n < 2 ^ k) :
    (digitChars n).length ≤ k := by
  apply (Nat.length_toDigits_le_iff (by decide) hpos).mpr
  calc
    n < 2 ^ k := hlt
    _ ≤ 10 ^ k := Nat.pow_le_pow_left (by decide) k

theorem significand_lt (word : Nat) : significand word < 2 ^ 53 := by
  have hmod : word % hiddenBit < hiddenBit := Nat.mod_lt word hiddenBit_pos
  rw [significand]
  split
  · next hzero =>
    have hlt : word < hiddenBit := (Nat.div_eq_zero_iff_lt hiddenBit_pos).mp hzero
    rw [hiddenBit_eq] at hlt
    omega
  · rw [hiddenBit_eq] at hmod ⊢
    omega

theorem units_lt (word : Nat) : units word < 2 ^ (53 + scale word) := by
  rw [units_eq, Nat.pow_add]
  exact Nat.mul_lt_mul_of_pos_right (significand_lt word) (Nat.two_pow_pos _)

theorem scale_le (hfinite : word ≤ infinityWord) : scale word ≤ 2046 := by
  have hdiv : word / hiddenBit ≤ infinityWord / hiddenBit := Nat.div_le_div_right hfinite
  have hinfinity : infinityWord / hiddenBit = 2047 := Nat.mul_div_cancel _ hiddenBit_pos
  rw [scale]
  omega

/-- On a grid, the decimal has no more digits than the magnitude scaled to the grid. -/
theorem digits_le_of_find?_neighbours {exponent : Int} {d : Decimal}
    (hfind : (neighbours word exponent).find? (readsBack word) = some d) :
    d.digits ≤ units word * 10 ^ (-exponent).toNat + 1 := by
  have hmem := List.mem_of_find?_eq_some hfind
  simp only [neighbours, Nat.pow_eq] at hmem
  have hle := Nat.div_le_self (units word * 10 ^ (-exponent).toNat)
    (unitsInOne * 10 ^ exponent.toNat)
  split at hmem
  all_goals
    simp only [List.mem_cons, List.not_mem_nil, or_false] at hmem
    obtain rfl | rfl := hmem
    all_goals
      dsimp only
      omega

theorem length_digits_of_find?_neighbours {exponent : Int} {d : Decimal}
    (hfind : (neighbours word exponent).find? (readsBack word) = some d) :
    (digitChars d.digits).length ≤ 54 + scale word + 4 * (-exponent).toNat := by
  have hdigits := digits_le_of_find?_neighbours hfind
  have hten : 10 ^ (-exponent).toNat ≤ 2 ^ (4 * (-exponent).toNat) := by
    rw [Nat.pow_mul]
    exact Nat.pow_le_pow_left (by decide) _
  have hscaled : units word * 10 ^ (-exponent).toNat <
      2 ^ (53 + scale word + 4 * (-exponent).toNat) := by
    rw [Nat.pow_add _ (53 + scale word)]
    exact Nat.mul_lt_mul_of_lt_of_le (units_lt word) hten (Nat.two_pow_pos _)
  apply length_digitChars_le (by omega)
  calc
    d.digits ≤ units word * 10 ^ (-exponent).toNat + 1 := hdigits
    _ ≤ 2 ^ (53 + scale word + 4 * (-exponent).toNat) := hscaled
    _ < 2 ^ (54 + scale word + 4 * (-exponent).toNat) :=
      Nat.pow_lt_pow_right (by decide) (by omega)

theorem length_digits_exactDecimal (word : Nat) :
    (digitChars (exactDecimal word).digits).length ≤ 53 + scale word + 3 * 1074 := by
  obtain ⟨most, hmost⟩ : ∃ most, most = 1074 := ⟨_, rfl⟩
  have hfive : 5 ^ (most - scale word) ≤ 2 ^ (3 * (most - scale word)) := by
    rw [Nat.pow_mul]
    exact Nat.pow_le_pow_left (by decide) _
  apply length_digitChars_le (by omega)
  rw [exactDecimal, ← hmost]
  calc
    significand word * 2 ^ (scale word - most) * 5 ^ (most - scale word)
      < 2 ^ 53 * 2 ^ (scale word - most) * 2 ^ (3 * (most - scale word)) :=
        Nat.mul_lt_mul_of_lt_of_le
          (Nat.mul_lt_mul_of_pos_right (significand_lt word) (Nat.two_pow_pos _)) hfive
          (Nat.two_pow_pos _)
    _ = 2 ^ (53 + (scale word - most) + 3 * (most - scale word)) := by
      rw [Nat.pow_add, Nat.pow_add]
    _ ≤ 2 ^ (53 + scale word + 3 * most) := Nat.pow_le_pow_right (by decide) (by omega)

/-- The exponent of the leading digit of a shortest decimal is small. -/
theorem natAbs_leading_shortest_lt (hfinite : word ≤ infinityWord) :
    (shortest word).leading.natAbs < 65536 := by
  have hscale := scale_le hfinite
  -- the bounds on lengths are crude, and still far below 65536
  by_cases hzero : word = 0
  · rw [hzero, shortest_zero]
    decide
  · obtain ⟨hexact, -⟩ | ⟨finer, hfiner, hfind, -⟩ := shortest_cases hzero
    · have hlength := length_digits_exactDecimal word
      have hexponent : (exactDecimal word).exponent = -((1074 - scale word : Nat) : Int) := rfl
      rw [Decimal.leading, hexact, hexponent]
      omega
    · have hlength := length_digits_of_find?_neighbours hfind
      have hexponent := exponent_of_find?_neighbours hfind
      have hlog := log2_units_le word
      have hcoarsest : coarsestExponent word =
          ((units word).log2 - 1074 : Int) * 30103 / 100000 + 2 := rfl
      rw [Decimal.leading]
      omega

end Sizes

/-! ## Words of numbers -/

/-- A number is its sign and its magnitude. -/
theorem ofWord_isNegative_magnitude {x : Float} (hnumber : magnitude x ≤ infinityWord) :
    ofWord (isNegative x) (magnitude x) = x := by
  apply Float.toBits_inj.mp
  apply UInt64.toNat_inj.mp
  have hlt : x.toBits.toNat < 2 ^ 64 := x.toBits.toNat_lt
  rw [toNat_toBits_ofWord _ hnumber, isNegative, magnitude]
  by_cases hsign : signBit ≤ x.toBits.toNat
  · simp only [hsign, decide_true, if_true]
    rw [signBit_eq] at *
    omega
  · simp only [hsign, decide_false, Bool.false_eq_true, if_false]
    rw [signBit_eq] at *
    omega

/-- There is one value that is not a number. -/
theorem eq_notANumber {x : Float} (hnan : infinityWord < magnitude x) : x = notANumber := by
  have hnotANumber : notANumber.isNaN = true := by decide +kernel
  have hx : x.isNaN = true := isNaN_iff.mpr hnan
  rw [Float.isNaN_eq_decide_eq_nan, decide_eq_true_iff] at hx hnotANumber
  rw [hx, hnotANumber]

/-! ## Reading back -/

/-- A magnitude with a sign is read back. -/
theorem read?_magnitude (negative : Bool) {word : Nat} (hnumber : word ≤ infinityWord) :
    read? (if negative then '-' :: valueStyle.magnitude word else valueStyle.magnitude word) =
      some (ofWord negative word) := by
  rw [Style.magnitude]
  by_cases hinfinity : word = infinityWord
  · rw [if_pos hinfinity, hinfinity]
    cases negative <;> rfl
  · -- what is read need not be the shortest decimal, but it has the same value
    obtain ⟨read, hread, hsame⟩ := readDecimal?_decimal (natAbs_leading_shortest_lt hnumber)
    have hword : read.word = word := hsame.word_eq.trans (word_shortest hnumber)
    rw [if_neg hinfinity]
    cases negative with
    | false => rw [if_neg Bool.false_ne_true, read?_of_readDecimal? hread, hword]
    | true => rw [if_pos rfl, read?_minus_of_readDecimal? hread, hword]

/-- Every number is read back from what is written of it as a value. -/
theorem read?_chars_valueStyle (x : Float) : read? (valueStyle.chars x) = some x := by
  rw [Style.chars]
  by_cases hnan : infinityWord < magnitude x
  · rw [if_pos hnan, eq_notANumber hnan]
    rfl
  · rw [if_neg hnan, read?_magnitude _ (Nat.le_of_not_lt hnan),
      ofWord_isNegative_magnitude (Nat.le_of_not_lt hnan)]

end LineBasic.Number
