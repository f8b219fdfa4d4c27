import Mathlib
import LineBasic.Proofs.Number.Binary64
import LineBasic.Proofs.Number.Magnitude

/-!
# The order of numbers

Numbers are ordered by their words: those without a sign as their magnitudes are, those with one the
other way round, and the two zeros stand at one place.  What is not a number stands nowhere, and no
comparison holds of it.  So the comparisons of numbers are those of integers.
-/

namespace LineBasic.Number

open Float.Model (Format UnpackedFloat)
open Float.Model.UnpackedFloat (Sign unpackExponent unpackMantissa unpackSign)

/-- A magnitude with a sign, as an integer. -/
def signed (negative : Bool) (word : Nat) : Int :=
  if negative then -word else word

/-- The place of a number in the order of numbers. -/
def rank (x : Float) : Int :=
  signed (isNegative x) (magnitude x)

/-- The order of two numbers, if both are numbers. -/
def order? (x y : Float) : Option Ordering :=
  if x.isNaN ∨ y.isNaN then none else some (compare (rank x) (rank y))

/-! ## Words that are unpacked -/

/-- The sign of a number in its unpacked form. -/
def signOf (negative : Bool) : Sign :=
  if negative then .negative else .positive

/-- What the word of a magnitude and a sign are unpacked to. -/
inductive Unpacks (negative : Bool) (word : Nat) : UnpackedFloat → Prop where
  | notANumber (hword : infinityWord < word) : Unpacks negative word .notANumber
  | infinity (hword : word = infinityWord) : Unpacks negative word (.infinity (signOf negative))
  | zero (hword : word = 0) : Unpacks negative word (.zero (signOf negative))
  | finite {digits : Nat} {exponent : Int} (hzero : 0 < word) (hfinite : word < infinityWord)
      (hpos : 0 < digits) (hdigits : digits = significand word)
      (hexponent : exponent = scale word - 1074) :
      Unpacks negative word (.finite (signOf negative) digits exponent hpos)

theorem toNat_unpackSign (bits : BitVec Format.binary64.numBits) :
    (unpackSign bits).toNat = bits.toNat / 2 ^ 63 % 2 := by
  simp [unpackSign, Nat.shiftRight_eq_div_pow]

theorem ofBitVec_unpackSign (bits : BitVec Format.binary64.numBits) :
    Sign.ofBitVec (unpackSign bits) = signOf (decide (signBit ≤ bits.toNat)) := by
  have hlt : bits.toNat < 2 ^ 64 := bits.isLt
  have hsign : unpackSign bits = 0#1 ↔ ¬ signBit ≤ bits.toNat := by
    rw [← BitVec.toNat_inj, toNat_unpackSign, signBit_eq]
    simp
    omega
  by_cases hle : signBit ≤ bits.toNat
  · simp [Sign.ofBitVec, signOf, hsign, hle]
  · simp [Sign.ofBitVec, signOf, hsign, hle]

/-- The exponent and the fraction are the digits of a magnitude to the base of the hidden bit. -/
theorem mod_signBit_eq (bits : BitVec Format.binary64.numBits) :
    bits.toNat % signBit =
      (unpackExponent bits).toNat * hiddenBit + (unpackMantissa bits).toNat := by
  rw [toNat_unpackExponent, toNat_unpackMantissa, signBit_eq, hiddenBit_eq]
  omega

theorem significand_add (exponent : Nat) {fraction : Nat} (hfraction : fraction < hiddenBit) :
    significand (exponent * hiddenBit + fraction) =
      if exponent = 0 then fraction else hiddenBit + fraction := by
  rw [significand, Nat.add_comm, Nat.add_mul_div_right _ _ hiddenBit_pos,
    Nat.div_eq_of_lt hfraction, Nat.zero_add, Nat.add_mul_mod_self_right,
    Nat.mod_eq_of_lt hfraction]
  split
  · next hzero => rw [hzero, Nat.zero_mul, Nat.add_zero]
  · rfl

theorem scale_add (exponent : Nat) {fraction : Nat} (hfraction : fraction < hiddenBit) :
    scale (exponent * hiddenBit + fraction) = exponent - 1 := by
  rw [scale, Nat.add_comm, Nat.add_mul_div_right _ _ hiddenBit_pos, Nat.div_eq_of_lt hfraction,
    Nat.zero_add]

theorem toNat_one_append (fraction : BitVec 52) :
    (1#1 ++ fraction).toNat = hiddenBit + fraction.toNat := by
  rw [BitVec.toNat_append, ← Nat.shiftLeft_add_eq_or_of_lt fraction.isLt]
  rfl

theorem unpacks_unpack (bits : BitVec Format.binary64.numBits) :
    Unpacks (decide (signBit ≤ bits.toNat)) (bits.toNat % signBit)
      (UnpackedFloat.unpack .binary64 bits) := by
  have hmost : (-1#11).toNat = 0x7FF := rfl
  have hinfinity : infinityWord = 0x7FF * hiddenBit := rfl
  have hbias : (Format.binary64.exponentBias : Int) = 1023 := rfl
  have hexponent : (unpackExponent bits).toNat < 2048 := (unpackExponent bits).isLt
  have hfraction : (unpackMantissa bits).toNat < hiddenBit := (unpackMantissa bits).isLt
  have hdigits := significand_add (unpackExponent bits).toNat hfraction
  have hscale := scale_add (unpackExponent bits).toNat hfraction
  rw [mod_signBit_eq]
  simp only [UnpackedFloat.unpack, ofBitVec_unpackSign, ← BitVec.toNat_inj, toNat_one_append,
    hmost, BitVec.toNat_zero]
  simp only [hiddenBit_eq] at *
  split
  · split
    · exact .infinity (by omega)
    · exact .notANumber (by omega)
  · split
    · next hleast =>
      split
      · exact .zero (by omega)
      · apply Unpacks.finite
        · omega
        · omega
        · rw [hdigits, if_pos hleast]
        · rw [hscale, hbias]
          omega
    · next hleast =>
      apply Unpacks.finite
      · omega
      · omega
      · rw [hdigits, if_neg hleast]
      · rw [hscale, hbias]
        omega

/-! ## The order of words -/

/-- Words are ordered by their scales, and on one scale by their significands. -/
theorem scale_significand_lt {word other : Nat} (hlt : word < other) :
    scale word < scale other ∨ scale word = scale other ∧ significand word < significand other := by
  simp only [scale, significand]
  split_ifs <;> simp only [hiddenBit_eq] at * <;> omega

theorem compare_scale_significand (word other : Nat) :
    (compare ((scale word : Int) - 1074) (scale other - 1074)).then
      (compare (significand word) (significand other)) = compare word other := by
  rcases Nat.lt_trichotomy word other with hlt | rfl | hgt
  · rw [compare_lt_iff_lt.mpr hlt, Ordering.then_eq_lt, compare_lt_iff_lt, compare_lt_iff_lt,
      compare_eq_iff_eq]
    have hfields := scale_significand_lt hlt
    omega
  · simp
  · rw [compare_gt_iff_gt.mpr hgt, Ordering.then_eq_gt, compare_gt_iff_gt, compare_gt_iff_gt,
      compare_eq_iff_eq]
    have hfields := scale_significand_lt hgt
    omega

/-- Magnitudes with signs are ordered by their signs first, unless both are zero. -/
theorem compare_signed {word other : Nat} (hpos : 0 < word ∨ 0 < other)
    (negative otherNegative : Bool) :
    compare (signed negative word) (signed otherNegative other) =
      match negative, otherNegative with
      | false, false => compare word other
      | true, true => (compare word other).swap
      | true, false => .lt
      | false, true => .gt := by
  have hascending : StrictMono fun n : Nat => (n : Int) := Nat.strictMono_cast
  have hdescending : StrictAnti fun n : Nat => -(n : Int) := hascending.neg
  simp only [← cmp_eq_compare]
  match negative, otherNegative with
  | false, false => exact hascending.cmp_map_eq word other
  | true, true =>
    rw [cmp_swap]
    exact hdescending.cmp_map_eq word other
  | true, false =>
    apply (cmp_eq_lt_iff _ _).mpr
    change -(word : Int) < other
    omega
  | false, true =>
    apply (cmp_eq_gt_iff _ _).mpr
    change -(other : Int) < word
    omega

/-- Unpacked numbers are compared as their magnitudes with signs are. -/
theorem Unpacks.compare_eq {negative otherNegative : Bool} {word other : Nat} {u v : UnpackedFloat}
    (hu : Unpacks negative word u) (hv : Unpacks otherNegative other v) :
    u.compare v = if infinityWord < word ∨ infinityWord < other then none
      else some (compare (signed negative word) (signed otherNegative other)) := by
  have hinfinity : 0 < infinityWord := by decide
  cases hu <;> cases hv
  case notANumber.notANumber hword _ | notANumber.infinity hword _ | notANumber.zero hword _
      | notANumber.finite hword _ _ _ _ _ _ _ =>
    rw [if_pos (.inl hword), UnpackedFloat.compare]
  case infinity.notANumber hother | zero.notANumber hother | finite.notANumber hother =>
    rw [if_pos (.inr hother)]
    rfl
  case zero.zero hword hother =>
    rw [if_neg (by omega), hword, hother]
    cases negative <;> cases otherNegative <;> rfl
  case infinity.infinity hword hother =>
    have hcompare : compare word other = .eq := compare_eq_iff_eq.mpr (hword.trans hother.symm)
    rw [if_neg (by omega), compare_signed (by omega), hcompare]
    cases negative <;> cases otherNegative <;> rfl
  case infinity.zero | infinity.finite | finite.zero =>
    have hcompare : compare word other = .gt := compare_gt_iff_gt.mpr (by omega)
    rw [if_neg (by omega), compare_signed (by omega), hcompare]
    cases negative <;> cases otherNegative <;> rfl
  case zero.infinity | finite.infinity | zero.finite =>
    have hcompare : compare word other = .lt := compare_lt_iff_lt.mpr (by omega)
    rw [if_neg (by omega), compare_signed (by omega), hcompare]
    cases negative <;> cases otherNegative <;> rfl
  case finite.finite hdigits hexponent _ _ _ _ _ hdigits' hexponent' =>
    rw [if_neg (by omega), compare_signed (by omega), ← compare_scale_significand, ← hdigits,
      ← hdigits', ← hexponent, ← hexponent']
    cases negative <;> cases otherNegative <;> rfl

/-! ## Comparisons of numbers -/

variable {x y z : Float}

theorem unpacks_toModel (x : Float) : Unpacks (isNegative x) (magnitude x) x.toModel.unpack :=
  unpacks_unpack x.toBits.toBitVec

theorem isNaN_iff : x.isNaN = true ↔ infinityWord < magnitude x := by
  have hunpacks := unpacks_toModel x
  have hinfinity : 0 < infinityWord := by decide
  change x.toModel.unpack.isNaN = true ↔ infinityWord < magnitude x
  generalize x.toModel.unpack = u at hunpacks
  cases hunpacks with
  | notANumber hword => simp [UnpackedFloat.isNaN, hword]
  | infinity | zero | finite =>
    simp only [UnpackedFloat.isNaN, Bool.false_eq_true, false_iff]
    omega

theorem compare_toModel (x y : Float) : x.toModel.compare y.toModel = order? x y := by
  simp only [order?, isNaN_iff]
  exact (unpacks_toModel x).compare_eq (unpacks_toModel y)

theorem lt_iff : x < y ↔ order? x y = some .lt := by
  rw [← compare_toModel]
  change decide ((x.toModel.compare y.toModel == some .lt) = true) = true ↔ _
  rw [decide_eq_true_eq, beq_iff_eq]

theorem beq_iff : (x == y) = true ↔ order? x y = some .eq := by
  rw [← compare_toModel]
  change (x.toModel.compare y.toModel == some .eq) = true ↔ _
  rw [beq_iff_eq]

theorem order?_eq_none_iff : order? x y = none ↔ x.isNaN = true ∨ y.isNaN = true := by
  rw [order?]
  split <;> simp_all

theorem order?_swap (x y : Float) : order? y x = (order? x y).map Ordering.swap := by
  rw [order?, order?, ← cmp_eq_compare, ← cmp_eq_compare, ← cmp_swap]
  simp only [or_comm]
  split <;> rfl

theorem gt_iff : x > y ↔ order? x y = some .gt := by
  rw [gt_iff_lt, lt_iff, order?_swap]
  cases order? x y with
  | none => simp
  | some order => simp [Ordering.swap_eq_iff_eq_swap]

theorem order?_trans (hxy : order? x y = some .lt) (hyz : order? y z = some .lt) :
    order? x z = some .lt := by
  have hx : ¬ (x.isNaN = true ∨ y.isNaN = true) := by
    rw [← order?_eq_none_iff, hxy]
    simp
  have hz : ¬ (y.isNaN = true ∨ z.isNaN = true) := by
    rw [← order?_eq_none_iff, hyz]
    simp
  rw [order?, if_neg hx, Option.some_inj, compare_lt_iff_lt] at hxy
  rw [order?, if_neg hz, Option.some_inj, compare_lt_iff_lt] at hyz
  rw [order?, if_neg (by tauto), compare_lt_iff_lt.mpr (hxy.trans hyz)]

end LineBasic.Number
