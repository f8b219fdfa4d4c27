import Mathlib
import LineBasic.Number.Binary64
import LineBasic.Number.Magnitude

/-!
# The words of numbers

A number is its word: the number with a sign and a magnitude has that sign and that magnitude, as
long as the magnitude is not beyond infinity.  The one thing that is not kept is which of the words
beyond infinity has been used for what is not a number.
-/

namespace LineBasic.Number

open Float.Model (Format)
open Float.Model.UnpackedFloat

/-! ## Packed numbers -/

section Packed

variable {bits : BitVec Format.binary64.numBits}

theorem toNat_unpackExponent (bits : BitVec Format.binary64.numBits) :
    (unpackExponent bits).toNat = bits.toNat / 2 ^ 52 % 2 ^ 11 := by
  simp [unpackExponent, Nat.shiftRight_eq_div_pow]

theorem toNat_unpackMantissa (bits : BitVec Format.binary64.numBits) :
    (unpackMantissa bits).toNat = bits.toNat % 2 ^ 52 := by
  simp [unpackMantissa]

/-- The words of numbers are those with magnitudes up to infinity. -/
theorem isNaNBits_eq_false (hnumber : bits.toNat % signBit ≤ infinityWord) :
    @isNaNBits .binary64 bits = false := by
  rw [isNaNBits, decide_eq_false_iff_not]
  rintro ⟨hexponent, hmantissa⟩
  have hexponent := congrArg BitVec.toNat hexponent
  rw [toNat_unpackExponent] at hexponent
  apply hmantissa
  apply BitVec.eq_of_toNat_eq
  rw [toNat_unpackMantissa]
  simp [signBit, infinityWord, hiddenBit] at *
  omega

end Packed

/-! ## Words -/

theorem toBits_ofBits {bits : UInt64} (hnumber : bits.toNat % signBit ≤ infinityWord) :
    (Float.ofBits bits).toBits = bits := by
  rw [← UInt64.toNat_toBitVec] at hnumber
  have hpack := @pack_unpack .binary64 bits.toBitVec (by decide)
  rw [isNaNBits_eq_false hnumber, if_neg Bool.false_ne_true] at hpack
  exact congrArg UInt64.ofBitVec hpack

variable {word : Nat}

theorem signBit_eq : signBit = 2 ^ 63 := rfl

theorem infinityWord_lt_signBit : infinityWord < signBit := by
  decide

theorem toNat_toBits_ofWord (negative : Bool) (hnumber : word ≤ infinityWord) :
    (ofWord negative word).toBits.toNat = word + if negative then signBit else 0 := by
  have hinfinity := infinityWord_lt_signBit
  have hword : word < signBit := by omega
  have hsize : word + (if negative then signBit else 0) < 2 ^ 64 := by
    rw [signBit_eq] at *
    split <;> omega
  have htoNat : (UInt64.ofNat (word + if negative then signBit else 0)).toNat =
      word + if negative then signBit else 0 :=
    UInt64.toNat_ofNat_of_lt hsize
  rw [ofWord, toBits_ofBits, htoNat]
  rw [htoNat]
  cases negative <;> simpa [Nat.mod_eq_of_lt hword] using hnumber

theorem magnitude_ofWord (negative : Bool) (hnumber : word ≤ infinityWord) :
    magnitude (ofWord negative word) = word := by
  have hword : word < signBit := Nat.lt_of_le_of_lt hnumber infinityWord_lt_signBit
  rw [magnitude, toNat_toBits_ofWord negative hnumber]
  cases negative <;> simp [Nat.mod_eq_of_lt hword]

theorem isNegative_ofWord (negative : Bool) (hnumber : word ≤ infinityWord) :
    isNegative (ofWord negative word) = negative := by
  have hword : word < signBit := Nat.lt_of_le_of_lt hnumber infinityWord_lt_signBit
  rw [isNegative, toNat_toBits_ofWord negative hnumber]
  cases negative <;> simp [hword]

end LineBasic.Number
