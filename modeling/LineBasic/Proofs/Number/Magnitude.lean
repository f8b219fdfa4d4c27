import Mathlib
import LineBasic.Number.Magnitude

/-!
# Magnitudes that are met exactly

A quotient that is a finite magnitude rounds to it.  A natural number rounds to a magnitude that is
a natural number too, since the magnitudes around a large number are far apart.
-/

namespace LineBasic.Number

theorem hiddenBit_eq : hiddenBit = 2 ^ 52 := rfl

theorem hiddenBit_pos : 0 < hiddenBit :=
  Nat.two_pow_pos 52

/-- The exponent has a name, so that the power is not computed. -/
theorem unitsInOne_eq {n : Nat} (hn : n = 1074) : unitsInOne = 2 ^ n := by
  delta unitsInOne
  rw [← hn]
  rfl

theorem unitsInOne_pos : 0 < unitsInOne := by
  obtain ⟨most, hmost⟩ : ∃ most, most = 1074 := ⟨_, rfl⟩
  rw [unitsInOne_eq hmost]
  exact Nat.two_pow_pos most

/-- The magnitude of a finite word is a natural number. -/
def IsWhole (word : Nat) : Prop :=
  unitsInOne ∣ units word

/-! ## Units -/

section Units

variable {word : Nat}

theorem units_eq (word : Nat) : units word = significand word * 2 ^ scale word := rfl

/-- The words below the hidden bit count units. -/
theorem units_of_lt (hsubnormal : word < hiddenBit) : units word = word := by
  have hdiv : word / hiddenBit = 0 := Nat.div_eq_of_lt hsubnormal
  rw [units_eq, significand, scale, if_pos hdiv, hdiv]
  simp

theorem add_mul_div_hiddenBit {q shift : Nat} (hlow : hiddenBit ≤ q)
    (hhigh : q < 2 * hiddenBit) : (q + shift * hiddenBit) / hiddenBit = shift + 1 := by
  have hone : q / hiddenBit = 1 := Nat.div_eq_of_lt_le (by omega) (by omega)
  rw [Nat.add_mul_div_right _ _ hiddenBit_pos, hone, Nat.add_comm]

/-- A significand with its hidden bit, and the scale in the word above it. -/
theorem units_add_mul {q shift : Nat} (hlow : hiddenBit ≤ q) (hhigh : q < 2 * hiddenBit) :
    units (q + shift * hiddenBit) = q * 2 ^ shift := by
  have hdiv : (q + shift * hiddenBit) / hiddenBit = shift + 1 := add_mul_div_hiddenBit hlow hhigh
  have hmod : (q + shift * hiddenBit) % hiddenBit = q - hiddenBit := by
    rw [Nat.add_mul_mod_self_right, Nat.mod_eq_sub_mod hlow, Nat.mod_eq_of_lt (by omega)]
  rw [units_eq, significand, scale, hdiv, hmod, if_neg (Nat.succ_ne_zero shift),
    Nat.add_sub_cancel, Nat.add_sub_cancel' hlow]

/-- A significand that has been rounded up to the next power of two. -/
theorem units_add_mul_of_le {q shift : Nat} (hlow : hiddenBit ≤ q) (hhigh : q ≤ 2 * hiddenBit) :
    units (q + shift * hiddenBit) = q * 2 ^ shift := by
  obtain hlt | rfl := Nat.lt_or_eq_of_le hhigh
  · exact units_add_mul hlow hlt
  · have hnext : 2 * hiddenBit + shift * hiddenBit = hiddenBit + (shift + 1) * hiddenBit := by
      rw [Nat.add_mul]
      omega
    rw [hnext, units_add_mul (Nat.le_refl _) (by have := hiddenBit_pos; omega), Nat.pow_succ]
    rw [Nat.mul_comm 2, Nat.mul_assoc, Nat.mul_comm 2]

/-- A word is below the hidden bit, or has a significand with the hidden bit. -/
theorem lt_hiddenBit_or_eq_add_mul (word : Nat) :
    word < hiddenBit ∨ ∃ q shift, hiddenBit ≤ q ∧ q < 2 * hiddenBit ∧
      word = q + shift * hiddenBit := by
  by_cases hlt : word < hiddenBit
  · exact .inl hlt
  · refine .inr ⟨hiddenBit + word % hiddenBit, word / hiddenBit - 1, by omega, ?_, ?_⟩
    · have hmod := Nat.mod_lt word hiddenBit_pos
      omega
    · have hdiv := Nat.div_add_mod word hiddenBit
      have hone : 1 ≤ word / hiddenBit := (Nat.le_div_iff_mul_le hiddenBit_pos).mpr (by omega)
      rw [Nat.sub_mul, Nat.mul_comm]
      have hle : hiddenBit ≤ hiddenBit * (word / hiddenBit) := Nat.le_mul_of_pos_right _ hone
      omega

theorem log2_mul_two_pow {q shift : Nat} (hlow : hiddenBit ≤ q) (hhigh : q < 2 * hiddenBit) :
    (q * 2 ^ shift).log2 = 52 + shift := by
  rw [hiddenBit_eq] at hlow hhigh
  have hpow : 0 < 2 ^ shift := Nat.two_pow_pos shift
  rw [Nat.log2_eq_iff (Nat.mul_ne_zero (by omega) (by omega))]
  constructor
  · rw [Nat.pow_add]
    exact Nat.mul_le_mul_right _ hlow
  · rw [Nat.add_right_comm, Nat.pow_add]
    exact Nat.mul_lt_mul_of_pos_right (by omega) hpow

theorem log2_le_of_lt {word : Nat} (hlt : word < hiddenBit) : word.log2 ≤ 52 := by
  by_cases hzero : word = 0
  · simp [hzero]
  · exact Nat.le_of_lt ((Nat.log2_lt hzero).mpr hlt)

theorem log2_units_le (word : Nat) : (units word).log2 ≤ 52 + scale word := by
  obtain hlt | ⟨q, shift, hlow, hhigh, rfl⟩ := lt_hiddenBit_or_eq_add_mul word
  · rw [units_of_lt hlt]
    exact Nat.le_trans (log2_le_of_lt hlt) (Nat.le_add_right _ _)
  · have hlog : (units (q + shift * hiddenBit)).log2 = 52 + scale (q + shift * hiddenBit) := by
      rw [units_add_mul hlow hhigh, log2_mul_two_pow hlow hhigh, scale,
        add_mul_div_hiddenBit hlow hhigh, Nat.add_sub_cancel]
    exact Nat.le_of_eq hlog

theorem units_ne_zero {word : Nat} (hzero : word ≠ 0) : units word ≠ 0 := by
  obtain hlt | ⟨q, shift, hlow, hhigh, rfl⟩ := lt_hiddenBit_or_eq_add_mul word
  · rwa [units_of_lt hlt]
  · have hpos := hiddenBit_pos
    rw [units_add_mul hlow hhigh]
    exact Nat.mul_ne_zero (by omega) (Nat.ne_of_gt (Nat.two_pow_pos shift))

/-- A natural number other than zero is not smaller than one. -/
theorem le_log2_units {word : Nat} (hwhole : IsWhole word) (hzero : word ≠ 0) :
    1074 ≤ (units word).log2 := by
  obtain ⟨most, hmost⟩ : ∃ most, most = 1074 := ⟨_, rfl⟩
  have hle := Nat.le_of_dvd (Nat.pos_of_ne_zero (units_ne_zero hzero)) hwhole
  rw [unitsInOne_eq hmost] at hle
  rw [← hmost]
  exact (Nat.le_log2 (units_ne_zero hzero)).mpr hle

end Units

/-! ## Rounding -/

/-- A quotient without a remainder is not rounded. -/
theorem roundHalfEven_mul (q : Nat) {denominator : Nat} (hpos : 0 < denominator) :
    roundHalfEven (q * denominator) denominator = q := by
  rw [roundHalfEven, Nat.mul_div_cancel _ hpos, Nat.mul_mod_left]
  simp [hpos]

theorem roundHalfEven_le (numerator denominator : Nat) :
    roundHalfEven numerator denominator ≤ numerator / denominator + 1 := by
  simp only [roundHalfEven]
  split
  · omega
  · split <;> omega

theorem le_roundHalfEven (numerator denominator : Nat) :
    numerator / denominator ≤ roundHalfEven numerator denominator := by
  simp only [roundHalfEven]
  split
  · omega
  · split <;> omega

theorem roundHalfEven_mul_right (numerator denominator : Nat) {k : Nat} (hpos : 0 < k) :
    roundHalfEven (numerator * k) (denominator * k) = roundHalfEven numerator denominator := by
  simp only [roundHalfEven, Nat.mul_div_mul_right _ _ hpos, Nat.mul_mod_mul_right,
    ← Nat.mul_assoc, Nat.mul_lt_mul_right hpos, Nat.mul_right_cancel_iff hpos]

theorem nearest_mul_right (numerator denominator : Nat) {k : Nat} (hpos : 0 < k) :
    nearest (numerator * k) (denominator * k) = nearest numerator denominator := by
  simp only [nearest, Nat.pow_eq, Nat.mul_right_comm _ k, Nat.mul_div_mul_right _ _ hpos,
    roundHalfEven_mul_right _ _ hpos]

/-- Equal quotients have one nearest word. -/
theorem nearest_eq_of_mul_eq {numerator denominator other otherDenominator : Nat}
    (hpos : 0 < denominator) (hother : 0 < otherDenominator)
    (hequal : numerator * otherDenominator = other * denominator) :
    nearest numerator denominator = nearest other otherDenominator := by
  calc
    nearest numerator denominator =
        nearest (numerator * otherDenominator) (denominator * otherDenominator) :=
      (nearest_mul_right _ _ hother).symm
    _ = nearest (other * denominator) (otherDenominator * denominator) := by
      rw [hequal, Nat.mul_comm denominator]
    _ = nearest other otherDenominator := nearest_mul_right _ _ hpos

/-- A finite magnitude is nearest to itself. -/
theorem nearest_eq_of_units {word numerator denominator : Nat} (hpos : 0 < denominator)
    (hfinite : word ≤ infinityWord)
    (hexact : numerator * unitsInOne = units word * denominator) :
    nearest numerator denominator = word := by
  simp only [nearest, Nat.pow_eq, hexact, Nat.mul_div_cancel _ hpos]
  obtain hlt | ⟨q, shift, hlow, hhigh, rfl⟩ := lt_hiddenBit_or_eq_add_mul word
  · have hlog : word.log2 - 52 = 0 := Nat.sub_eq_zero_of_le (log2_le_of_lt hlt)
    rw [units_of_lt hlt, hlog, Nat.pow_zero, Nat.mul_one, roundHalfEven_mul _ hpos]
    omega
  · rw [units_add_mul hlow hhigh, log2_mul_two_pow hlow hhigh, Nat.add_sub_cancel_left]
    have hmul : q * 2 ^ shift * denominator = q * (denominator * 2 ^ shift) := by
      rw [Nat.mul_assoc, Nat.mul_comm (2 ^ shift)]
    rw [hmul, roundHalfEven_mul _ (Nat.mul_pos hpos (Nat.two_pow_pos shift))]
    omega

/-- The quotient that is rounded has as many binary digits as a significand. -/
theorem div_two_pow_log2 {n : Nat} (hlog : 52 ≤ n.log2) :
    hiddenBit ≤ n / 2 ^ (n.log2 - 52) ∧ n / 2 ^ (n.log2 - 52) < 2 * hiddenBit := by
  have hpos : 0 < 2 ^ (n.log2 - 52) := Nat.two_pow_pos _
  have hne : n ≠ 0 := by
    rintro rfl
    simp at hlog
  have hlow : 2 ^ n.log2 ≤ n := Nat.log2_self_le hne
  have hhigh : n < 2 ^ (n.log2 + 1) := Nat.lt_log2_self
  have hsplit : 2 ^ n.log2 = hiddenBit * 2 ^ (n.log2 - 52) := by
    rw [hiddenBit_eq, ← Nat.pow_add]
    congr 1
    omega
  rw [Nat.pow_succ, hsplit] at hhigh
  rw [hsplit] at hlow
  constructor
  · exact (Nat.le_div_iff_mul_le hpos).mpr hlow
  · rw [Nat.div_lt_iff_lt_mul hpos, Nat.mul_comm 2, Nat.mul_right_comm]
    exact hhigh

/-- A natural number rounds to a natural number. -/
theorem isWhole_nearest {n : Nat} (hfinite : nearest n 1 < infinityWord) :
    IsWhole (nearest n 1) := by
  obtain ⟨most, hmost⟩ : ∃ most, most = 1074 := ⟨_, rfl⟩
  have hunits : unitsInOne = 2 ^ most := unitsInOne_eq hmost
  by_cases hzero : n = 0
  · have hword : nearest n 1 = 0 := by
      apply nearest_eq_of_units Nat.one_pos (Nat.zero_le _)
      rw [hzero, units_of_lt hiddenBit_pos, Nat.zero_mul, Nat.zero_mul]
    rw [IsWhole, hword, units_of_lt hiddenBit_pos]
    exact Nat.dvd_zero _
  · have hlog : most ≤ (n * 2 ^ most).log2 := by
      rw [Nat.le_log2 (Nat.mul_ne_zero hzero (Nat.ne_of_gt (Nat.two_pow_pos most)))]
      exact Nat.le_mul_of_pos_left _ (Nat.pos_of_ne_zero hzero)
    obtain ⟨hlow, hhigh⟩ := div_two_pow_log2 (by omega : 52 ≤ (n * 2 ^ most).log2)
    simp only [nearest, Nat.pow_eq, hunits, Nat.div_one, Nat.one_mul] at hfinite ⊢
    generalize (n * 2 ^ most).log2 - 52 = shift at *
    have hge := le_roundHalfEven (n * 2 ^ most) (2 ^ shift)
    have hle := roundHalfEven_le (n * 2 ^ most) (2 ^ shift)
    rw [Nat.min_eq_left (by omega), IsWhole, hunits, units_add_mul_of_le (by omega) (by omega)]
    by_cases hshift : most ≤ shift
    · exact Nat.dvd_mul_left_of_dvd (Nat.pow_dvd_pow 2 hshift) _
    · have hexact : n * 2 ^ most = n * 2 ^ (most - shift) * 2 ^ shift := by
        rw [Nat.mul_assoc, ← Nat.pow_add, Nat.sub_add_cancel (by omega)]
      rw [hexact, roundHalfEven_mul _ (Nat.two_pow_pos shift), ← hexact]
      exact Nat.dvd_mul_left _ _

end LineBasic.Number
