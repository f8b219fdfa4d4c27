import LineBasic.Number.Shortest
import LineBasic.Proofs.Number.Magnitude

/-!
# Shortest decimals read back

The shortest decimal of a finite magnitude reads back as the magnitude.  If the magnitude is a
natural number then so is its shortest decimal: the grid of the natural numbers is reached before
any finer one, or lies behind all of the grids, and then no digits are behind the point.
-/

namespace LineBasic.Number

section Decimals

variable {word : Nat}

/-- A decimal that is exactly a magnitude reads back as it. -/
theorem word_eq_of_units {d : Decimal} (hfinite : word ≤ infinityWord)
    (hexact : d.numerator * unitsInOne = units word * d.denominator) : d.word = word :=
  nearest_eq_of_units d.denominator_pos hfinite hexact

theorem word_exactDecimal (hfinite : word ≤ infinityWord) : (exactDecimal word).word = word := by
  obtain ⟨most, hmost⟩ : ∃ most, most = 1074 := ⟨_, rfl⟩
  apply word_eq_of_units hfinite
  simp only [exactDecimal, Decimal.numerator, Decimal.denominator, units_eq, Nat.pow_eq,
    unitsInOne_eq hmost, ← hmost, Int.neg_neg, Int.toNat_natCast]
  generalize significand word = q
  generalize scale word = shift
  have hzero : (-((most - shift : Nat) : Int)).toNat = 0 := by omega
  have hten : 10 ^ (most - shift) = 2 ^ (most - shift) * 5 ^ (most - shift) := by
    rw [← Nat.mul_pow]
  have htwo : 2 ^ (shift - most) * 2 ^ most = 2 ^ shift * 2 ^ (most - shift) := by
    rw [← Nat.pow_add, ← Nat.pow_add]
    congr 1
    omega
  rw [hzero, hten]
  calc
    q * 2 ^ (shift - most) * 5 ^ (most - shift) * 10 ^ 0 * 2 ^ most =
        q * (2 ^ (shift - most) * 2 ^ most) * 5 ^ (most - shift) := by
      rw [Nat.pow_zero, Nat.mul_one]
      ac_rfl
    _ = q * 2 ^ shift * (2 ^ (most - shift) * 5 ^ (most - shift)) := by
      rw [htwo]
      ac_rfl

/-- A decimal found on a grid reads back. -/
theorem word_of_find?_neighbours {exponent : Int} {d : Decimal}
    (hfind : (neighbours word exponent).find? (readsBack word) = some d) : d.word = word := by
  have hreads := List.find?_some hfind
  simpa [readsBack] using hreads

theorem exponent_of_find?_neighbours {exponent : Int} {d : Decimal}
    (hfind : (neighbours word exponent).find? (readsBack word) = some d) :
    d.exponent = exponent := by
  have hmem := List.mem_of_find?_eq_some hfind
  simp only [neighbours] at hmem
  split at hmem
  all_goals
    simp only [List.mem_cons, List.not_mem_nil, or_false] at hmem
    obtain rfl | rfl := hmem <;> rfl

/-- The shortest decimal is on the coarsest of twenty grids with one that reads back, and without
such a grid it is exact. -/
theorem shortest_cases (hzero : word ≠ 0) :
    (shortest word = exactDecimal word ∧ ∀ finer : Nat, finer < 20 →
      (neighbours word (coarsestExponent word - finer)).find? (readsBack word) = none) ∨
    ∃ finer : Nat, finer < 20 ∧
      (neighbours word (coarsestExponent word - finer)).find? (readsBack word) =
        some (shortest word) ∧
      ∀ coarser : Nat, coarser < finer →
        (neighbours word (coarsestExponent word - coarser)).find? (readsBack word) = none := by
  rw [shortest, if_neg hzero]
  cases hfound : (List.range 20).findSome? fun finer : Nat =>
      (neighbours word (coarsestExponent word - (finer : Int))).find? (readsBack word) with
  | none =>
    refine .inl ⟨rfl, fun finer hfiner => ?_⟩
    exact List.findSome?_eq_none_iff.mp hfound finer (List.mem_range.mpr hfiner)
  | some d =>
    obtain ⟨before, finer, after, hrange, hfind, hbefore⟩ := List.findSome?_eq_some_iff.mp hfound
    have hmem : finer ∈ List.range 20 := by simp [hrange]
    have hfiner := List.mem_range.mp hmem
    refine .inr ⟨finer, hfiner, hfind, fun coarser hcoarser => hbefore coarser ?_⟩
    have hsorted : (List.range 20).Pairwise (· < ·) := List.pairwise_lt_range
    have hmem : coarser ∈ List.range 20 := List.mem_range.mpr (Nat.lt_trans hcoarser hfiner)
    rw [hrange] at hsorted hmem
    have hbehind := (List.pairwise_cons.mp (List.pairwise_append.mp hsorted).2.1).1 coarser
    obtain hmem | hmem := List.mem_append.mp hmem
    · exact hmem
    · obtain rfl | hmem := List.mem_cons.mp hmem
      · exact absurd hcoarser (Nat.lt_irrefl _)
      · exact absurd (hbehind hmem) (Nat.not_lt_of_gt hcoarser)

theorem shortest_zero : shortest 0 = ⟨0, 0⟩ := by
  rw [shortest, if_pos rfl]

/-- The shortest decimal reads back. -/
theorem word_shortest (hfinite : word ≤ infinityWord) : (shortest word).word = word := by
  by_cases hzero : word = 0
  · subst hzero
    rw [shortest_zero]
    apply word_eq_of_units hfinite
    rw [units_of_lt hiddenBit_pos, Decimal.numerator, Nat.zero_mul, Nat.zero_mul, Nat.zero_mul]
  · obtain ⟨hexact, -⟩ | ⟨finer, -, hfind, -⟩ := shortest_cases hzero
    · rw [hexact]
      exact word_exactDecimal hfinite
    · exact word_of_find?_neighbours hfind

end Decimals

/-! ## Natural numbers -/

section Whole

variable {word : Nat}

/-- On the grid of the natural numbers, a natural number is its own neighbour. -/
theorem find?_neighbours_zero (hwhole : IsWhole word) (hfinite : word ≤ infinityWord) :
    (neighbours word 0).find? (readsBack word) = some ⟨units word / unitsInOne, 0⟩ := by
  have hmod : units word % unitsInOne = 0 := Nat.mod_eq_zero_of_dvd hwhole
  have hreads : readsBack word ⟨units word / unitsInOne, 0⟩ = true := by
    rw [readsBack, beq_iff_eq]
    apply word_eq_of_units hfinite
    simp [Decimal.numerator, Decimal.denominator, Nat.div_mul_cancel hwhole]
  simp only [neighbours, Nat.pow_eq, Int.neg_zero, Int.toNat_zero, Nat.pow_zero, Nat.mul_one, hmod,
    Nat.mul_zero, unitsInOne_pos, if_true]
  rw [List.find?_cons_of_pos hreads]

/-- The shortest decimal of a natural number is a natural number. -/
theorem exponent_shortest_nonneg (hwhole : IsWhole word) (hfinite : word ≤ infinityWord) :
    0 ≤ (shortest word).exponent := by
  by_cases hzero : word = 0
  · rw [hzero, shortest_zero]
  · have hlog := le_log2_units hwhole hzero
    have hscale := log2_units_le word
    have hcoarsest : coarsestExponent word =
        ((units word).log2 - 1074 : Int) * 30103 / 100000 + 2 := rfl
    obtain ⟨whole, hgrid⟩ : ∃ whole : Nat, coarsestExponent word - whole = 0 :=
      ⟨(coarsestExponent word).toNat, by omega⟩
    have hneighbour := find?_neighbours_zero hwhole hfinite
    rw [← hgrid] at hneighbour
    -- the grid of the natural numbers is among the first twenty, or all of them are coarser
    obtain ⟨hexact, hnone⟩ | ⟨finer, hfiner, hfind, hnone⟩ := shortest_cases hzero
    · have hbehind : ¬ whole < 20 := by
        intro hwhole
        rw [hnone whole hwhole] at hneighbour
        cases hneighbour
      rw [hexact]
      simp only [exactDecimal]
      omega
    · have hbehind : ¬ whole < finer := by
        intro hcoarser
        rw [hnone whole hcoarser] at hneighbour
        cases hneighbour
      rw [exponent_of_find?_neighbours hfind]
      omega

end Whole

end LineBasic.Number
