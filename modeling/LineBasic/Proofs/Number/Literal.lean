import LineBasic.Proofs.Number.Binary64
import LineBasic.Proofs.Number.Decimal
import LineBasic.Proofs.Number.Shortest

/-!
# Literals of natural numbers

Digits spell a number that is a natural number, or infinity if there are very many of them.  As a
literal in a listing, a natural number is written with digits alone, and they spell it again.
-/

namespace LineBasic.Number

open Token (stops_nil)

/-- The number is finite. -/
def IsFinite (x : Float) : Prop :=
  magnitude x < infinityWord

/-- The number is a natural number. -/
def IsNatural (x : Float) : Prop :=
  ∃ word, word < infinityWord ∧ IsWhole word ∧ x = ofWord false word

/-! ## Reading digits -/

section Reading

variable {chars : List Char}

theorem readDecimal?_digits (hdigits : ∀ c ∈ chars, c.isDigit = true) (hne : chars ≠ []) :
    readDecimal? chars = some ⟨Decimal.ofDigits chars, 0⟩ := by
  have hread : readDecimal? (chars ++ []) = some ⟨Decimal.ofDigits chars, 0⟩ :=
    readDecimal?_append hdigits hne stops_nil stops_nil
  rwa [List.append_nil] at hread

/-- Digits spell the natural number that is nearest to what they say. -/
theorem read?_digits (hdigits : ∀ c ∈ chars, c.isDigit = true) (hne : chars ≠ []) :
    read? chars = some (ofWord false (nearest (Decimal.ofDigits chars) 1)) := by
  rw [read?_of_readDecimal? (readDecimal?_digits hdigits hne)]
  simp [Decimal.word, Decimal.numerator, Decimal.denominator]

/-- What digits spell is a natural number if it is finite. -/
theorem isNatural_of_read?_digits {x : Float} (hdigits : ∀ c ∈ chars, c.isDigit = true)
    (hne : chars ≠ []) (hread : read? chars = some x) (hfinite : IsFinite x) : IsNatural x := by
  rw [read?_digits hdigits hne] at hread
  cases hread
  rw [IsFinite, magnitude_ofWord _ (nearest_le_infinityWord _ _)] at hfinite
  exact ⟨_, hfinite, isWhole_nearest hfinite, rfl⟩

end Reading

/-! ## Writing digits -/

section Writing

variable {x : Float}

theorem chars_literalStyle_ofWord {word : Nat} (hfinite : word < infinityWord) :
    literalStyle.chars (ofWord false word) = literalStyle.positional (shortest word) := by
  have hle := Nat.le_of_lt hfinite
  simp only [Style.chars, magnitude_ofWord _ hle, isNegative_ofWord _ hle]
  rw [if_neg (by omega), if_neg Bool.false_ne_true, Style.magnitude, if_neg (by omega)]
  rfl

/-- The literal of a natural number: its digits, and as many zeros as its shortest decimal has
places in front of the point. -/
theorem IsNatural.chars_literalStyle (hnatural : IsNatural x) :
    ∃ n places, literalStyle.chars x = digitChars n ++ List.replicate places '0' ∧
      x = ofWord false (nearest (n * 10 ^ places) 1) := by
  obtain ⟨word, hfinite, hwhole, rfl⟩ := hnatural
  have hle := Nat.le_of_lt hfinite
  have hexponent := exponent_shortest_nonneg hwhole hle
  have hplaces : (-(shortest word).exponent).toNat = 0 := by omega
  refine ⟨(shortest word).digits, (shortest word).exponent.toNat, ?_, ?_⟩
  · rw [chars_literalStyle_ofWord hfinite, Style.positional]
    simp [hplaces, literalStyle]
  · have hword := word_shortest hle
    simp only [Decimal.word, Decimal.numerator, Decimal.denominator, hplaces, Nat.pow_eq,
      Nat.pow_zero] at hword
    rw [hword]

/-- A natural number is listed with digits. -/
theorem IsNatural.isDigit_of_mem (hnatural : IsNatural x) {c : Char}
    (hmem : c ∈ literalStyle.chars x) : c.isDigit = true := by
  obtain ⟨n, places, hchars, -⟩ := hnatural.chars_literalStyle
  rw [hchars] at hmem
  obtain hmem | hmem := List.mem_append.mp hmem
  · exact isDigit_of_mem_digitChars hmem
  · exact isDigit_of_mem_zeros hmem

theorem IsNatural.chars_ne_nil (hnatural : IsNatural x) : literalStyle.chars x ≠ [] := by
  obtain ⟨n, places, hchars, -⟩ := hnatural.chars_literalStyle
  simp [hchars, digitChars_ne_nil]

/-- A natural number that has been listed is read back. -/
theorem IsNatural.read?_chars (hnatural : IsNatural x) :
    read? (literalStyle.chars x) = some x := by
  rw [read?_digits (fun c => hnatural.isDigit_of_mem) hnatural.chars_ne_nil]
  obtain ⟨n, places, hchars, hx⟩ := hnatural.chars_literalStyle
  rw [hchars, ofDigits_append_zeros, ofDigits_digitChars, ← hx]

end Writing

end LineBasic.Number
