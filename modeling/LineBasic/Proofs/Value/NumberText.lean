import LineBasic.Proofs.Number.RoundTrip
import LineBasic.Proofs.Value.Evaluation
import LineBasic.Proofs.Value.Refusal

/-!
# Numbers as texts

What is written of a number is a text that spells the number.  So a number may be joined to a text
and taken out of it again, numbers are the same if and only if the same is written of them, and the
text does for the number wherever a number is asked for.
-/

namespace LineBasic

/-! ## Blanks -/

namespace Text

theorem isBlank_of_isDigit {c : Char} (hdigit : c.isDigit = true) : isBlank c = false := by
  obtain ⟨hlow, hhigh⟩ := Char.isDigit_iff_toNat.mp hdigit
  simp only [Char.reduceToNat] at hlow hhigh
  simp only [isBlank, inRanges, blankRanges, List.any_cons, List.any_nil, Bool.or_false,
    Bool.or_eq_false_iff, Bool.and_eq_false_iff, decide_eq_false_iff_not]
  omega

/-- A text without blanks is not trimmed. -/
theorem trim_eq_self {chars : List Char} (hchars : ∀ c ∈ chars, isBlank c = false) :
    trim chars = chars := by
  have hdrop (chars : List Char) (hchars : ∀ c ∈ chars, isBlank c = false) :
      chars.dropWhile isBlank = chars := by
    cases chars with
    | nil => rfl
    | cons c chars => rw [List.dropWhile_cons_of_neg (by simp [hchars c])]
  rw [trim, hdrop chars hchars, hdrop chars.reverse (by simpa using hchars), List.reverse_reverse]

end Text

namespace Number

open Text (isBlank)

variable {n : Nat} {d : Decimal}

theorem isBlank_of_all {chars : List Char} (hall : (chars.all fun c => !isBlank c) = true) :
    ∀ c ∈ chars, isBlank c = false := by
  simpa using hall

theorem isBlank_of_mem_digitChars : ∀ c ∈ digitChars n, isBlank c = false :=
  fun _ hc => Text.isBlank_of_isDigit (isDigit_of_mem_digitChars hc)

theorem isBlank_of_mem_zeros {count : Nat} : ∀ c ∈ List.replicate count '0', isBlank c = false :=
  fun _ hc => Text.isBlank_of_isDigit (isDigit_of_mem_zeros hc)

theorem isBlank_of_mem_signedDigits {n : Int} : ∀ c ∈ Style.signedDigits n, isBlank c = false := by
  rw [Style.signedDigits]
  split
  · exact List.forall_mem_cons.mpr ⟨by decide, isBlank_of_mem_digitChars⟩
  · exact isBlank_of_mem_digitChars

theorem isBlank_of_mem_positional : ∀ c ∈ valueStyle.positional d, isBlank c = false := by
  have hdigits : ∀ c ∈ digitChars d.digits, isBlank c = false := isBlank_of_mem_digitChars
  simp only [Style.positional]
  split
  · refine List.forall_mem_append.mpr ⟨List.forall_mem_append.mpr ⟨hdigits, ?_⟩, ?_⟩
    · exact isBlank_of_mem_zeros
    · exact isBlank_of_all (by decide)
  · split
    · refine List.forall_mem_append.mpr ⟨?_, List.forall_mem_cons.mpr ⟨by decide, ?_⟩⟩
      · exact fun c hc => hdigits c (List.mem_of_mem_take hc)
      · exact fun c hc => hdigits c (List.mem_of_mem_drop hc)
    · refine List.forall_mem_append.mpr ⟨?_, hdigits⟩
      exact List.forall_mem_cons.mpr ⟨by decide,
        List.forall_mem_cons.mpr ⟨by decide, isBlank_of_mem_zeros⟩⟩

theorem isBlank_of_mem_scientific : ∀ c ∈ Style.scientific d, isBlank c = false := by
  have hdigits : ∀ c ∈ digitChars d.digits, isBlank c = false := isBlank_of_mem_digitChars
  rw [Style.scientific]
  split
  · simp
  · next digit hchars =>
    rw [hchars] at hdigits
    exact List.forall_mem_append.mpr ⟨hdigits,
      List.forall_mem_cons.mpr ⟨by decide, isBlank_of_mem_signedDigits⟩⟩
  · next digit digits hmore hchars =>
    rw [hchars, List.forall_mem_cons] at hdigits
    refine List.forall_mem_append.mpr ⟨?_, ?_⟩
    · exact List.forall_mem_cons.mpr ⟨hdigits.1, List.forall_mem_cons.mpr ⟨by decide, hdigits.2⟩⟩
    · exact List.forall_mem_cons.mpr ⟨by decide, isBlank_of_mem_signedDigits⟩

/-- Nothing that is written of a number is a blank. -/
theorem isBlank_of_mem_chars (x : Float) : ∀ c ∈ valueStyle.chars x, isBlank c = false := by
  have hmagnitude (word : Nat) : ∀ c ∈ valueStyle.magnitude word, isBlank c = false := by
    rw [Style.magnitude, Style.decimal]
    split_ifs
    · exact isBlank_of_all (by decide)
    · exact isBlank_of_mem_positional
    · exact isBlank_of_mem_scientific
  simp only [Style.chars]
  split_ifs
  · exact isBlank_of_all (by decide)
  · exact List.forall_mem_cons.mpr ⟨by decide, hmagnitude _⟩
  · exact hmagnitude _

end Number

/-! ## Texts of values -/

namespace Value

variable {x y : Float} {left right : Value} {op : Operator}

/-- What is written of a number spells it. -/
theorem toNumber_text_write_number (x : Float) : (text (number x).write).toNumber = .ok x := by
  have hchars : (number x).write.toList = Number.valueStyle.chars x := String.toList_ofList
  rw [toNumber, hchars, Text.trim_eq_self (Number.isBlank_of_mem_chars x)]
  simp only [Number.read?_chars_valueStyle]

/-- The same is written of numbers only if they are the same. -/
theorem write_number_eq_iff : (number x).write = (number y).write ↔ x.toBits = y.toBits := by
  rw [Float.toBits_inj]
  constructor
  · intro hwrite
    have hx := toNumber_text_write_number x
    rw [hwrite, toNumber_text_write_number y] at hx
    exact (Except.ok.inj hx).symm
  · intro heq
    rw [heq]

/-- What is written of a value counts as the same number, or as none like the value. -/
theorem toNumber_text_write (value : Value) : (text value.write).toNumber = value.toNumber := by
  cases value with
  | number x => exact toNumber_text_write_number x
  | text written => rfl

theorem applyNumbers_text_write_right (op : Operator) (left right : Value) :
    left.applyNumbers op (text right.write) = left.applyNumbers op right := by
  rw [applyNumbers, applyNumbers, toNumber_text_write]

theorem applyNumbers_text_write_left (op : Operator) (left right : Value) :
    (text left.write).applyNumbers op right = left.applyNumbers op right := by
  rw [applyNumbers, applyNumbers, toNumber_text_write]

/-- Behind an operator, what is written of a value does for the value. -/
theorem apply_text_write_right (op : Operator) (left right : Value) :
    left.apply op (text right.write) = left.apply op right := by
  cases left with
  | number x => exact applyNumbers_text_write_right op (number x) right
  | text written =>
    rw [apply_text, apply_text, applyNumbers_text_write_right]
    rfl

/-- In front of an operator that takes its operands for numbers, what is written of a value does for
the value. -/
theorem apply_text_write_left (harithmetic : op ∈ [Operator.minus, .multiply, .divide])
    (left right : Value) : (text left.write).apply op right = left.apply op right := by
  rw [apply_of_isArithmetic (.inr harithmetic), apply_of_isArithmetic (.inr harithmetic),
    applyNumbers_text_write_left]

end Value

namespace Expression

variable {bindings : Bindings}

/-- The expression behind an empty text that it is joined to. -/
def joined (e : Expression) : Expression :=
  .chain (.string "") [(.plus, e)]

/-- What is written of the value of an expression is joined to nothing else. -/
theorem evaluate_joined (e : Expression) :
    e.joined.evaluate bindings = (e.evaluate bindings).map fun value => .text value.write := by
  simp only [joined, evaluate, evaluateLinks, Value.apply_text, Operator.onTexts?]
  cases e.evaluate bindings with
  | error error => rfl
  | ok value => simp [Except.map]

theorem isTrue_joined (e : Expression) : e.joined.isTrue bindings = e.isTrue bindings := by
  rw [isTrue, isTrue, evaluate_joined]
  cases e.evaluate bindings with
  | error error => rfl
  | ok value =>
    simp only [Except.map, Value.toNumber_text_write]

end Expression

namespace Value

open Expression (joined)

/-- What is written of a number spells the number, with its sign, be it finite or not.  So the same
is written of two numbers only if they have the same bits.  An expression that is joined to an empty
text has the text that is written of its value, and this text does for the value: as a condition,
behind any operator, and in front of those that take their operands for numbers. -/
theorem numbers_survive_as_text :
    (∀ x : Float, (text (number x).write).toNumber = .ok x) ∧
    (∀ x y : Float, (number x).write = (number y).write ↔ x.toBits = y.toBits) ∧
    (number 0).write ≠ (number (-0)).write ∧
    (∀ (bindings : Bindings) (e : Expression),
      (joined e).evaluate bindings =
        (e.evaluate bindings).map (fun value => text value.write) ∧
      (joined e).isTrue bindings = e.isTrue bindings) ∧
    (∀ (op : Operator) (left right : Value),
      left.apply op (text right.write) = left.apply op right) ∧
    ∀ (op : Operator) (left right : Value), op ∈ [Operator.minus, .multiply, .divide] →
      (text left.write).apply op right = left.apply op right := by
  refine ⟨toNumber_text_write_number, fun _ _ => write_number_eq_iff, ?_, ?_,
    apply_text_write_right, fun _ left right hop => apply_text_write_left hop left right⟩
  · rw [ne_eq, write_number_eq_iff]
    decide +kernel
  · exact fun bindings e => ⟨e.evaluate_joined, e.isTrue_joined⟩

/-- The least magnitude, the first that is written with an exponent, a zero with a sign, infinity
and what is not a number. -/
theorem numbers_survive_as_text_edges :
    (number 5e-324).write = "5e-324" ∧ (text "5e-324").toNumber = .ok 5e-324 ∧
      (number 1e16).write = "1e16" ∧
      (text "1e16").apply .minus (text "2.0") = .ok (.number 9999999999999998) ∧
      (text "-0.0").toNumber = .ok (-0) ∧ (text "-0.0").toNumber ≠ .ok 0 ∧
      (text "-inf").toNumber = .ok (-1 / 0) ∧ (text "NaN").toNumber = .ok (0 / 0) ∧
      (joined (.number 1e16)).evaluate {} = .ok (.text "1e16") := by
  obtain ⟨hread, -, hzeros, hjoined, hright, hleft⟩ := numbers_survive_as_text
  have hleast : (number 5e-324).write = "5e-324" := by decide +kernel
  have hswitch : (number 1e16).write = "1e16" := by decide +kernel
  have htwo : (number 2).write = "2.0" := by decide +kernel
  have hzero : (number (-0)).write = "-0.0" := by decide +kernel
  have hinfinity : (number (-1 / 0)).write = "-inf" := by decide +kernel
  have hnan : (number (0 / 0)).write = "NaN" := by decide +kernel
  have hdistinct : (-0 : Float) ≠ 0 := by
    intro heq
    rw [heq] at hzeros
    exact hzeros rfl
  refine ⟨hleast, hleast ▸ hread 5e-324, hswitch, ?_, hzero ▸ hread (-0), ?_,
    hinfinity ▸ hread (-1 / 0), hnan ▸ hread (0 / 0), ?_⟩
  · rw [← hswitch, ← htwo, hright, hleft .minus (number 1e16) (number 2) (by decide)]
    decide +kernel
  · rw [← hzero, hread]
    exact fun hequal => hdistinct (Except.ok.inj hequal)
  · rw [(hjoined {} (.number 1e16)).1, ← hswitch]
    rfl

end Value

end LineBasic
