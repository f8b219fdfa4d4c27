import Mathlib.Data.List.Basic
import LineBasic.Proofs.Run.Statement
import LineBasic.Proofs.Value.Evaluation

/-!
# Refusals of operators

Whether an operator is arithmetic is decided by itself and the kind of its left operand.  If it is
not, it sees what is written of its operands and refuses nothing.  If it is, it takes both for
numbers, the left one first, and refuses the first that is a text which spells none.  So what an
expression is refused for is a text that one of its parts has for a value.
-/

namespace LineBasic

namespace Value

variable {op : Operator} {left right value : Value} {error : NotANumber}

/-- The operator is arithmetic behind the value: the value is a number, or the operator has no
other meaning. -/
def IsArithmetic (left : Value) (op : Operator) : Prop :=
  (∃ x, left = .number x) ∨ op ∈ [Operator.minus, .multiply, .divide]

/-- The value is the text, which spells no number even without the blanks around it. -/
def SpellsNoNumber (value : Value) (written : String) : Prop :=
  value = .text written ∧ Number.read? (Text.trim written.toList) = none

/-! ## Numbers of values -/

theorem toNumber_eq_error_iff :
    value.toNumber = .error error ↔ value.SpellsNoNumber error.text := by
  cases value with
  | number x => simp [SpellsNoNumber]
  | text written =>
    simp only [toNumber, SpellsNoNumber]
    constructor
    · intro herror
      split at herror
      · cases herror
      · next hnone =>
        cases herror
        exact ⟨rfl, hnone⟩
    · rintro ⟨hwritten, hnone⟩
      cases hwritten
      rw [hnone]

theorem not_spellsNoNumber_of_toNumber {x : Float} (hnumber : value.toNumber = .ok x)
    (written : String) : ¬ value.SpellsNoNumber written := by
  intro hspells
  have herror : value.toNumber = .error ⟨written⟩ := toNumber_eq_error_iff.mpr hspells
  rw [hnumber] at herror
  cases herror

/-! ## Operators that are not arithmetic -/

theorem onTexts?_eq_none_iff : op.onTexts? = none ↔ op ∈ [Operator.minus, .multiply, .divide] := by
  cases op <;> simp [Operator.onTexts?]

/-- What an operator that is not arithmetic makes of the two texts that are written. -/
theorem exists_apply_eq_of_not_isArithmetic (op : Operator) :
    ∃ join : String → String → Value, ∀ left right : Value, ¬ left.IsArithmetic op →
      left.apply op right = .ok (join left.write right.write) := by
  refine ⟨op.onTexts?.getD fun _ _ => default, fun left right htextual => ?_⟩
  rw [IsArithmetic, not_or] at htextual
  cases left with
  | number x => exact absurd ⟨x, rfl⟩ htextual.1
  | text written =>
    have hmeaning := mt onTexts?_eq_none_iff.mp htextual.2
    obtain ⟨join, hjoin⟩ := Option.ne_none_iff_exists'.mp hmeaning
    rw [apply_text, hjoin]
    rfl

/-! ## Arithmetic -/

theorem apply_of_isArithmetic (harithmetic : left.IsArithmetic op) (right : Value) :
    left.apply op right = left.applyNumbers op right := by
  cases left with
  | number x => rfl
  | text written =>
    obtain ⟨x, hx⟩ | hop := harithmetic
    · cases hx
    · rw [apply_text, onTexts?_eq_none_iff.mpr hop]

/-- Arithmetic refuses the left operand, or the right one if the left one is a number. -/
theorem applyNumbers_eq_error_iff : left.applyNumbers op right = .error error ↔
    left.SpellsNoNumber error.text ∨
      (∀ written, ¬ left.SpellsNoNumber written) ∧ right.SpellsNoNumber error.text := by
  rw [← toNumber_eq_error_iff, ← toNumber_eq_error_iff, applyNumbers]
  cases hleft : left.toNumber with
  | error refusal =>
    have hspells : left.SpellsNoNumber refusal.text := toNumber_eq_error_iff.mp hleft
    have hnumber : ¬ ∀ written, ¬ left.SpellsNoNumber written := fun hnone => hnone _ hspells
    simp [hnumber]
  | ok x =>
    have hnumber := not_spellsNoNumber_of_toNumber hleft
    cases hright : right.toNumber <;> simp [hnumber]

theorem apply_eq_error_iff (harithmetic : left.IsArithmetic op) :
    left.apply op right = .error error ↔ left.SpellsNoNumber error.text ∨
      (∀ written, ¬ left.SpellsNoNumber written) ∧ right.SpellsNoNumber error.text := by
  rw [apply_of_isArithmetic harithmetic, applyNumbers_eq_error_iff]

/-- What an operator refuses is the text of one of its operands. -/
theorem spellsNoNumber_of_apply (herror : left.apply op right = .error error) :
    left.SpellsNoNumber error.text ∨ right.SpellsNoNumber error.text := by
  by_cases harithmetic : left.IsArithmetic op
  · exact ((apply_eq_error_iff harithmetic).mp herror).imp_right And.right
  · obtain ⟨join, hjoin⟩ := exists_apply_eq_of_not_isArithmetic op
    rw [hjoin left right harithmetic] at herror
    cases herror

/-- Arithmetic has the same result on the numbers that its operands spell. -/
theorem apply_numbers_of_eq_ok (harithmetic : left.IsArithmetic op)
    (hvalue : left.apply op right = .ok value) :
    ∃ x y, left.toNumber = .ok x ∧ right.toNumber = .ok y ∧
      left.apply op (.number y) = .ok value ∧
      (number x).apply op right = .ok value ∧ (number x).apply op (.number y) = .ok value := by
  rw [apply_of_isArithmetic harithmetic, applyNumbers_eq_ok_iff] at hvalue
  obtain ⟨x, y, hx, hy, rfl⟩ := hvalue
  refine ⟨x, y, hx, hy, ?_, ?_, rfl⟩
  · rw [apply_of_isArithmetic harithmetic, applyNumbers_eq_ok_iff]
    exact ⟨x, y, hx, rfl, rfl⟩
  · rw [apply_number, applyNumbers_eq_ok_iff]
    exact ⟨x, y, rfl, hy, rfl⟩

end Value

namespace Expression

/-- A value that the expression or a part of it takes when it is evaluated: an operand, or what
stands left of a link of a chain.  Operands behind a link that fails are not evaluated. -/
inductive Takes (bindings : Bindings) : Expression → Value → Prop where
  | result {e : Expression} {value : Value} (hvalue : e.evaluate bindings = .ok value) :
      Takes bindings e value
  | first {first : Expression} {links : List (Operator × Expression)} {value : Value}
      (htakes : Takes bindings first value) : Takes bindings (.chain first links) value
  | middle {first : Expression} {front back : List (Operator × Expression)} {value : Value}
      (hvalue : (chain first front).evaluate bindings = .ok value) :
      Takes bindings (.chain first (front ++ back)) value
  | operand {first operand : Expression} {front back : List (Operator × Expression)}
      {op : Operator} {middle value : Value}
      (hmiddle : (chain first front).evaluate bindings = .ok middle)
      (htakes : Takes bindings operand value) :
      Takes bindings (.chain first (front ++ (op, operand) :: back)) value

/-- An expression fails with the text that a part of it has for a value, and that spells no
number. -/
theorem exists_takes_of_evaluate_eq_error {bindings : Bindings} (e : Expression)
    {error : NotANumber} (herror : e.evaluate bindings = .error error) :
    ∃ value, e.Takes bindings value ∧ value.SpellsNoNumber error.text := by
  match e with
  | .number _ | .string _ | .var _ => cases herror
  | .chain first links =>
    cases hfirst : first.evaluate bindings with
    | error refusal =>
      rw [evaluate, hfirst] at herror
      obtain ⟨value, htakes, hspells⟩ :=
        exists_takes_of_evaluate_eq_error first (hfirst.trans herror)
      exact ⟨value, .first htakes, hspells⟩
    | ok left =>
      rw [evaluate_chain_of_eq_ok hfirst, evaluateLinks_eq_error_iff] at herror
      obtain ⟨front, op, operand, back, middle, hlinks, hfront, hfails⟩ := herror
      have hsmaller : sizeOf (op, operand) < sizeOf links :=
        List.sizeOf_lt_of_mem (by simp [hlinks])
      rw [← evaluate_chain_of_eq_ok hfirst] at hfront
      rw [hlinks]
      obtain hoperand | ⟨right, hright, happly⟩ := hfails
      · obtain ⟨value, htakes, hspells⟩ := exists_takes_of_evaluate_eq_error operand hoperand
        exact ⟨value, .operand hfront htakes, hspells⟩
      · obtain hspells | hspells := Value.spellsNoNumber_of_apply happly
        · exact ⟨middle, .middle hfront, hspells⟩
        · exact ⟨right, .operand hfront (.result hright), hspells⟩
termination_by sizeOf e
decreasing_by
  · simp only [chain.sizeOf_spec]
    omega
  · simp only [chain.sizeOf_spec, Prod.mk.sizeOf_spec] at hsmaller ⊢
    omega

end Expression

open Value

/-- An operator that is not arithmetic behind its left operand has a value, which depends on what is
written of the operands alone.  Arithmetic fails for the left operand if that spells no number, and
otherwise for the right one, and has the same value on the numbers that they spell.  An expression
fails for the text of a value that a part of it takes; no expression fails for a full sink, which
only the line of a value does. -/
theorem refusals_follow_left_kind :
    (∀ op : Operator, ∃ join : String → String → Value, ∀ left right : Value,
      ¬ left.IsArithmetic op → left.apply op right = .ok (join left.write right.write)) ∧
    (∀ (op : Operator) (left right other : Value), ¬ left.IsArithmetic op →
      other.write = right.write → left.apply op other = left.apply op right) ∧
    (∀ (op : Operator) (left right : Value) (error : NotANumber), left.IsArithmetic op →
      (left.apply op right = .error error ↔ left.SpellsNoNumber error.text ∨
        (∀ written, ¬ left.SpellsNoNumber written) ∧ right.SpellsNoNumber error.text)) ∧
    (∀ (op : Operator) (left right value : Value), left.IsArithmetic op →
      left.apply op right = .ok value →
      ∃ x y, left.toNumber = .ok x ∧ right.toNumber = .ok y ∧
        left.apply op (.number y) = .ok value ∧
        (number x).apply op right = .ok value ∧ (number x).apply op (.number y) = .ok value) ∧
    (∀ (bindings : Bindings) (e : Expression) (error : NotANumber),
      e.evaluate bindings = .error error →
      ∃ value, e.Takes bindings value ∧ value.SpellsNoNumber error.text) ∧
    ∀ (program : Program) (statement : Statement) (machine after : Machine),
      Machine.Executes program machine statement after (some .sinkFull) →
      ∃ e value, statement = .print e ∧ e.evaluate machine.bindings = .ok value := by
  refine ⟨exists_apply_eq_of_not_isArithmetic, ?_, ?_, ?_, ?_, ?_⟩
  · intro op left right other htextual hwritten
    obtain ⟨join, hjoin⟩ := exists_apply_eq_of_not_isArithmetic op
    rw [hjoin left other htextual, hjoin left right htextual, hwritten]
  · intro op left right error harithmetic
    exact apply_eq_error_iff harithmetic
  · intro op left right value harithmetic hvalue
    exact apply_numbers_of_eq_ok harithmetic hvalue
  · intro bindings e error herror
    exact e.exists_takes_of_evaluate_eq_error herror
  · intro program statement machine after hexecutes
    obtain ⟨e, value, hprint, hvalue, -⟩ := hexecutes.of_sinkFull
    exact ⟨e, value, hprint, hvalue⟩

/-- A text that has been joined is refused by the next operator, a text with blanks is refused as it
is, and a comparison sees a number as it is written. -/
theorem refusals_follow_left_kind_joined_text :
    let e : Expression := .chain (.string "a") [(.plus, .number 1), (.minus, .number 2)]
    e.evaluate {} = .error ⟨"a1.0"⟩ ∧
      (∃ value, e.Takes {} value ∧ value.SpellsNoNumber "a1.0") ∧
      (text " 4 ").apply .minus (.text "b ") = .error ⟨"b "⟩ ∧
      (text "b").apply .lessThan (.number 5) = (text "b").apply .lessThan (.text "5.0") ∧
      ∃ y, (text " 5").toNumber = .ok y ∧
        (number 3).apply .plus (.number y) = .ok (.number 8) := by
  intro e
  have herror : e.evaluate {} = .error ⟨"a1.0"⟩ := by decide +kernel
  have hminus : (text " 4 ").IsArithmetic .minus := .inr (by decide)
  have hcompares : ¬ (text "b").IsArithmetic .lessThan := by simp [IsArithmetic]
  have hfour : (text " 4 ").toNumber = .ok 4 := by decide +kernel
  have hspells : (text "b ").SpellsNoNumber "b " := ⟨rfl, by decide +kernel⟩
  have hsum : (number 3).apply .plus (.text " 5") = .ok (.number 8) := by decide +kernel
  obtain ⟨-, hwritten, hrefused, hnumbers, htakes, -⟩ := refusals_follow_left_kind
  obtain ⟨-, y, -, hy, hplus, -⟩ :=
    hnumbers .plus (.number 3) (.text " 5") _ (.inl ⟨3, rfl⟩) hsum
  refine ⟨herror, htakes {} e _ herror, ?_, ?_, y, hy, hplus⟩
  · apply (hrefused .minus _ _ _ hminus).mpr
    exact .inr ⟨not_spellsNoNumber_of_toNumber hfour, hspells⟩
  · exact hwritten .lessThan _ (.text "5.0") (.number 5) hcompares (by decide +kernel)

end LineBasic
