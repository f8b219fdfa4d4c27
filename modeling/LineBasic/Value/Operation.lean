import LineBasic.Program.Operator
import LineBasic.Value.Basic

/-!
# Operations on values

The left operand decides between two readings of an operator.  On a text, `+` joins and the
comparisons compare what is written, by code points; everything else is arithmetic, for which both
operands are taken for numbers, the left one first.
-/

namespace LineBasic

/-- One for what holds, and zero for what does not. -/
def truth (holds : Bool) : Float :=
  if holds then 1 else 0

namespace Operator

/-- What the operator does with two numbers. -/
def onNumbers : Operator → Float → Float → Float
  | equal, left, right => truth (left == right)
  | plus, left, right => left + right
  | minus, left, right => left - right
  | multiply, left, right => left * right
  | divide, left, right => left / right
  | lessThan, left, right => truth (left < right)
  | greaterThan, left, right => truth (left > right)

/-- What the operator does with two texts, if it has a meaning for them. -/
def onTexts? : Operator → Option (String → String → Value)
  | equal => some fun left right => .number (truth (left = right))
  | plus => some fun left right => .text (left ++ right)
  | lessThan => some fun left right => .number (truth (left < right))
  | greaterThan => some fun left right => .number (truth (left > right))
  | minus | multiply | divide => none

end Operator

namespace Value

/-- Arithmetic on two values: both are taken for numbers, the left one first. -/
def applyNumbers (op : Operator) (left right : Value) : Except NotANumber Value :=
  match left.toNumber with
  | .error error => .error error
  | .ok x =>
    match right.toNumber with
    | .error error => .error error
    | .ok y => .ok (.number (op.onNumbers x y))

/-- The value of an operator between two values. -/
def apply (op : Operator) (left right : Value) : Except NotANumber Value :=
  match left, op.onTexts? with
  | .text written, some join => .ok (join written right.write)
  | left, _ => left.applyNumbers op right

@[simp]
theorem apply_number (op : Operator) (x : Float) (right : Value) :
    apply op (.number x) right = applyNumbers op (.number x) right := rfl

theorem apply_text (op : Operator) (written : String) (right : Value) :
    apply op (.text written) right =
      match op.onTexts? with
      | some join => .ok (join written right.write)
      | none => applyNumbers op (.text written) right := by
  unfold apply
  cases op.onTexts? <;> rfl

theorem applyNumbers_eq_ok_iff {op : Operator} {left right value : Value} :
    applyNumbers op left right = .ok value ↔
      ∃ x y, left.toNumber = .ok x ∧ right.toNumber = .ok y ∧
        value = .number (op.onNumbers x y) := by
  rw [applyNumbers]
  cases left.toNumber with
  | error error => simp
  | ok x => cases right.toNumber <;> simp [eq_comm]

end Value

end LineBasic
