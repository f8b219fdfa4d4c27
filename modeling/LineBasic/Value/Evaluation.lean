import LineBasic.Program.Expression
import LineBasic.Value.Bindings
import LineBasic.Value.Operation

/-!
# Evaluation of expressions

The operands of a chain are evaluated from left to right, and each operator is applied to the value
of all that stands left of it as soon as its right operand has a value.
-/

namespace LineBasic.Expression

mutual

/-- The value of an expression. -/
def evaluate (bindings : Bindings) : Expression → Except NotANumber Value
  | .number value => .ok (.number value)
  | .string text => .ok (.text text)
  | .var name => .ok (bindings.get name)
  | .chain first links =>
    match evaluate bindings first with
    | .error error => .error error
    | .ok value => evaluateLinks bindings value links

/-- The value of the links of a chain behind a value. -/
def evaluateLinks (bindings : Bindings) (left : Value) :
    List (Operator × Expression) → Except NotANumber Value
  | [] => .ok left
  | (op, operand) :: links =>
    match evaluate bindings operand with
    | .error error => .error error
    | .ok right =>
      match left.apply op right with
      | .error error => .error error
      | .ok value => evaluateLinks bindings value links

end

/-- The expression has a number for its value, and the number is not zero. -/
def isTrue (bindings : Bindings) (condition : Expression) : Except NotANumber Bool :=
  match evaluate bindings condition with
  | .error error => .error error
  | .ok value =>
    match value.toNumber with
    | .error error => .error error
    | .ok x => .ok (x != 0)

end LineBasic.Expression
