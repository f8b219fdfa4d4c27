/-!
# Operators

The seven operators between operands.  They all have one precedence.
-/

namespace LineBasic

/-- An operator between two operands. -/
inductive Operator where
  | equal
  | plus
  | minus
  | multiply
  | divide
  | lessThan
  | greaterThan
deriving DecidableEq, Repr, Inhabited

namespace Operator

/-- The symbol of an operator. -/
def symbol : Operator → String
  | equal => "="
  | plus => "+"
  | minus => "-"
  | multiply => "*"
  | divide => "/"
  | lessThan => "<"
  | greaterThan => ">"

/-- The operator with the symbol. -/
def ofSymbol? : String → Option Operator
  | "=" => some equal
  | "+" => some plus
  | "-" => some minus
  | "*" => some multiply
  | "/" => some divide
  | "<" => some lessThan
  | ">" => some greaterThan
  | _ => none

@[simp]
theorem ofSymbol?_symbol (op : Operator) : ofSymbol? op.symbol = some op := by
  cases op <;> rfl

/-- A symbol belongs to one operator alone. -/
theorem ofSymbol?_eq_some_iff {text : String} {op : Operator} :
    ofSymbol? text = some op ↔ text = op.symbol := by
  constructor
  · intro hfound
    unfold ofSymbol? at hfound
    split at hfound <;> cases hfound <;> rfl
  · rintro rfl
    exact ofSymbol?_symbol op

end Operator

end LineBasic
