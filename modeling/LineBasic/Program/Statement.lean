import LineBasic.Program.Expression

/-!
# Statements

A statement prints a value, assigns one to a variable, or jumps to a label if a value is a number
other than zero.
-/

namespace LineBasic

/-- A statement. -/
inductive Statement where
  | print (e : Expression)
  | assign (name : String) (e : Expression)
  | jump (condition : Expression) (label : String)
deriving Inhabited

namespace Statement

/-- The listing of a statement, without the line break. -/
def listing : Statement → String
  | print e => e.listingAfter "print "
  | assign name e => e.listingAfter (name ++ " = ")
  | jump condition label => condition.listingAfter "if " ++ " then " ++ label

/-- The variable that the statement assigns to. -/
def target? : Statement → Option String
  | assign name _ => some name
  | _ => none

end Statement

end LineBasic
