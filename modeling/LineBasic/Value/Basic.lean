import LineBasic.Text.Blank
import LineBasic.Number.Literal
import LineBasic.Number.Style

/-!
# Values

A value is a number or a text.  Every value can be written; a text counts as a number if it spells
one, with any blanks around it.
-/

namespace LineBasic

/-- A value of an expression or a variable. -/
inductive Value where
  | number (value : Float)
  | text (value : String)
deriving DecidableEq, Inhabited

/-- The refusal to take a text for a number. -/
structure NotANumber where
  text : String
deriving DecidableEq, Repr, Inhabited

/-- What is said of a text that is no number.  The text is shown as it is. -/
def NotANumber.message (error : NotANumber) : String :=
  "Not a number: \"" ++ error.text ++ "\""

namespace Value

/-- The written form of a value, as it is printed. -/
def write : Value → String
  | number value => Number.valueStyle.write value
  | text value => value

/-- The number that a value is or spells. -/
def toNumber : Value → Except NotANumber Float
  | number value => .ok value
  | text value =>
    match Number.read? (Text.trim value.toList) with
    | some spelled => .ok spelled
    | none => .error ⟨value⟩

@[simp]
theorem toNumber_number (value : Float) : (number value).toNumber = .ok value := rfl

end Value

end LineBasic
