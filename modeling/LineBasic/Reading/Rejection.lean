import LineBasic.Reading.Rules
import LineBasic.Token.Cursor

/-!
# Rejections

A list of tokens is rejected as a program for one cause, at one place: a cursor in front of the
offending token.  It keeps the stack of the rules that were being followed there.
-/

namespace LineBasic

/-- Why a list of tokens is no program. -/
inductive Cause where
  /-- A token of the kind has to stand here. -/
  | expected (kind : Token.Kind)
  /-- The word has to stand here. -/
  | expectedWord (word : String)
  /-- An operand has to stand here, and the token cannot start one. -/
  | noOperand
  /-- The token stands for an operator, but there is none with its text. -/
  | unknownOperator (text : String)
  /-- The token is a number, but its text spells none. -/
  | invalidNumber (text : String)
  /-- The parenthesis would be one more open parenthesis than is allowed. -/
  | tooDeeplyNested
deriving DecidableEq, Repr, Inhabited

namespace Cause

/-- What is said of a cause. -/
def message : Cause → String
  | expected kind => "Expected \"" ++ kind.name ++ "\""
  | expectedWord word => "Expected keyword \"" ++ word ++ "\""
  | noOperand => "Could not parse an expression"
  | unknownOperator text => "Unknown operator \"" ++ text ++ "\""
  | invalidNumber text => "Invalid number literal \"" ++ text ++ "\""
  | tooDeeplyNested => "Parentheses nested too deeply"

end Cause

/-- The rejection of a list of tokens. -/
structure Rejection where
  cause : Cause
  /-- The rules that were being followed. -/
  rules : RuleStack
  /-- The place of the offending token. -/
  place : Cursor
deriving DecidableEq, Repr, Inhabited

namespace Rejection

/-- The offending token. -/
def token (rejection : Rejection) : Token :=
  rejection.place.current

/-- The rules that were being followed, the outermost first. -/
def path (rejection : Rejection) : List Rule :=
  rejection.rules.path

/-- What was found in place of what was expected. -/
def found (token : Token) : String :=
  if token.text = "" ∨ token.kind = .lineBreak then token.kind.name
  else token.kind.name ++ " \"" ++ token.text ++ "\""

/-- What is said of a rejection. -/
def message (rejection : Rejection) : String :=
  "While parsing " ++ String.intercalate " > " (rejection.path.map Rule.name) ++ "\n" ++
    rejection.cause.message ++ " but found " ++ found rejection.token

end Rejection

end LineBasic
