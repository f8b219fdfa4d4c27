import LineBasic.Number.Literal
import LineBasic.Program.Expression
import LineBasic.Reading.Reader

/-!
# Reading expressions

An expression is an operand, or operands with operators between them; an operand is a word, a
number, a string, or an expression in parentheses.  It is read one token at a time.  What has been
read is kept as the chain that is being continued and, for each open parenthesis, the chain that it
interrupts.  The expression ends in front of the first token that cannot continue it.

Each expression and each operand is read by a rule of its own.  A parenthesis is one more expression
inside an operand, so the rules lie inside each other as the parentheses do, and no parenthesis is
opened where the stack of rules is full.
-/

namespace LineBasic

namespace Reading

/-- A chain that is being read, with its latest link first. -/
structure OpenChain where
  first : Expression
  links : List (Operator × Expression) := []
deriving Inhabited

/-- What stands left of an operand inside its parentheses. -/
inductive Left where
  | nothing
  | link (chain : OpenChain) (op : Operator)
deriving Inhabited

/-- The chain as an expression.  A chain without operators is its operand. -/
def OpenChain.close (chain : OpenChain) : Expression :=
  match chain.links with
  | [] => chain.first
  | links => .chain chain.first links.reverse

/-- The chain with an operand behind what stands left of it. -/
def Left.extend (operand : Expression) : Left → OpenChain
  | nothing => ⟨operand, []⟩
  | link chain op => { chain with links := (op, operand) :: chain.links }

/-- What the next token has to be for the expression to go on. -/
inductive Awaiting where
  | operand (left : Left)
  | operator (chain : OpenChain)
deriving Inhabited

/-- How far an expression has been read. -/
structure Progress where
  /-- What stands left of each open parenthesis, the innermost first. -/
  opened : List Left := []
  awaiting : Awaiting := .operand .nothing
deriving Inhabited

namespace Progress

/-- The progress that a token makes where an operand may stand, if it can stand there, and the rules
behind it.  Behind an operand its rule has ended; a parenthesis begins two further ones. -/
def nextOperand (opened : List Left) (left : Left) (rules : RuleStack) (token : Token) :
    Except Cause (Option (Progress × RuleStack)) :=
  match token.kind with
  | .word => .ok (some (⟨opened, .operator (left.extend (.var token.text))⟩, rules.pop))
  | .string => .ok (some (⟨opened, .operator (left.extend (.string token.text))⟩, rules.pop))
  | .number =>
    match Number.read? token.text.toList with
    | some value => .ok (some (⟨opened, .operator (left.extend (.number value))⟩, rules.pop))
    | none => .error (.invalidNumber token.text)
  | .leftParen =>
    if rules.isFull then .error .tooDeeplyNested
    else .ok (some (⟨left :: opened, .operand .nothing⟩, (rules.push .expression).push .atomic))
  | _ => .ok none

/-- The progress that a token makes behind an operand, if it continues the expression, and the rules
behind it.  An operator begins the rule of its right operand; a parenthesis ends those of the
expression inside and of the operand that it is. -/
def nextOperator (opened : List Left) (chain : OpenChain) (rules : RuleStack) (token : Token) :
    Except Cause (Option (Progress × RuleStack)) :=
  match token.kind, opened with
  | .operator, _ | .equals, _ =>
    match Operator.ofSymbol? token.text with
    | some op => .ok (some (⟨opened, .operand (.link chain op)⟩, rules.push .atomic))
    | none => .error (.unknownOperator token.text)
  | .rightParen, left :: opened =>
    .ok (some (⟨opened, .operator (left.extend chain.close)⟩, rules.pop.pop))
  | _, _ => .ok none

/-- The progress that a token makes, if it continues the expression, and the rules behind it. -/
def next (progress : Progress) (rules : RuleStack) (token : Token) :
    Except Cause (Option (Progress × RuleStack)) :=
  match progress.awaiting with
  | .operand left => nextOperand progress.opened left rules token
  | .operator chain => nextOperator progress.opened chain rules token

/-- The expression, if it may end here. -/
def finish (progress : Progress) : Except Cause Expression :=
  match progress.awaiting, progress.opened with
  | .operand _, _ => .error .noOperand
  | .operator _, _ :: _ => .error (.expected .rightParen)
  | .operator chain, [] => .ok chain.close

/-- The rules where no token continues the expression.  Behind an operand the innermost expression
has ended. -/
def rulesAtEnd (progress : Progress) (rules : RuleStack) : RuleStack :=
  match progress.awaiting with
  | .operand _ => rules
  | .operator _ => rules.pop

end Progress

/-- The expression in front of a place. -/
def endExpression (progress : Progress) (rules : RuleStack) (place : Cursor) :
    Except Rejection (Expression × State) :=
  match progress.finish with
  | .ok e => .ok (e, ⟨place, progress.rulesAtEnd rules⟩)
  | .error cause => .error ⟨cause, progress.rulesAtEnd rules, place⟩

/-- Reads on in an expression, between the tokens behind and those ahead. -/
def continueExpression (progress : Progress) (rules : RuleStack) (behind : List Token) :
    List Token → Except Rejection (Expression × State)
  | [] => endExpression progress rules ⟨behind, []⟩
  | token :: ahead =>
    match progress.next rules token with
    | .ok (some (progress, rules)) => continueExpression progress rules (token :: behind) ahead
    | .ok none => endExpression progress rules ⟨behind, token :: ahead⟩
    | .error cause => .error ⟨cause, rules, ⟨behind, token :: ahead⟩⟩

/-- Reads an expression. -/
def readExpression : Reader Expression := fun state =>
  continueExpression {} ((state.rules.push .expression).push .atomic) state.cursor.behind
    state.cursor.ahead

theorem endExpression_eq_ok {progress : Progress} {rules : RuleStack} {place : Cursor}
    {e : Expression} {after : State} (hend : endExpression progress rules place = .ok (e, after)) :
    after.cursor = place := by
  unfold endExpression at hend
  split at hend <;> cases hend
  rfl

/-- Reading an expression does not move back. -/
theorem length_ahead_continueExpression {progress : Progress} {rules : RuleStack}
    {behind ahead : List Token} {e : Expression} {after : State}
    (hread : continueExpression progress rules behind ahead = .ok (e, after)) :
    after.cursor.ahead.length ≤ ahead.length := by
  induction ahead generalizing progress rules behind with
  | nil => simp [endExpression_eq_ok hread]
  | cons token ahead ih =>
    rw [continueExpression] at hread
    split at hread
    · exact Nat.le_succ_of_le (ih hread)
    · simp [endExpression_eq_ok hread]
    · cases hread

theorem neverBack_readExpression : NeverBack readExpression :=
  fun _ _ _ hread => length_ahead_continueExpression hread

end Reading

end LineBasic
