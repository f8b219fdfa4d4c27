import LineBasic.Reading.Expression

/-!
# The grammar of expressions

An operand is a word, a number, a string, or an expression in parentheses; an expression is an
operand followed by links, each an operator and an operand.  This file states the grammar as a
relation between trees and lists of tokens, independently of the order in which tokens are read,
and proves that reading accepts exactly the grammar: what is read is spelled by the tokens passed
over, and what is spelled is read as far as the tokens go.

The grammar counts open parentheses and reading counts rules.  The invariant of reading ties them
together: inside the three rules around the expression of a statement, two rules are being followed
for each open parenthesis.
-/

namespace LineBasic

namespace Expression

/-- A first operand with links.  Without links it is the operand itself. -/
def ofLinks (first : Expression) : List (Operator × Expression) → Expression
  | [] => first
  | link :: links => .chain first (link :: links)

end Expression

/-- The rules that are being followed inside a number of open parentheses, behind an operand. -/
def RuleStack.nested (rules : RuleStack) : Nat → RuleStack
  | 0 => rules.push .expression
  | depth + 1 => ((rules.nested depth).push .atomic).push .expression

theorem RuleStack.depth_nested (rules : RuleStack) (depth : Nat) :
    (rules.nested depth).depth = rules.depth + 2 * depth + 1 := by
  induction depth with
  | zero => rfl
  | succ depth ih =>
    rw [nested, depth_push, depth_push, ih]
    omega

namespace Grammar

open Reading

/-- The number of parentheses of a statement that may be open at a time. -/
def maxDepth : Nat := 254

/-- Where an operand starts, the stack of rules is full exactly if no more parentheses may be open:
three rules lie around the expression, two belong to each open parenthesis, and two to the operand
that starts. -/
theorem isFull_push_atomic_iff {rules : RuleStack} {depth : Nat}
    (hrules : rules.depth = 2 * depth + 4) :
    (rules.push .atomic).isFull = true ↔ maxDepth ≤ depth := by
  rw [RuleStack.isFull_eq_true_iff, RuleStack.depth_push, hrules, RuleStack.limit, maxDepth]
  omega

/-- The kinds of tokens that stand for operators. -/
def IsOperatorKind (kind : Token.Kind) : Prop :=
  kind = .operator ∨ kind = .equals

instance (kind : Token.Kind) : Decidable (IsOperatorKind kind) :=
  inferInstanceAs (Decidable (_ ∨ _))

mutual

/-- The tokens spell an operand where a number of parentheses are open. -/
inductive SpellsOperand : Nat → Expression → List Token → Prop where
  | var (depth : Nat) (name : String) : SpellsOperand depth (.var name) [⟨.word, name⟩]
  | string (depth : Nat) (text : String) : SpellsOperand depth (.string text) [⟨.string, text⟩]
  | number (depth : Nat) {text : String} {value : Float}
      (hread : Number.read? text.toList = some value) :
      SpellsOperand depth (.number value) [⟨.number, text⟩]
  | group {depth : Nat} {first : Expression} {links : List (Operator × Expression)}
      {firstTokens linkTokens : List Token} (openText closeText : String)
      (hdepth : depth < maxDepth) (hfirst : SpellsOperand (depth + 1) first firstTokens)
      (hlinks : SpellsLinks (depth + 1) links linkTokens) :
      SpellsOperand depth (.ofLinks first links)
        (⟨.leftParen, openText⟩ :: (firstTokens ++ linkTokens ++ [⟨.rightParen, closeText⟩]))

/-- The tokens spell the links of an expression. -/
inductive SpellsLinks : Nat → List (Operator × Expression) → List Token → Prop where
  | nil (depth : Nat) : SpellsLinks depth [] []
  | cons {depth : Nat} {kind : Token.Kind} {text : String} {op : Operator}
      {operand : Expression} {links : List (Operator × Expression)}
      {operandTokens linkTokens : List Token} (hkind : IsOperatorKind kind)
      (hop : Operator.ofSymbol? text = some op)
      (hoperand : SpellsOperand depth operand operandTokens)
      (hlinks : SpellsLinks depth links linkTokens) :
      SpellsLinks depth ((op, operand) :: links)
        (⟨kind, text⟩ :: (operandTokens ++ linkTokens))

end

/-- The tokens spell an expression inside a number of open parentheses. -/
inductive SpellsExpression (depth : Nat) : Expression → List Token → Prop where
  | intro {first : Expression} {links : List (Operator × Expression)}
      {firstTokens linkTokens : List Token} (hfirst : SpellsOperand depth first firstTokens)
      (hlinks : SpellsLinks depth links linkTokens) :
      SpellsExpression depth (.ofLinks first links) (firstTokens ++ linkTokens)

/-- No operator follows, so an expression cannot go on. -/
def EndsExpression (after : List Token) : Prop :=
  ∀ token ∈ after.head?, ¬ IsOperatorKind token.kind

theorem SpellsLinks.append {depth : Nat} {left right : List (Operator × Expression)}
    {leftTokens rightTokens : List Token} (hleft : SpellsLinks depth left leftTokens)
    (hright : SpellsLinks depth right rightTokens) :
    SpellsLinks depth (left ++ right) (leftTokens ++ rightTokens) := by
  match hleft with
  | .nil _ => exact hright
  | .cons hkind hop hoperand hlinks =>
    simpa using SpellsLinks.cons hkind hop hoperand (hlinks.append hright)

theorem SpellsLinks.single {depth : Nat} {kind : Token.Kind} {text : String} {op : Operator}
    {operand : Expression} {tokens : List Token} (hkind : IsOperatorKind kind)
    (hop : Operator.ofSymbol? text = some op) (hoperand : SpellsOperand depth operand tokens) :
    SpellsLinks depth [(op, operand)] (⟨kind, text⟩ :: tokens) := by
  simpa using SpellsLinks.cons hkind hop hoperand (.nil depth)

/-! ## What is read is spelled -/

theorem close_eq_ofLinks (chain : OpenChain) :
    chain.close = .ofLinks chain.first chain.links.reverse := by
  obtain ⟨first, links⟩ := chain
  cases links with
  | nil => rfl
  | cons link links =>
    cases hreverse : (link :: links).reverse with
    | nil => simp at hreverse
    | cons head tail => simp [OpenChain.close, Expression.ofLinks, hreverse]

/-- The tokens spell a chain that is being read. -/
inductive SpellsChain (depth : Nat) : OpenChain → List Token → Prop where
  | intro {chain : OpenChain} {firstTokens linkTokens : List Token}
      (hfirst : SpellsOperand depth chain.first firstTokens)
      (hlinks : SpellsLinks depth chain.links.reverse linkTokens) :
      SpellsChain depth chain (firstTokens ++ linkTokens)

/-- The tokens spell what stands left of an operand. -/
inductive SpellsLeft (depth : Nat) : Left → List Token → Prop where
  | nothing : SpellsLeft depth .nothing []
  | link {chain : OpenChain} {kind : Token.Kind} {text : String} {op : Operator}
      {tokens : List Token} (hchain : SpellsChain depth chain tokens)
      (hkind : IsOperatorKind kind) (hop : Operator.ofSymbol? text = some op) :
      SpellsLeft depth (.link chain op) (tokens ++ [⟨kind, text⟩])

/-- The tokens spell what stands left of the open parentheses, and the parentheses. -/
inductive SpellsOpened : List Left → List Token → Prop where
  | nil : SpellsOpened [] []
  | cons {left : Left} {opened : List Left} {outer inner : List Token} (text : String)
      (hopened : SpellsOpened opened outer) (hleft : SpellsLeft opened.length left inner)
      (hdepth : opened.length < maxDepth) :
      SpellsOpened (left :: opened) (outer ++ (inner ++ [⟨.leftParen, text⟩]))

/-- The tokens spell what has been read of an expression, and these rules are being followed behind
them, inside those around the expression. -/
inductive SpellsProgress (around : RuleStack) : Progress → RuleStack → List Token → Prop where
  | operand {opened : List Left} {left : Left} {outer inner : List Token}
      (hopened : SpellsOpened opened outer) (hleft : SpellsLeft opened.length left inner) :
      SpellsProgress around ⟨opened, .operand left⟩ ((around.nested opened.length).push .atomic)
        (outer ++ inner)
  | operator {opened : List Left} {chain : OpenChain} {outer inner : List Token}
      (hopened : SpellsOpened opened outer) (hchain : SpellsChain opened.length chain inner) :
      SpellsProgress around ⟨opened, .operator chain⟩ (around.nested opened.length)
        (outer ++ inner)

theorem SpellsLeft.extend {depth : Nat} {left : Left} {leftTokens tokens : List Token}
    {operand : Expression} (hleft : SpellsLeft depth left leftTokens)
    (hoperand : SpellsOperand depth operand tokens) :
    SpellsChain depth (left.extend operand) (leftTokens ++ tokens) := by
  cases hleft with
  | nothing =>
    have hchain : SpellsChain depth ⟨operand, []⟩ (tokens ++ []) := .intro hoperand (.nil depth)
    simpa [Left.extend] using hchain
  | @link chain kind text op _ hchain hkind hop =>
    cases hchain with
    | intro hfirst hlinks =>
      have hmore := hlinks.append (.single hkind hop hoperand)
      rw [← List.reverse_cons] at hmore
      have hchain : SpellsChain depth ⟨chain.first, (op, operand) :: chain.links⟩ _ :=
        .intro hfirst hmore
      simpa [Left.extend] using hchain

theorem SpellsChain.close {depth : Nat} {chain : OpenChain} {tokens : List Token}
    (hchain : SpellsChain depth chain tokens) : SpellsExpression depth chain.close tokens := by
  rw [close_eq_ofLinks]
  cases hchain with
  | intro hfirst hlinks => exact .intro hfirst hlinks

theorem SpellsExpression.group {depth : Nat} {e : Expression} {tokens : List Token}
    (hspells : SpellsExpression (depth + 1) e tokens) (hdepth : depth < maxDepth)
    (openText closeText : String) :
    SpellsOperand depth e (⟨.leftParen, openText⟩ :: (tokens ++ [⟨.rightParen, closeText⟩])) := by
  cases hspells with
  | intro hfirst hlinks => exact .group openText closeText hdepth hfirst hlinks

variable {around : RuleStack}

theorem depth_nested_around (haround : around.depth = 3) (depth : Nat) :
    (around.nested depth).depth = 2 * depth + 4 := by
  rw [RuleStack.depth_nested, haround]
  omega

/-- A token that an operand may be, or the parenthesis it starts with, goes behind what has been
read. -/
theorem SpellsProgress.nextOperand {opened : List Left} {left : Left} {token : Token}
    {progress : Progress} {rules : RuleStack} {outer inner : List Token}
    (haround : around.depth = 3) (hopened : SpellsOpened opened outer)
    (hleft : SpellsLeft opened.length left inner)
    (hnext : Progress.nextOperand opened left ((around.nested opened.length).push .atomic) token =
      .ok (some (progress, rules))) :
    SpellsProgress around progress rules (outer ++ inner ++ [token]) := by
  obtain ⟨kind, text⟩ := token
  have hoperand : ∀ operand, SpellsOperand opened.length operand [⟨kind, text⟩] →
      SpellsProgress around ⟨opened, .operator (left.extend operand)⟩
        (around.nested opened.length) (outer ++ inner ++ [⟨kind, text⟩]) := by
    intro operand hspells
    simpa using SpellsProgress.operator hopened (hleft.extend hspells)
  cases kind with
  | word =>
    cases hnext
    exact hoperand _ (.var _ text)
  | string =>
    cases hnext
    exact hoperand _ (.string _ text)
  | number =>
    simp only [Progress.nextOperand] at hnext
    split at hnext
    · next hread =>
      cases hnext
      exact hoperand _ (.number _ hread)
    · cases hnext
  | leftParen =>
    simp only [Progress.nextOperand] at hnext
    split at hnext
    · cases hnext
    · next hfull =>
      cases hnext
      rw [isFull_push_atomic_iff (depth_nested_around haround _), Nat.not_le] at hfull
      have hspells : SpellsProgress around ⟨left :: opened, .operand .nothing⟩ _ _ :=
        .operand (.cons text hopened hleft hfull) .nothing
      simpa [RuleStack.nested] using hspells
  | lineBreak | equals | operator | rightParen | endOfInput => cases hnext

/-- An operator or the end of a group goes behind what has been read. -/
theorem SpellsProgress.nextOperator {opened : List Left} {chain : OpenChain} {token : Token}
    {progress : Progress} {rules : RuleStack} {outer inner : List Token}
    (hopened : SpellsOpened opened outer) (hchain : SpellsChain opened.length chain inner)
    (hnext : Progress.nextOperator opened chain (around.nested opened.length) token =
      .ok (some (progress, rules))) :
    SpellsProgress around progress rules (outer ++ inner ++ [token]) := by
  obtain ⟨kind, text⟩ := token
  have hlink : ∀ op, IsOperatorKind kind → Operator.ofSymbol? text = some op →
      SpellsProgress around ⟨opened, .operand (.link chain op)⟩
        ((around.nested opened.length).push .atomic) (outer ++ inner ++ [⟨kind, text⟩]) := by
    intro op hkind hop
    simpa using SpellsProgress.operand hopened (.link hchain hkind hop)
  cases kind with
  | operator =>
    simp only [Progress.nextOperator] at hnext
    split at hnext
    · next hop =>
      cases hnext
      exact hlink _ (.inl rfl) hop
    · cases hnext
  | equals =>
    simp only [Progress.nextOperator] at hnext
    split at hnext
    · next hop =>
      cases hnext
      exact hlink _ (.inr rfl) hop
    · cases hnext
  | rightParen =>
    cases hopened with
    | nil => cases hnext
    | @cons left opened outer inner openText hopened hleft hdepth =>
      cases hnext
      have hspells : SpellsProgress around ⟨opened, .operator (left.extend chain.close)⟩ _ _ :=
        .operator hopened (hleft.extend (hchain.close.group hdepth openText text))
      simpa [RuleStack.nested] using hspells
  | word | number | string | lineBreak | leftParen | endOfInput => cases hopened <;> cases hnext

/-- The invariant of reading: one more token extends what the tokens so far spell, and the rules
behind it are those that belong to its open parentheses. -/
theorem SpellsProgress.next {progress after : Progress} {rules rulesAfter : RuleStack}
    {token : Token} {tokens : List Token} (haround : around.depth = 3)
    (hspells : SpellsProgress around progress rules tokens)
    (hnext : progress.next rules token = .ok (some (after, rulesAfter))) :
    SpellsProgress around after rulesAfter (tokens ++ [token]) := by
  cases hspells with
  | operand hopened hleft => exact SpellsProgress.nextOperand haround hopened hleft hnext
  | operator hopened hchain => exact SpellsProgress.nextOperator hopened hchain hnext

/-- Reading that ends well in front of a token leaves a complete expression behind it, and goes out
of all rules of the expression. -/
theorem SpellsProgress.finish {progress : Progress} {rules : RuleStack} {tokens : List Token}
    {e : Expression} (hspells : SpellsProgress around progress rules tokens)
    (hfinish : progress.finish = .ok e) :
    SpellsExpression 0 e tokens ∧ progress.rulesAtEnd rules = around := by
  cases hspells with
  | operand hopened hleft => cases hfinish
  | operator hopened hchain =>
    cases hopened with
    | nil =>
      cases hfinish
      exact ⟨hchain.close, rfl⟩
    | cons text hopened hleft hdepth => cases hfinish

/-- Where an expression may end, only an operator continues it. -/
theorem endsExpression_of_next_eq_none {progress : Progress} {rules : RuleStack} {token : Token}
    {after : List Token} {e : Expression} (hfinish : progress.finish = .ok e)
    (hnext : progress.next rules token = .ok none) : EndsExpression (token :: after) := by
  obtain ⟨opened, awaiting⟩ := progress
  obtain ⟨kind, text⟩ := token
  cases awaiting with
  | operand left => cases hfinish
  | operator chain =>
    cases opened with
    | cons left opened => cases hfinish
    | nil =>
      intro found hfound hkind
      cases hfound
      obtain rfl | rfl := hkind
      all_goals
        simp only [Progress.next, Progress.nextOperator] at hnext
        split at hnext <;> cases hnext

theorem endsExpression_nil : EndsExpression [] := by
  intro token hmem
  cases hmem

theorem endExpression_eq_ok_iff {progress : Progress} {rules : RuleStack} {place : Cursor}
    {e : Expression} {after : State} :
    endExpression progress rules place = .ok (e, after) ↔
      progress.finish = .ok e ∧ after = ⟨place, progress.rulesAtEnd rules⟩ := by
  rw [endExpression]
  cases progress.finish <;> simp [eq_comm]

theorem SpellsProgress.continueExpression {progress : Progress} {rules : RuleStack}
    {read behind ahead : List Token} {e : Expression} {state : State} (haround : around.depth = 3)
    (hspells : SpellsProgress around progress rules read)
    (hread : continueExpression progress rules behind ahead = .ok (e, state)) :
    ∃ tokens after, ahead = tokens ++ after ∧
      state = ⟨⟨tokens.reverse ++ behind, after⟩, around⟩ ∧
      SpellsExpression 0 e (read ++ tokens) ∧ EndsExpression after := by
  induction ahead generalizing progress rules read behind with
  | nil =>
    obtain ⟨hfinish, rfl⟩ := endExpression_eq_ok_iff.mp hread
    obtain ⟨hexpression, hrules⟩ := hspells.finish hfinish
    exact ⟨[], [], rfl, by rw [hrules]; rfl, by simpa using hexpression, endsExpression_nil⟩
  | cons token ahead ih =>
    rw [Reading.continueExpression] at hread
    split at hread
    · next next rulesAfter hnext =>
      obtain ⟨tokens, after, rfl, rfl, hexpression, hend⟩ :=
        ih (hspells.next haround hnext) hread
      exact ⟨token :: tokens, after, rfl, by simp, by simpa using hexpression, hend⟩
    · next hnext =>
      obtain ⟨hfinish, rfl⟩ := endExpression_eq_ok_iff.mp hread
      obtain ⟨hexpression, hrules⟩ := hspells.finish hfinish
      exact ⟨[], token :: ahead, rfl, by rw [hrules]; rfl, by simpa using hexpression,
        endsExpression_of_next_eq_none hfinish hnext⟩
    · cases hread

/-! ## What is spelled is read -/

/-- Token by token, reading comes from some progress and rules to others. -/
inductive Leads : Progress → RuleStack → List Token → Progress → RuleStack → Prop where
  | nil (progress : Progress) (rules : RuleStack) : Leads progress rules [] progress rules
  | cons {progress inner after : Progress} {rules rulesInner rulesAfter : RuleStack} {token : Token}
      {tokens : List Token} (hnext : progress.next rules token = .ok (some (inner, rulesInner)))
      (hrest : Leads inner rulesInner tokens after rulesAfter) :
      Leads progress rules (token :: tokens) after rulesAfter

section Leads

variable {progress inner after : Progress} {rules rulesInner rulesAfter : RuleStack}
variable {tokens others : List Token} {token : Token}

theorem Leads.single (hnext : progress.next rules token = .ok (some (after, rulesAfter))) :
    Leads progress rules [token] after rulesAfter :=
  .cons hnext (.nil after rulesAfter)

theorem Leads.append (hfirst : Leads progress rules tokens inner rulesInner)
    (hsecond : Leads inner rulesInner others after rulesAfter) :
    Leads progress rules (tokens ++ others) after rulesAfter := by
  induction hfirst with
  | nil => exact hsecond
  | cons hnext hrest ih => exact .cons hnext (ih hsecond)

/-- Reading goes on behind a token that continues the expression. -/
theorem continueExpression_cons (behind ahead : List Token)
    (hnext : progress.next rules token = .ok (some (after, rulesAfter))) :
    Reading.continueExpression progress rules behind (token :: ahead) =
      Reading.continueExpression after rulesAfter (token :: behind) ahead := by
  rw [Reading.continueExpression, hnext]

theorem Leads.continueExpression (hleads : Leads progress rules tokens after rulesAfter)
    (behind ahead : List Token) :
    Reading.continueExpression progress rules behind (tokens ++ ahead) =
      Reading.continueExpression after rulesAfter (tokens.reverse ++ behind) ahead := by
  induction hleads generalizing behind with
  | nil => rfl
  | cons hnext hrest ih =>
    rw [List.cons_append, continueExpression_cons _ _ hnext, ih]
    simp

end Leads

theorem next_operator {opened : List Left} {chain : OpenChain} {rules : RuleStack}
    {kind : Token.Kind} {text : String} {op : Operator} (hkind : IsOperatorKind kind)
    (hop : Operator.ofSymbol? text = some op) :
    Progress.next ⟨opened, .operator chain⟩ rules ⟨kind, text⟩ =
      .ok (some (⟨opened, .operand (.link chain op)⟩, rules.push .atomic)) := by
  obtain rfl | rfl := hkind
  all_goals simp [Progress.next, Progress.nextOperator, hop]

theorem next_leftParen {opened : List Left} {left : Left} {rules : RuleStack} {depth : Nat}
    (hrules : rules.depth = 2 * depth + 4) (hdepth : depth < maxDepth) (text : String) :
    Progress.next ⟨opened, .operand left⟩ (rules.push .atomic) ⟨.leftParen, text⟩ =
      .ok (some (⟨left :: opened, .operand .nothing⟩,
        ((rules.push .atomic).push .expression).push .atomic)) := by
  have hroom : ¬ (rules.push .atomic).isFull = true := by
    rw [isFull_push_atomic_iff hrules]
    exact Nat.not_le_of_lt hdepth
  simp only [Progress.next, Progress.nextOperand, if_neg hroom]

mutual

/-- The tokens of an operand put it behind what stands left of it. -/
theorem SpellsOperand.leads {depth : Nat} {opened : List Left} {left : Left} {rules : RuleStack}
    {operand : Expression} {tokens : List Token} (hoperand : SpellsOperand depth operand tokens)
    (hrules : rules.depth = 2 * depth + 4) :
    Leads ⟨opened, .operand left⟩ (rules.push .atomic) tokens
      ⟨opened, .operator (left.extend operand)⟩ rules := by
  match hoperand with
  | .var _ name => exact .single rfl
  | .string _ text => exact .single rfl
  | .number _ hread => exact .single (by simp [Progress.next, Progress.nextOperand, hread])
  | @SpellsOperand.group _ first links firstTokens linkTokens openText closeText hdepth hfirst
      hlinks =>
    let inner := (rules.push .atomic).push .expression
    have hinner : inner.depth = 2 * (depth + 1) + 4 := by
      rw [RuleStack.depth_push, RuleStack.depth_push, hrules]
      omega
    have hinside : Leads ⟨left :: opened, .operand .nothing⟩ (inner.push .atomic) firstTokens
        ⟨left :: opened, .operator ⟨first, []⟩⟩ inner := hfirst.leads hinner
    have hlinked : Leads ⟨left :: opened, .operator ⟨first, []⟩⟩ inner linkTokens
        ⟨left :: opened, .operator ⟨first, links.reverse ++ []⟩⟩ inner := hlinks.leads hinner
    have hclose : Progress.next ⟨left :: opened, .operator ⟨first, links.reverse ++ []⟩⟩ inner
          ⟨.rightParen, closeText⟩ =
        .ok (some (⟨opened, .operator (left.extend (.ofLinks first links))⟩, rules)) := by
      simp [Progress.next, Progress.nextOperator, close_eq_ofLinks, inner]
    exact .cons (next_leftParen hrules hdepth openText)
      ((hinside.append hlinked).append (.single hclose))

/-- The tokens of links put them behind the chain that they continue. -/
theorem SpellsLinks.leads {depth : Nat} {opened : List Left} {chain : OpenChain}
    {rules : RuleStack} {links : List (Operator × Expression)} {tokens : List Token}
    (hlinks : SpellsLinks depth links tokens) (hrules : rules.depth = 2 * depth + 4) :
    Leads ⟨opened, .operator chain⟩ rules tokens
      ⟨opened, .operator ⟨chain.first, links.reverse ++ chain.links⟩⟩ rules := by
  match hlinks with
  | .nil _ => exact .nil _ _
  | @SpellsLinks.cons _ _ _ op operand links operandTokens _ hkind hop hoperand hrest =>
    have hright : Leads ⟨opened, .operand (.link chain op)⟩ (rules.push .atomic) operandTokens
        ⟨opened, .operator ⟨chain.first, (op, operand) :: chain.links⟩⟩ rules :=
      hoperand.leads hrules
    have hlinked := Leads.cons (next_operator hkind hop) (hright.append (hrest.leads hrules))
    simpa using hlinked

end

/-- A complete expression ends in front of tokens that do not continue it. -/
theorem EndsExpression.continueExpression {chain : OpenChain} {after : List Token}
    (hend : EndsExpression after) (rules : RuleStack) (behind : List Token) :
    Reading.continueExpression ⟨[], .operator chain⟩ (rules.push .expression) behind after =
      .ok (chain.close, ⟨⟨behind, after⟩, rules⟩) := by
  cases after with
  | nil => rfl
  | cons token after =>
    have hnext : Progress.next ⟨[], .operator chain⟩ (rules.push .expression) token =
        .ok none := by
      have hkind := hend token rfl
      obtain ⟨kind, text⟩ := token
      cases kind <;> simp [IsOperatorKind] at hkind <;> rfl
    rw [Reading.continueExpression, hnext]
    rfl

theorem SpellsExpression.readExpression {e : Expression} {tokens after : List Token}
    (haround : around.depth = 3) (hspells : SpellsExpression 0 e tokens)
    (hend : EndsExpression after) (behind : List Token) :
    Reading.readExpression ⟨⟨behind, tokens ++ after⟩, around⟩ =
      .ok (e, ⟨⟨tokens.reverse ++ behind, after⟩, around⟩) := by
  have hrules : (around.push .expression).depth = 2 * 0 + 4 := by
    rw [RuleStack.depth_push, haround]
  cases hspells with
  | intro hfirst hlinks =>
    have hread : Leads {} ((around.push .expression).push .atomic) _ _ (around.push .expression) :=
      (hfirst.leads hrules).append (hlinks.leads hrules)
    rw [Reading.readExpression, hread.continueExpression, hend.continueExpression,
      close_eq_ofLinks]
    simp [Left.extend]

theorem spellsProgress_start (around : RuleStack) :
    SpellsProgress around {} ((around.push .expression).push .atomic) [] :=
  .operand .nil .nothing

/-- Inside three rules, reading accepts exactly the expressions of the grammar that cannot go on,
and leaves the rules as they are. -/
theorem readExpression_eq_ok_iff {cursor : Cursor} {e : Expression} {state : State}
    (haround : around.depth = 3) :
    Reading.readExpression ⟨cursor, around⟩ = .ok (e, state) ↔
      ∃ tokens after, cursor.ahead = tokens ++ after ∧
        state = ⟨⟨tokens.reverse ++ cursor.behind, after⟩, around⟩ ∧
        SpellsExpression 0 e tokens ∧ EndsExpression after := by
  constructor
  · intro hread
    simpa using (spellsProgress_start around).continueExpression haround hread
  · rintro ⟨tokens, after, hahead, rfl, hspells, hend⟩
    obtain ⟨behind, ahead⟩ := cursor
    obtain rfl : ahead = tokens ++ after := hahead
    exact hspells.readExpression haround hend behind

end Grammar

end LineBasic
