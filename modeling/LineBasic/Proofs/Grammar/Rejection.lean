import LineBasic.Proofs.Grammar.Step

/-!
# The place and the rules of a rejection

A list of tokens that is rejected splits into items up to the start of a statement, into the tokens
of that statement that could be read, and into the rest, in front of which the statement breaks off.
The rules that were being followed there are those of the grammar whose tokens have begun and have
not ended, one inside the other; each open parenthesis stands for an expression and an operand.

The grammar of what has begun is stated here as a relation between rules and tokens, beside the
grammar of what is complete, and independently of the order in which tokens are read.  The stack of
rules is what reading has pushed and not popped.  One invariant ties the two together: at each
moment it tells which tokens spell what has been read, and which rules are on the stack.
-/

namespace LineBasic

namespace Grammar

open Reading Cursor

/-- The rules that are being followed where an operand starts, inside those around its statement's
expression: two for each parenthesis that is open, and two for the operand. -/
def nesting (count : Nat) : List Rule :=
  (List.replicate count [Rule.expression, Rule.atomic]).flatten

/-- Among the tokens, as many parentheses are opened and not closed. -/
def LeavesOpen (count : Nat) (tokens : List Token) : Prop :=
  tokens.countP (·.kind = .leftParen) = tokens.countP (·.kind = .rightParen) + count

mutual

/-- The tokens begin an operand, and these rules are being followed behind them. -/
inductive BeginsOperand : Nat → List Rule → List Token → Prop where
  | start (depth : Nat) : BeginsOperand depth [.atomic] []
  | inside {depth : Nat} {rules : List Rule} {tokens : List Token} (openText : String)
      (hdepth : depth < maxDepth) (hinside : BeginsExpression (depth + 1) rules tokens) :
      BeginsOperand depth (.atomic :: rules) (⟨.leftParen, openText⟩ :: tokens)
  | closing {depth : Nat} {e : Expression} {tokens : List Token} (openText : String)
      (hdepth : depth < maxDepth) (hspells : SpellsExpression (depth + 1) e tokens) :
      BeginsOperand depth [.atomic] (⟨.leftParen, openText⟩ :: tokens)

/-- The tokens begin an expression, and these rules are being followed behind them. -/
inductive BeginsExpression : Nat → List Rule → List Token → Prop where
  | operand {depth : Nat} {left : Left} {rules : List Rule} {leftTokens tokens : List Token}
      (hleft : SpellsLeft depth left leftTokens) (hoperand : BeginsOperand depth rules tokens) :
      BeginsExpression depth (.expression :: rules) (leftTokens ++ tokens)
  | operator {depth : Nat} {e : Expression} {tokens : List Token}
      (hspells : SpellsExpression depth e tokens) : BeginsExpression depth [.expression] tokens

end

/-- The tokens begin a statement of a form in front of others, and these rules are being followed
behind them. -/
inductive BeginsStatement : Form → List Rule → List Token → List Token → Prop where
  | value {form : Form} {rules : List Rule} {head tokens after : List Token}
      (htells : TellsForm form head (tokens ++ after)) (hvalue : BeginsExpression 0 rules tokens) :
      BeginsStatement form (form.rule :: rules) (head ++ tokens) after
  | thenWord {condition : Expression} {head tokens after : List Token}
      (htells : TellsForm .conditional head (tokens ++ after))
      (hcondition : SpellsExpression 0 condition tokens) :
      BeginsStatement .conditional [.conditional] (head ++ tokens) after
  | label {condition : Expression} {head tokens after : List Token}
      (htells : TellsForm .conditional head (tokens ++ ⟨.word, "then"⟩ :: after))
      (hcondition : SpellsExpression 0 condition tokens) :
      BeginsStatement .conditional [.conditional] (head ++ (tokens ++ [⟨.word, "then"⟩])) after

/-- A token is the cause of a rejection where a number of parentheses are open, and these rules
follow that of the statement. -/
inductive Refuses (form : Form) (count : Nat) (token : Token) : Cause → List Rule → Prop where
  | noOperand (hkind : ¬ IsOperandKind token.kind) :
      Refuses form count token .noOperand (nesting (count + 1))
  | invalidNumber (hkind : token.kind = .number) (hread : Number.read? token.text.toList = none) :
      Refuses form count token (.invalidNumber token.text) (nesting (count + 1))
  | tooDeeplyNested (hkind : token.kind = .leftParen) (hcount : count = 254) :
      Refuses form count token .tooDeeplyNested (nesting (count + 1))
  | unknownOperator (hkind : IsOperatorKind token.kind)
      (hop : Operator.ofSymbol? token.text = none) :
      Refuses form count token (.unknownOperator token.text) (nesting count ++ [.expression])
  | unclosed (hcount : 1 ≤ count) (hkind : token.kind ≠ .rightParen)
      (hop : ¬ IsOperatorKind token.kind) :
      Refuses form count token (.expected .rightParen) (nesting count)
  | noThen (hform : form = .conditional) (hcount : count = 0) (htoken : token ≠ ⟨.word, "then"⟩) :
      Refuses form count token (.expectedWord "then") []
  | noLabel (hform : form = .conditional) (hcount : count = 0) (hkind : token.kind ≠ .word) :
      Refuses form count token (.expected .word) []

/-! ## Open parentheses -/

section Open

variable {depth left right : Nat} {tokens others : List Token}

theorem leavesOpen_nil : LeavesOpen 0 [] := rfl

theorem LeavesOpen.append (htokens : LeavesOpen left tokens) (hothers : LeavesOpen right others) :
    LeavesOpen (left + right) (tokens ++ others) := by
  rw [LeavesOpen, List.countP_append, List.countP_append, htokens, hothers]
  omega

theorem leavesOpen_singleton {kind : Token.Kind} (text : String) (hleft : kind ≠ .leftParen)
    (hright : kind ≠ .rightParen) : LeavesOpen 0 [⟨kind, text⟩] := by
  simp [LeavesOpen, hleft, hright]

theorem leavesOpen_word (name : String) : LeavesOpen 0 [⟨.word, name⟩] :=
  leavesOpen_singleton name (by decide) (by decide)

theorem leavesOpen_operator {kind : Token.Kind} (hkind : IsOperatorKind kind) (text : String) :
    LeavesOpen 0 [⟨kind, text⟩] := by
  obtain rfl | rfl := hkind <;> exact leavesOpen_singleton text (by decide) (by decide)

theorem leavesOpen_leftParen (text : String) : LeavesOpen 1 [⟨.leftParen, text⟩] := by
  simp [LeavesOpen]

end Open

mutual

theorem SpellsOperand.leavesOpen {depth : Nat} {operand : Expression} {tokens : List Token}
    (hspells : SpellsOperand depth operand tokens) : LeavesOpen 0 tokens := by
  match hspells with
  | .var _ name => exact leavesOpen_word name
  | .string _ text => exact leavesOpen_singleton text (by decide) (by decide)
  | @SpellsOperand.number _ text _ hread =>
    exact leavesOpen_singleton text (by decide) (by decide)
  | .group openText closeText hdepth hfirst hlinks =>
    have hinside := hfirst.leavesOpen.append hlinks.leavesOpen
    simp only [LeavesOpen, List.countP_append] at hinside
    simp [LeavesOpen]
    omega

theorem SpellsLinks.leavesOpen {depth : Nat} {links : List (Operator × Expression)}
    {tokens : List Token} (hspells : SpellsLinks depth links tokens) : LeavesOpen 0 tokens := by
  match hspells with
  | .nil _ => exact leavesOpen_nil
  | @SpellsLinks.cons _ _ text _ _ _ _ _ hkind hop hoperand hlinks =>
    exact (leavesOpen_operator hkind text).append (hoperand.leavesOpen.append hlinks.leavesOpen)

end

section Open

variable {depth : Nat} {tokens : List Token}

theorem SpellsExpression.leavesOpen {e : Expression} (hspells : SpellsExpression depth e tokens) :
    LeavesOpen 0 tokens := by
  obtain ⟨hfirst, hlinks⟩ := hspells
  exact hfirst.leavesOpen.append hlinks.leavesOpen

theorem SpellsLeft.leavesOpen {left : Left} (hspells : SpellsLeft depth left tokens) :
    LeavesOpen 0 tokens := by
  cases hspells with
  | nothing => exact leavesOpen_nil
  | link hchain hkind hop =>
    exact hchain.close.leavesOpen.append (leavesOpen_operator hkind _)

theorem SpellsOpened.leavesOpen {opened : List Left} (hspells : SpellsOpened opened tokens) :
    LeavesOpen opened.length tokens := by
  induction hspells with
  | nil => exact leavesOpen_nil
  | cons text hopened hleft hdepth ih =>
    have hinner := hleft.leavesOpen.append (leavesOpen_leftParen text)
    rw [Nat.zero_add] at hinner
    exact ih.append hinner

theorem SpellsProgress.leavesOpen {around rules : RuleStack} {progress : Progress}
    (hspells : SpellsProgress around progress rules tokens) :
    LeavesOpen progress.opened.length tokens := by
  cases hspells with
  | operand hopened hleft => exact hopened.leavesOpen.append hleft.leavesOpen
  | operator hopened hchain => exact hopened.leavesOpen.append hchain.close.leavesOpen

theorem TellsForm.leavesOpen {form : Form} {head after : List Token}
    (htells : TellsForm form head after) : LeavesOpen 0 head := by
  cases htells <;> rfl

end Open

/-! ## Expressions that break off -/

theorem nesting_succ (depth : Nat) :
    nesting (depth + 1) = nesting depth ++ [.expression, .atomic] := by
  simp [nesting, List.replicate_succ']

theorem path_nested (around : RuleStack) (depth : Nat) :
    (around.nested depth).path = around.path ++ (nesting depth ++ [.expression]) := by
  induction depth with
  | zero => exact RuleStack.path_push around .expression
  | succ depth ih =>
    rw [RuleStack.nested, RuleStack.path_push, RuleStack.path_push, ih, nesting_succ]
    simp

theorem path_nested_push_atomic (around : RuleStack) (depth : Nat) :
    ((around.nested depth).push .atomic).path = around.path ++ nesting (depth + 1) := by
  rw [RuleStack.path_push, path_nested, nesting_succ]
  simp

theorem SpellsOpened.length_le {opened : List Left} {tokens : List Token}
    (hspells : SpellsOpened opened tokens) : opened.length ≤ maxDepth := by
  cases hspells with
  | nil => exact Nat.zero_le _
  | cons text hopened hleft hdepth => exact hdepth

/-- What begins inside all open parentheses begins as an expression outside of them. -/
theorem SpellsOpened.begins {opened : List Left} {outer tokens : List Token} {rules : List Rule}
    (hopened : SpellsOpened opened outer) (hinside : BeginsExpression opened.length rules tokens) :
    BeginsExpression 0 (nesting opened.length ++ rules) (outer ++ tokens) := by
  induction hopened generalizing rules tokens with
  | nil => exact hinside
  | @cons left opened outer inner text hopened hleft hdepth ih =>
    have hgroup := ih (.operand hleft (.inside text hdepth hinside))
    simpa [nesting_succ] using hgroup

section Refuses

variable {around rules : RuleStack} {program : Program} {form : Form} {place : Cursor}
variable {opened : List Left} {rejection : Rejection}

theorem not_isOperandKind_of_nextOperand {left : Left} {token : Token}
    (hnext : Progress.nextOperand opened left rules token = .ok none) :
    ¬ IsOperandKind token.kind := by
  rintro (hkind | hkind | hkind | hkind) <;> simp only [Progress.nextOperand, hkind] at hnext
  · cases hnext
  · cases hnext
  · split at hnext <;> cases hnext
  · split at hnext <;> cases hnext

/-- Where an operand has to stand, what is next is no operand, or one that is refused. -/
theorem refuses_operand {left : Left} (haround : around.depth = 3)
    (hdepth : opened.length ≤ maxDepth)
    (hstep : Step (.expression program form ⟨opened, .operand left⟩
      ⟨place, (around.nested opened.length).push .atomic⟩) (.rejected rejection)) :
    rejection.place = place ∧ rejection.rules = (around.nested opened.length).push .atomic ∧
      Refuses form opened.length rejection.token rejection.cause (nesting (opened.length + 1)) := by
  cases hstep with
  | @refused _ _ _ _ token behind ahead cause hnext =>
    refine ⟨rfl, rfl, ?_⟩
    obtain ⟨kind, text⟩ := token
    simp only [Progress.next, Progress.nextOperand] at hnext
    cases kind with
    | number =>
      simp only at hnext
      split at hnext
      · cases hnext
      · next hread =>
        cases hnext
        exact .invalidNumber rfl hread
    | leftParen =>
      simp only at hnext
      split at hnext
      · next hfull =>
        cases hnext
        rw [isFull_push_atomic_iff (depth_nested_around haround _)] at hfull
        exact .tooDeeplyNested rfl (Nat.le_antisymm hdepth hfull)
      · cases hnext
    | word | string | lineBreak | equals | operator | rightParen | endOfInput => cases hnext
  | unfinished hnext hfinish =>
    cases hfinish
    refine ⟨rfl, rfl, .noOperand ?_⟩
    obtain ⟨behind, ahead⟩ := place
    cases ahead with
    | nil => simp [Rejection.token, current, Token.atEnd, IsOperandKind]
    | cons token ahead => exact not_isOperandKind_of_nextOperand (hnext token rfl)

theorem not_isOperatorKind_of_nextOperator {chain : OpenChain} {token : Token}
    (hnext : Progress.nextOperator opened chain rules token = .ok none) :
    ¬ IsOperatorKind token.kind := by
  rintro (hkind | hkind)
  all_goals
    simp only [Progress.nextOperator, hkind] at hnext
    split at hnext <;> cases hnext

/-- Behind an operand, what is next is an operator that does not exist, or what does not close the
innermost parenthesis, whose expression has ended. -/
theorem refuses_operator {chain : OpenChain}
    (hstep : Step (.expression program form ⟨opened, .operator chain⟩ ⟨place, rules⟩)
      (.rejected rejection)) :
    rejection.place = place ∧
      (rejection.rules = rules ∧ Refuses form opened.length rejection.token rejection.cause
          (nesting opened.length ++ [.expression]) ∨
        opened ≠ [] ∧ rejection.rules = rules.pop ∧
          Refuses form opened.length rejection.token rejection.cause (nesting opened.length)) := by
  cases hstep with
  | @refused _ _ _ _ token behind ahead cause hnext =>
    refine ⟨rfl, .inl ⟨rfl, ?_⟩⟩
    obtain ⟨kind, text⟩ := token
    have hoperator : IsOperatorKind kind → Refuses form opened.length ⟨kind, text⟩ cause
        (nesting opened.length ++ [.expression]) := by
      intro hkind
      cases hop : Operator.ofSymbol? text with
      | some op =>
        rw [next_operator hkind hop] at hnext
        cases hnext
      | none =>
        obtain rfl : cause = .unknownOperator text := by
          obtain rfl | rfl := hkind <;>
            simpa [Progress.next, Progress.nextOperator, hop] using hnext.symm
        exact .unknownOperator hkind hop
    cases kind with
    | operator => exact hoperator (.inl rfl)
    | equals => exact hoperator (.inr rfl)
    | word | number | string | lineBreak | leftParen | rightParen | endOfInput =>
      cases opened <;> cases hnext
  | unfinished hnext hfinish =>
    cases opened with
    | nil => cases hfinish
    | cons left opened =>
      cases hfinish
      refine ⟨rfl, .inr ⟨List.cons_ne_nil _ _, rfl, ?_⟩⟩
      obtain ⟨behind, ahead⟩ := place
      cases ahead with
      | nil =>
        refine .unclosed (Nat.succ_pos _) nofun ?_
        simp [Rejection.token, current, Token.atEnd, IsOperatorKind]
      | cons token ahead =>
        have hnone := hnext token rfl
        refine .unclosed (Nat.succ_pos _) ?_ (not_isOperatorKind_of_nextOperator hnone)
        intro hkind
        obtain ⟨kind, text⟩ := token
        obtain rfl : kind = .rightParen := hkind
        cases hnone

/-- Reading stops at a token that is refused, inside the rules that the tokens behind it begin. -/
theorem SpellsProgress.refuses {progress : Progress} {tokens : List Token}
    (haround : around.depth = 3) (hspells : SpellsProgress around progress rules tokens)
    (hstep : Step (.expression program form progress ⟨place, rules⟩) (.rejected rejection)) :
    rejection.place = place ∧ ∃ inside, rejection.path = around.path ++ inside ∧
      Refuses form progress.opened.length rejection.token rejection.cause inside ∧
      BeginsExpression 0 inside tokens := by
  cases hspells with
  | @operand opened left outer inner hopened hleft =>
    obtain ⟨hplace, hrules, hrefuses⟩ := refuses_operand haround hopened.length_le hstep
    refine ⟨hplace, _, ?_, hrefuses, ?_⟩
    · rw [Rejection.path, hrules, path_nested_push_atomic]
    · have hbegins : BeginsExpression opened.length [.expression, .atomic] (inner ++ []) :=
        .operand hleft (.start _)
      simpa [nesting_succ] using hopened.begins hbegins
  | @operator opened chain outer inner hopened hchain =>
    obtain ⟨hplace, ⟨hrules, hoperator⟩ | ⟨hne, hrules, hunclosed⟩⟩ := refuses_operator hstep
    · refine ⟨hplace, _, ?_, hoperator, hopened.begins (.operator hchain.close)⟩
      rw [Rejection.path, hrules, path_nested]
    · cases hopened with
      | nil => exact absurd rfl hne
      | @cons left opened outer inner text hopened hleft hdepth =>
        refine ⟨hplace, _, ?_, hunclosed, ?_⟩
        · rw [Rejection.path, hrules, List.length_cons, RuleStack.nested, RuleStack.pop_push,
            path_nested_push_atomic]
        · have hbegins := hopened.begins (.operand hleft (.closing text hdepth hchain.close))
          simpa [nesting_succ] using hbegins

end Refuses

/-! ## Moments -/

/-- The rules around the expression of a statement. -/
def around (form : Form) : RuleStack :=
  (outset.push .statement).push form.rule

theorem depth_around (form : Form) : (around form).depth = 3 := rfl

theorem path_around (form : Form) : (around form).path = [.program, .statement, form.rule] := rfl

/-- A list of tokens breaks off in a statement, behind items and behind its own tokens so far. -/
inductive BreaksOff (tokens : List Token) (rejection : Rejection) : Prop where
  | intro {items : List Item} {front own after : List Token} {form : Form} {count : Nat}
      {rules : List Rule} (htokens : tokens = front ++ (own ++ after))
      (hitems : SpellsItems [] items front (own ++ after))
      (hplace : rejection.place = between (front ++ own) after) (hopen : LeavesOpen count own)
      (hpath : rejection.path = [.program, .statement, form.rule] ++ rules)
      (hrefuses : Refuses form count rejection.token rejection.cause rules)
      (hbegins : BeginsStatement form (form.rule :: rules) own after) : BreaksOff tokens rejection

/-- Which tokens spell what has been read at a moment, and which rules are on the stack there. -/
inductive SpellsMoment (tokens : List Token) : Moment → Prop where
  | item {program : Program} {items : List Item} {front after : List Token}
      (htokens : tokens = front ++ after) (hitems : SpellsItems [] items front after) :
      SpellsMoment tokens (.item program ⟨between front after, outset⟩)
  | statement {program : Program} {items : List Item} {front after : List Token}
      (htokens : tokens = front ++ after) (hitems : SpellsItems [] items front after) :
      SpellsMoment tokens (.statement program ⟨between front after, outset.push .statement⟩)
  | form {program : Program} {items : List Item} {front head after : List Token} {form : Form}
      (htokens : tokens = front ++ (head ++ after))
      (hitems : SpellsItems [] items front (head ++ after)) (htells : TellsForm form head after) :
      SpellsMoment tokens (.form program form ⟨between (front ++ head) after, around form⟩)
  | expression {program : Program} {items : List Item} {front head read after : List Token}
      {form : Form} {progress : Progress} {rules : RuleStack}
      (htokens : tokens = front ++ (head ++ (read ++ after)))
      (hitems : SpellsItems [] items front (head ++ (read ++ after)))
      (htells : TellsForm form head (read ++ after))
      (hread : SpellsProgress (around form) progress rules read) :
      SpellsMoment tokens
        (.expression program form progress ⟨between (front ++ (head ++ read)) after, rules⟩)
  | ending {program : Program} {items : List Item} {front head value after : List Token}
      {form : Form} {e : Expression}
      (htokens : tokens = front ++ (head ++ (value ++ after)))
      (hitems : SpellsItems [] items front (head ++ (value ++ after)))
      (htells : TellsForm form head (value ++ after)) (hvalue : SpellsExpression 0 e value)
      (hend : EndsExpression after) :
      SpellsMoment tokens
        (.ending program form e ⟨between (front ++ (head ++ value)) after, around form⟩)
  | stopped {program : Program} {items : List Item} {front after : List Token}
      (htokens : tokens = front ++ after) (hitems : SpellsItems [] items front after) :
      SpellsMoment tokens (.stopped program ⟨between front after, outset⟩)
  | rejected {rejection : Rejection} (hbreaks : BreaksOff tokens rejection) :
      SpellsMoment tokens (.rejected rejection)

theorem spellsMoment_start (tokens : List Token) : SpellsMoment tokens (.start tokens) :=
  .item rfl (.nil [] tokens)

section Between

variable {tokens front after : List Token} {items : List Item} {program : Program}
variable {next : Moment}

/-- A step between items passes over one of them, or goes into the rule of a statement. -/
theorem spellsMoment_of_step_item (htokens : tokens = front ++ after)
    (hitems : SpellsItems [] items front after)
    (hstep : Step (.item program ⟨between front after, outset⟩) next) :
    SpellsMoment tokens next := by
  cases hstep with
  | @lineBreak _ _ token _ hbreak =>
    obtain ⟨after, rfl, hkind, rfl⟩ := matchKind?_between_eq_some_iff.mp hbreak
    obtain ⟨kind, text⟩ := token
    obtain rfl : kind = .lineBreak := hkind
    exact .item (by simpa using htokens) (hitems.concat (.lineBreak text after))
  | label hbreak hlabel =>
    obtain ⟨hstart, after, rfl, hend, rfl⟩ := label?_between_eq_some_iff.mp hlabel
    exact .item (by simpa using htokens) (hitems.concat (.label _ hstart hend))
  | statement => exact .statement htokens hitems

theorem spellsMoment_of_step_statement (htokens : tokens = front ++ after)
    (hitems : SpellsItems [] items front after)
    (hstep : Step (.statement program ⟨between front after, outset.push .statement⟩) next) :
    SpellsMoment tokens next := by
  cases hstep with
  | stop => exact .stopped htokens hitems
  | form hform =>
    obtain ⟨head, after, rfl, rfl, htells⟩ := form?_between_eq_some_iff.mp hform
    exact .form htokens hitems htells

end Between

section Statement

variable {tokens front head after : List Token} {items : List Item} {program : Program}
variable {form : Form} {next : Moment}

theorem spellsMoment_of_step_form (htokens : tokens = front ++ (head ++ after))
    (hitems : SpellsItems [] items front (head ++ after)) (htells : TellsForm form head after)
    (hstep : Step (.form program form ⟨between (front ++ head) after, around form⟩) next) :
    SpellsMoment tokens next := by
  cases hstep with
  | operand =>
    have hread : SpellsMoment tokens (.expression program form {}
        ⟨between (front ++ (head ++ [])) after, ((around form).push .expression).push .atomic⟩) :=
      .expression htokens hitems htells (spellsProgress_start (around form))
    rw [List.append_nil] at hread
    exact hread

/-- A step inside an expression passes over one token of it, leaves a complete expression behind it,
or is refused. -/
theorem spellsMoment_of_step_expression {read : List Token} {progress : Progress}
    {rules : RuleStack} (htokens : tokens = front ++ (head ++ (read ++ after)))
    (hitems : SpellsItems [] items front (head ++ (read ++ after)))
    (htells : TellsForm form head (read ++ after))
    (hread : SpellsProgress (around form) progress rules read)
    (hstep : Step (.expression program form progress
      ⟨between (front ++ (head ++ read)) after, rules⟩) next) :
    SpellsMoment tokens next := by
  have haround := depth_around form
  have hrejected : ∀ rejection, next = .rejected rejection → BreaksOff tokens rejection := by
    rintro rejection rfl
    obtain ⟨hplace, inside, hpath, hrefuses, hbegins⟩ := hread.refuses haround hstep
    have hopen := htells.leavesOpen.append hread.leavesOpen
    rw [Nat.zero_add] at hopen
    rw [← List.append_assoc head] at htokens hitems
    exact .intro htokens hitems hplace hopen hpath hrefuses (.value htells hbegins)
  cases hstep with
  | @token _ _ _ _ _ _ token behind ahead hnext =>
    have hmore := hread.next haround hnext
    have hpassed : SpellsMoment tokens (.expression program form _
        ⟨between (front ++ (head ++ (read ++ [token]))) ahead, _⟩) :=
      .expression (by simpa using htokens) (by simpa using hitems) (by simpa using htells) hmore
    simpa [between] using hpassed
  | finished hnext hfinish =>
    obtain ⟨hvalue, hrules⟩ := hread.finish hfinish
    have hend : EndsExpression after := by
      cases after with
      | nil => exact endsExpression_nil
      | cons token after => exact endsExpression_of_next_eq_none hfinish (hnext token rfl)
    rw [hrules]
    exact .ending htokens hitems htells hvalue hend
  | refused | unfinished => exact .rejected (hrejected _ rfl)

/-- A step behind an expression ends the statement, or it breaks off in front of the word `then` or
behind it. -/
theorem spellsMoment_of_step_ending {value : List Token} {e : Expression}
    (htokens : tokens = front ++ (head ++ (value ++ after)))
    (hitems : SpellsItems [] items front (head ++ (value ++ after)))
    (htells : TellsForm form head (value ++ after)) (hvalue : SpellsExpression 0 e value)
    (hend : EndsExpression after)
    (hstep : Step (.ending program form e
      ⟨between (front ++ (head ++ value)) after, around form⟩) next) :
    SpellsMoment tokens next := by
  have hopen := htells.leavesOpen.append hvalue.leavesOpen
  cases hstep with
  | @ended _ _ _ _ _ statement hending =>
    obtain ⟨ending, after, rfl, rfl, hspells⟩ := (readEnding_between_eq_ok_iff hend).mp hending
    have hstatement : SpellsStatement statement (head ++ (value ++ ending)) after :=
      spellsStatement_iff.mpr ⟨form, head, e, value, ending, rfl, htells, hvalue, hspells⟩
    have hitems : SpellsItems [] items front ((head ++ (value ++ ending)) ++ after) := by
      simpa using hitems
    have hended : SpellsMoment tokens (.item (program.push statement)
        ⟨between (front ++ (head ++ (value ++ ending))) after, outset⟩) :=
      .item (by simpa using htokens) (hitems.concat (.statement hstatement))
    simpa [State.leave, around] using hended
  | broken hending =>
    apply SpellsMoment.rejected
    obtain ⟨rfl, ⟨hthen, rfl⟩ | ⟨word, place, hthen, hlabel, rfl⟩⟩ :=
      readEnding_eq_error_iff.mp hending
    · rw [← List.append_assoc head] at htokens hitems
      refine .intro htokens hitems rfl hopen (path_around _).symm ?_ (.thenWord htells hvalue)
      refine .noThen rfl rfl fun htoken => ?_
      rw [matchWord?_between_eq_none_iff] at hthen
      cases after with
      | nil => cases htoken
      | cons token after => exact hthen (congrArg some htoken)
    · obtain ⟨after, rfl, rfl, rfl⟩ := matchWord?_between_eq_some_iff.mp hthen
      have hopen' := hopen.append (leavesOpen_word "then")
      simp only [List.append_assoc] at hopen'
      refine .intro (by simpa using htokens) (by simpa using hitems) (by simp) hopen'
        (path_around _).symm ?_ (.label htells hvalue)
      refine .noLabel rfl rfl ?_
      rw [matchKind?_between_eq_none_iff] at hlabel
      cases after with
      | nil =>
        intro hkind
        cases hkind
      | cons token after => exact hlabel token after rfl

end Statement

section Moment

variable {tokens : List Token} {moment next : Moment}

/-- The invariant of reading: a step leads from a moment that is spelled to one that is. -/
theorem SpellsMoment.step (hspells : SpellsMoment tokens moment) (hstep : Step moment next) :
    SpellsMoment tokens next := by
  cases hspells with
  | item htokens hitems => exact spellsMoment_of_step_item htokens hitems hstep
  | statement htokens hitems => exact spellsMoment_of_step_statement htokens hitems hstep
  | form htokens hitems htells => exact spellsMoment_of_step_form htokens hitems htells hstep
  | expression htokens hitems htells hread =>
    exact spellsMoment_of_step_expression htokens hitems htells hread hstep
  | ending htokens hitems htells hvalue hend =>
    exact spellsMoment_of_step_ending htokens hitems htells hvalue hend hstep
  | stopped | rejected => cases hstep

theorem spellsMoment_of_reads (hreads : Reads tokens moment) : SpellsMoment tokens moment := by
  induction hreads with
  | refl => exact spellsMoment_start tokens
  | tail hreads hstep ih => exact ih.step hstep

/-- Each moment has its place in the list that is read. -/
theorem tokens_of_reads (hreads : Reads tokens moment) : moment.state.cursor.tokens = tokens := by
  cases spellsMoment_of_reads hreads with
  | item htokens | statement htokens | form htokens | expression htokens | ending htokens
  | stopped htokens => simp [Moment.state, tokens_between, htokens]
  | rejected hbreaks =>
    obtain ⟨htokens, -, hplace⟩ := hbreaks
    simp [Moment.state, hplace, tokens_between, htokens]

theorem breaksOff_of_ofTokens {rejection : Rejection}
    (hread : Program.ofTokens tokens = .error rejection) : BreaksOff tokens rejection := by
  cases spellsMoment_of_reads (reads_rejected_of_ofTokens hread) with
  | rejected hbreaks => exact hbreaks

end Moment

/-- A list of tokens is rejected in front of its token behind some items and the tokens of a
statement that could be read, or behind its last token.  The rules that have been pushed and not
popped there are those of the program, of the statement and of its form, and those that belong to
the cause and to the number of parentheses of the statement that are open; they are the rules that
the tokens of the statement have begun. -/
theorem place_and_rules_of_ofTokens_eq_error {tokens : List Token} {rejection : Rejection}
    (hread : Program.ofTokens tokens = .error rejection) :
    ∃ items front own after form count rules,
      tokens = front ++ (own ++ after) ∧
      SpellsItems [] items front (own ++ after) ∧
      rejection.place = between (front ++ own) after ∧
      rejection.place.position = (front ++ own).length ∧
      rejection.token = after.head?.getD Token.atEnd ∧
      LeavesOpen count own ∧
      rejection.path = [.program, .statement, form.rule] ++ rules ∧
      Refuses form count rejection.token rejection.cause rules ∧
      BeginsStatement form (form.rule :: rules) own after := by
  obtain ⟨htokens, hitems, hplace, hopen, hpath, hrefuses, hbegins⟩ := breaksOff_of_ofTokens hread
  refine ⟨_, _, _, _, _, _, _, htokens, hitems, hplace, ?_, ?_, hopen, hpath, hrefuses, hbegins⟩
  · rw [hplace, position_between]
  · rw [Rejection.token, hplace, current_between]

/-- An operator that does not exist, behind a parenthesis that is closed and inside one that is
not, in the second line. -/
theorem place_and_rules_of_unknown_operator :
    let tokens : List Token := [⟨.word, "loop"⟩, ⟨.lineBreak, "\n"⟩, ⟨.word, "if"⟩,
      ⟨.leftParen, "("⟩, ⟨.leftParen, "("⟩, ⟨.word, "a"⟩, ⟨.rightParen, ")"⟩, ⟨.operator, "%"⟩,
      ⟨.word, "b"⟩]
    ∃ rejection, Program.ofTokens tokens = .error rejection ∧
      rejection.place.position = 7 ∧ rejection.token = ⟨.operator, "%"⟩ ∧
      rejection.path =
        [.program, .statement, .conditional, .expression, .atomic, .expression] ∧
      ∃ items front own after form count rules,
        tokens = front ++ (own ++ after) ∧ SpellsItems [] items front (own ++ after) ∧
        rejection.place.position = (front ++ own).length ∧ LeavesOpen count own ∧
        rejection.path = [.program, .statement, form.rule] ++ rules ∧
        Refuses form count rejection.token rejection.cause rules ∧
        BeginsStatement form (form.rule :: rules) own after := by
  intro tokens
  have hread : Program.ofTokens tokens = .error ⟨.unknownOperator "%",
      ⟨[.expression, .atomic, .expression, .conditional, .statement, .program]⟩,
      between (tokens.take 7) (tokens.drop 7)⟩ := by
    cbv
  obtain ⟨items, front, own, after, form, count, rules, htokens, hspells, -, hposition, -, hopen,
    hpath, hrefuses, hbegins⟩ := place_and_rules_of_ofTokens_eq_error hread
  exact ⟨_, hread, rfl, rfl, rfl, items, front, own, after, form, count, rules, htokens, hspells,
    hposition, hopen, hpath, hrefuses, hbegins⟩

end Grammar

end LineBasic
