import LineBasic.Proofs.Grammar.Rejection
import LineBasic.Proofs.Listing.Program

/-!
# The nesting limit

The rules that are being followed lie inside each other: the program, the statement and its form,
and an expression and an operand for each open parenthesis and for the operand that is being read.
A parenthesis is refused where the stack of rules is full, which is where 254 of its statement are
open, so there are never more than 513 rules on the stack.  What has been closed, the links of a
chain and the statements in front do not matter.

The bound is one of each moment of reading, by the invariant of its steps.  That a parenthesis is
passed over, or refused, whatever follows it, is the step that reading takes where it has come to
it.
-/

namespace LineBasic

namespace Grammar

open Reading Cursor

variable {depth count : Nat} {form : Form} {items : List Item} {rules : RuleStack}
variable {before tokens front own head read rest after : List Token} {token : Token}
variable {opened : List Left} {left : Left} {chain : OpenChain} {progress : Progress}
variable {moment next : Moment}

/-! ## The rules of a moment -/

theorem SpellsProgress.length_le {around : RuleStack}
    (hread : SpellsProgress around progress rules read) : progress.opened.length ≤ maxDepth := by
  cases hread with
  | operand hopened | operator hopened => exact hopened.length_le

theorem SpellsProgress.depth_le {around : RuleStack} (haround : around.depth = 3)
    (hread : SpellsProgress around progress rules read) : rules.depth ≤ 513 := by
  have hle : progress.opened.length ≤ 254 := hread.length_le
  cases hread with
  | operand =>
    rw [RuleStack.depth_push, depth_nested_around haround]
    simp only at hle
    omega
  | operator =>
    rw [depth_nested_around haround]
    simp only at hle
    omega

/-- A rejection takes rules that are on the stack. -/
theorem depth_le_of_step_rejected {rejection : Rejection}
    (hstep : Step moment (.rejected rejection)) :
    rejection.rules.depth ≤ moment.rules.depth := by
  cases hstep with
  | refused => exact Nat.le_refl _
  | @unfinished _ _ progress state =>
    obtain ⟨opened, left | chain⟩ := progress
    · exact Nat.le_refl _
    · exact state.rules.entries_pop_suffix.length_le
  | broken hending =>
    obtain ⟨-, ⟨-, rfl⟩ | ⟨word, place, -, -, rfl⟩⟩ := readEnding_eq_error_iff.mp hending
    all_goals exact Nat.le_refl _

theorem SpellsMoment.depth_le (hspells : SpellsMoment tokens moment)
    (hmoment : ∀ rejection, moment ≠ .rejected rejection) : moment.rules.depth ≤ 513 := by
  cases hspells with
  | item | stopped => exact (by decide : 1 ≤ 513)
  | statement => exact (by decide : 2 ≤ 513)
  | form | ending => exact (by decide : 3 ≤ 513)
  | expression htokens hitems htells hread => exact hread.depth_le (depth_around _)
  | rejected => exact absurd rfl (hmoment _)

/-- At no moment of reading there are more than 513 rules on the stack. -/
theorem depth_le_of_reads (hreads : Reads tokens moment) : moment.rules.depth ≤ 513 := by
  obtain rfl | ⟨last, hlast, hstep⟩ := hreads.cases_tail
  · exact (by decide : 1 ≤ 513)
  · have hspells := spellsMoment_of_reads hreads
    cases moment with
    | rejected rejection =>
      have hbefore : last.rules.depth ≤ 513 := by
        refine (spellsMoment_of_reads hlast).depth_le ?_
        rintro rejection rfl
        cases hstep
      exact Nat.le_trans (depth_le_of_step_rejected hstep) hbefore
    | item | statement | form | expression | ending | stopped => exact hspells.depth_le nofun

/-! ## Reading comes to a place inside an expression -/

theorem SpellsItems.steps (hitems : SpellsItems before items tokens after) (program : Program) :
    Steps (.item program ⟨between before (tokens ++ after), outset⟩)
      (.item (items.foldl addItem program) ⟨between (before ++ tokens) after, outset⟩) := by
  induction hitems generalizing program with
  | nil before after =>
    rw [List.append_nil]
    exact .refl
  | @cons before first rest after item items hitem hitems ih =>
    have hfirst := steps_readItem program ⟨between before (first ++ (rest ++ after)), outset⟩
    rw [hitem.readItem] at hfirst
    rw [List.append_assoc, ← List.append_assoc before]
    exact hfirst.trans (ih (addItem program item))

theorem TellsForm.steps (htells : TellsForm form head rest) (hrest : StartsOperand rest)
    (before : List Token) (program : Program) :
    Steps (.item program ⟨between before (head ++ rest), outset⟩)
      (.form program form ⟨between (before ++ head) rest, around form⟩) := by
  have hbreak := htells.matchKind?_eq_none before
  have hlabel := htells.label?_eq_none hrest before
  exact .head (.statement hbreak hlabel) (.single (.form (htells.form? before)))

theorem Leads.steps {start last : Progress} {rulesStart rulesLast : RuleStack}
    (hleads : Leads start rulesStart tokens last rulesLast) (program : Program) (form : Form)
    (behind ahead : List Token) :
    Steps (.expression program form start ⟨⟨behind, tokens ++ ahead⟩, rulesStart⟩)
      (.expression program form last ⟨⟨tokens.reverse ++ behind, ahead⟩, rulesLast⟩) := by
  induction hleads generalizing behind with
  | nil => exact .refl
  | @cons _ _ _ _ _ _ token tokens hnext hrest ih =>
    rw [List.reverse_cons, List.append_assoc]
    exact .head (.token hnext) (ih (token :: behind))

section Leads

variable {around : RuleStack} (haround : around.depth = 3)

theorem SpellsChain.leads (hchain : SpellsChain depth chain tokens)
    (hrules : rules.depth = 2 * depth + 4) :
    Leads ⟨opened, .operand .nothing⟩ (rules.push .atomic) tokens
      ⟨opened, .operator chain⟩ rules := by
  obtain ⟨hfirst, hlinks⟩ := hchain
  have hoperand : Leads ⟨opened, .operand .nothing⟩ (rules.push .atomic) _
      ⟨opened, .operator ⟨chain.first, []⟩⟩ rules := hfirst.leads hrules
  simpa using hoperand.append (hlinks.leads hrules)

theorem SpellsLeft.leads (hleft : SpellsLeft depth left tokens)
    (hrules : rules.depth = 2 * depth + 4) :
    Leads ⟨opened, .operand .nothing⟩ (rules.push .atomic) tokens
      ⟨opened, .operand left⟩ (rules.push .atomic) := by
  cases hleft with
  | nothing => exact .nil _ _
  | link hchain hkind hop =>
    exact (hchain.leads hrules).append (.single (next_operator hkind hop))

include haround

theorem SpellsOpened.leads (hopened : SpellsOpened opened tokens) :
    Leads {} ((around.push .expression).push .atomic) tokens
      ⟨opened, .operand .nothing⟩ ((around.nested opened.length).push .atomic) := by
  induction hopened with
  | nil => exact .nil _ _
  | @cons left opened outer inner text hopened hleft hdepth ih =>
    have hrules := depth_nested_around haround opened.length
    exact ih.append ((hleft.leads hrules).append (.single (next_leftParen hrules hdepth text)))

/-- What has been read of an expression leads to where it has been read. -/
theorem SpellsProgress.leads (hread : SpellsProgress around progress rules read) :
    Leads {} ((around.push .expression).push .atomic) read progress rules := by
  cases hread with
  | operand hopened hleft =>
    exact (hopened.leads haround).append (hleft.leads (depth_nested_around haround _))
  | operator hopened hchain =>
    exact (hopened.leads haround).append (hchain.leads (depth_nested_around haround _))

end Leads

/-- Behind items and the first tokens of a statement, reading comes to the place behind what has
been read of its expression. -/
theorem reads_expression (hitems : SpellsItems [] items front (head ++ (read ++ rest)))
    (htells : TellsForm form head (read ++ rest)) (hstarts : StartsOperand (read ++ rest))
    (hread : SpellsProgress (around form) progress rules read) :
    Reads (front ++ (head ++ (read ++ rest)))
      (.expression (items.foldl addItem {}) form progress
        ⟨between (front ++ (head ++ read)) rest, rules⟩) := by
  have hitem := hitems.steps {}
  have hform := htells.steps hstarts front (items.foldl addItem {})
  have hvalue := (hread.leads (depth_around form)).steps (items.foldl addItem {}) form
    (between (front ++ head) (read ++ rest)).behind rest
  rw [← List.append_assoc front head read, between_append (front ++ head) read rest]
  exact hitem.trans (hform.trans (.head .operand hvalue))

/-! ## Expressions that can be completed -/

/-- Parentheses that close those that are open. -/
def closings (count : Nat) : List Token :=
  List.replicate count ⟨.rightParen, ")"⟩

theorem SpellsProgress.exists_closings {around : RuleStack} (haround : around.depth = 3)
    (hread : SpellsProgress around ⟨opened, .operator chain⟩ rules read) :
    ∃ e, SpellsExpression 0 e (read ++ closings opened.length) := by
  induction opened generalizing chain read rules with
  | nil => exact ⟨_, by simpa [closings] using (hread.finish rfl).1⟩
  | cons left opened ih =>
    have hclose : Progress.next ⟨left :: opened, .operator chain⟩ rules ⟨.rightParen, ")"⟩ =
        .ok (some (⟨opened, .operator (left.extend chain.close)⟩, rules.pop.pop)) := rfl
    obtain ⟨e, hspells⟩ := ih (hread.next haround hclose)
    exact ⟨e, by simpa [closings, List.replicate_succ] using hspells⟩

/-- What has been read in front of an operand can be completed. -/
theorem SpellsProgress.exists_spellsExpression {around : RuleStack} (haround : around.depth = 3)
    (hread : SpellsProgress around ⟨opened, .operand left⟩ rules read) :
    ∃ e, SpellsExpression 0 e (read ++ ⟨.word, "x"⟩ :: closings opened.length) := by
  have hword : Progress.next ⟨opened, .operand left⟩ rules ⟨.word, "x"⟩ =
      .ok (some (⟨opened, .operator (left.extend (.var "x"))⟩, rules.pop)) := rfl
  obtain ⟨e, hspells⟩ := (hread.next haround hword).exists_closings haround
  exact ⟨e, by simpa using hspells⟩

/-- An expression that goes on with an operand starts with one. -/
theorem SpellsProgress.startsOperand {around : RuleStack} (haround : around.depth = 3)
    (hread : SpellsProgress around ⟨opened, .operand left⟩ rules read)
    (hkind : IsOperandKind token.kind) (after : List Token) :
    StartsOperand (read ++ token :: after) := by
  cases read with
  | nil => exact ⟨token, rfl, hkind⟩
  | cons first rest =>
    obtain ⟨e, hspells⟩ := hread.exists_spellsExpression haround
    exact hspells.startsOperand []

/-- Some tokens complete a statement behind its expression. -/
theorem exists_spellsEnding (form : Form) (e : Expression) :
    ∃ statement ending, SpellsEnding e form statement ending [] := by
  cases form with
  | assignment name => exact ⟨_, _, .assignment name endsExpression_nil⟩
  | print => exact ⟨_, _, .print endsExpression_nil⟩
  | conditional => exact ⟨_, _, .conditional "x" []⟩

theorem SpellsItems.ofTokens_append_statement (hitems : SpellsItems [] items front own)
    {statement : Statement} (hspells : SpellsStatement statement own []) :
    Program.ofTokens (front ++ own) = .ok ((items.foldl addItem {}).push statement) := by
  rw [← List.append_nil own] at hitems
  have hread := (hitems.concat (.statement hspells)).ofTokens_eq_ok (not_startsItem_nil _)
  simpa [List.foldl_append, addItem] using hread

/-! ## Parentheses where an operand may start -/

/-- Behind items and the first tokens of a statement an operand may start; as many parentheses of
the statement are open there. -/
inductive AwaitsOperand (items : List Item) (form : Form) :
    List Token → List Token → Nat → Prop where
  | intro {front head read : List Token} {opened : List Left} {left : Left} {rules : RuleStack}
      {count : Nat} (hitems : SpellsItems [] items front (head ++ read))
      (htells : TellsForm form head read)
      (hread : SpellsProgress (around form) ⟨opened, .operand left⟩ rules read)
      (hopen : LeavesOpen count (head ++ read)) :
      AwaitsOperand items form front (head ++ read) count

/-- Reading comes to the start of an operand between two lists of tokens, and there are the rules of
as many open parentheses on the stack. -/
def ReadsOperand (form : Form) (count : Nat) (before after : List Token) : Prop :=
  ∃ program opened left rules,
    Reads (before ++ after)
      (.expression program form ⟨opened, .operand left⟩ ⟨between before after, rules⟩) ∧
    rules.path = [.program, .statement, form.rule] ++ nesting (count + 1)

/-- What happens to a parenthesis behind the tokens of items and the first tokens of a statement,
where an operand may start and a number of parentheses of the statement are open. -/
structure LimitsParenthesis (items : List Item) (form : Form) (front own : List Token) (count : Nat)
    (text : String) : Prop where
  count_le : count ≤ 254
  met : ∀ after, ReadsOperand form count (front ++ own) (⟨.leftParen, text⟩ :: after)
  passed : count ≤ 253 → ∀ after,
    ReadsOperand form (count + 1) (front ++ own ++ [⟨.leftParen, text⟩]) after ∧
      ∀ rejection,
        Program.ofTokens (front ++ (own ++ ⟨.leftParen, text⟩ :: after)) = .error rejection →
          (front ++ own).length < rejection.place.position
  accepted : count ≤ 253 → ∃ after statement,
    SpellsStatement statement (own ++ ⟨.leftParen, text⟩ :: after) [] ∧
      Program.ofTokens (front ++ (own ++ ⟨.leftParen, text⟩ :: after)) =
        .ok ((items.foldl addItem {}).push statement)
  refused : count = 254 → ∀ after, ∃ rejection,
    Program.ofTokens (front ++ (own ++ ⟨.leftParen, text⟩ :: after)) = .error rejection ∧
      rejection.cause = .tooDeeplyNested ∧ rejection.place.position = (front ++ own).length ∧
      rejection.token = ⟨.leftParen, text⟩ ∧ rejection.path.length = 513

theorem LeavesOpen.unique {other : Nat} (hopen : LeavesOpen count tokens)
    (hother : LeavesOpen other tokens) : count = other := by
  rw [LeavesOpen] at hopen hother
  omega

theorem isOperandKind_leftParen (text : String) :
    IsOperandKind (⟨.leftParen, text⟩ : Token).kind := by
  simp [IsOperandKind]

/-- Where an operand starts, the stack holds two rules for each open parenthesis and two more. -/
theorem SpellsProgress.rules_eq {around : RuleStack}
    (hread : SpellsProgress around ⟨opened, .operand left⟩ rules read) :
    rules = (around.nested opened.length).push .atomic := by
  cases hread with
  | operand => rfl

/-- A parenthesis goes behind what has been read if one more may be open. -/
theorem SpellsProgress.leftParen {around : RuleStack} (haround : around.depth = 3)
    (hread : SpellsProgress around ⟨opened, .operand left⟩ rules read)
    (hdepth : opened.length < maxDepth) (text : String) :
    ∃ inside, SpellsProgress around ⟨left :: opened, .operand .nothing⟩ inside
      (read ++ [⟨.leftParen, text⟩]) := by
  obtain rfl := hread.rules_eq
  have hrules := depth_nested_around haround opened.length
  exact ⟨_, hread.next haround (next_leftParen hrules hdepth text)⟩

theorem readsOperand (hitems : SpellsItems [] items front (head ++ (read ++ rest)))
    (htells : TellsForm form head (read ++ rest)) (hstarts : StartsOperand (read ++ rest))
    (hread : SpellsProgress (around form) ⟨opened, .operand left⟩ rules read) :
    ReadsOperand form opened.length (front ++ (head ++ read)) rest := by
  have hreads := reads_expression hitems htells hstarts hread
  refine ⟨items.foldl addItem {}, opened, left, rules, by simpa using hreads, ?_⟩
  rw [hread.rules_eq, path_nested_push_atomic, path_around]

/-- What is rejected is rejected behind each place that reading has come to. -/
theorem position_le_of_reads {rejection : Rejection} (hreads : Reads tokens moment)
    (hread : Program.ofTokens tokens = .error rejection) :
    moment.state.cursor.position ≤ rejection.place.position := by
  obtain ⟨last, hsteps, hresult⟩ := hreads.exists_steps
  obtain rfl : last = .rejected rejection := by
    rw [hread] at hresult
    cases last <;> cases hresult
    rfl
  have hlength : ∀ cursor : Cursor, cursor.tokens.length = cursor.position + cursor.ahead.length :=
    fun cursor => by simp [Cursor.tokens, position]
  have hahead : rejection.place.ahead.length ≤ moment.state.cursor.ahead.length :=
    hsteps.length_ahead_le
  have hplace : rejection.place.tokens = tokens := tokens_of_reads (hreads.trans hsteps)
  have hwhole := (hlength rejection.place).symm.trans (congrArg List.length hplace)
  have hmoment := (hlength moment.state.cursor).symm.trans
    (congrArg List.length (tokens_of_reads hreads))
  omega

section Operand

variable (hitems : SpellsItems [] items front (head ++ read)) (htells : TellsForm form head read)
variable (hread : SpellsProgress (around form) ⟨opened, .operand left⟩ rules read) (text : String)

include hread in
theorem startsOperand_leftParen (after : List Token) :
    StartsOperand (read ++ ⟨.leftParen, text⟩ :: after) :=
  hread.startsOperand (depth_around form) (isOperandKind_leftParen text) after

include hread htells in
theorem tellsForm_leftParen (after : List Token) :
    TellsForm form head (read ++ ⟨.leftParen, text⟩ :: after) := by
  have hnext := (startsOperand_leftParen hread text after).ne_equals
  cases htells with
  | assignment name text => exact .assignment name text _
  | print => exact .print hnext
  | conditional => exact .conditional hnext

include hitems htells in
theorem spellsItems_leftParen (after : List Token) :
    SpellsItems [] items front (head ++ (read ++ ⟨.leftParen, text⟩ :: after)) := by
  apply hitems.congr_head?
  cases htells <;> rfl

include hitems htells hread

theorem readsOperand_leftParen (after : List Token) :
    ReadsOperand form opened.length (front ++ (head ++ read)) (⟨.leftParen, text⟩ :: after) :=
  readsOperand (spellsItems_leftParen hitems htells text after)
    (tellsForm_leftParen htells hread text after) (startsOperand_leftParen hread text after) hread

/-- If one more parenthesis may be open, then the parenthesis is passed over. -/
theorem readsOperand_behind_leftParen (hdepth : opened.length < maxDepth) (after : List Token) :
    ReadsOperand form (opened.length + 1) (front ++ (head ++ read) ++ [⟨.leftParen, text⟩])
      after := by
  obtain ⟨inside, hinside⟩ := hread.leftParen (depth_around form) hdepth text
  have hitems' := spellsItems_leftParen hitems htells text after
  have htells' := tellsForm_leftParen htells hread text after
  have hstarts := startsOperand_leftParen hread text after
  rw [← List.singleton_append, ← List.append_assoc read] at hitems' htells' hstarts
  have hreads := readsOperand hitems' htells' hstarts hinside
  simpa using hreads

/-- If one more parenthesis may be open, then some tokens behind it complete the statement. -/
theorem exists_ofTokens_leftParen (hdepth : opened.length < maxDepth) :
    ∃ after statement,
      SpellsStatement statement (head ++ (read ++ ⟨.leftParen, text⟩ :: after)) [] ∧
        Program.ofTokens (front ++ (head ++ (read ++ ⟨.leftParen, text⟩ :: after))) =
          .ok ((items.foldl addItem {}).push statement) := by
  obtain ⟨inside, hinside⟩ := hread.leftParen (depth_around form) hdepth text
  obtain ⟨e, hvalue⟩ := hinside.exists_spellsExpression (depth_around form)
  obtain ⟨statement, ending, hending⟩ := exists_spellsEnding form e
  have htells' := tellsForm_leftParen htells hread text
    (⟨.word, "x"⟩ :: closings (opened.length + 1) ++ (ending ++ []))
  have hspells : SpellsStatement statement _ [] := spellsStatement_iff.mpr
    ⟨form, head, e, _, ending, rfl, by simpa using htells', hvalue, hending⟩
  simp only [List.append_assoc, List.cons_append] at hspells
  exact ⟨_, statement, hspells,
    (spellsItems_leftParen hitems htells text _).ofTokens_append_statement hspells⟩

/-- If no more parentheses may be open, then the parenthesis is rejected. -/
theorem ofTokens_leftParen_eq_error (hdepth : opened.length = maxDepth) (after : List Token) :
    Program.ofTokens (front ++ (head ++ (read ++ ⟨.leftParen, text⟩ :: after))) =
      .error ⟨.tooDeeplyNested, rules,
        between (front ++ (head ++ read)) (⟨.leftParen, text⟩ :: after)⟩ := by
  have hreads := reads_expression (spellsItems_leftParen hitems htells text after)
    (tellsForm_leftParen htells hread text after) (startsOperand_leftParen hread text after) hread
  have hfull : rules.isFull = true := by
    rw [hread.rules_eq, isFull_push_atomic_iff (depth_nested_around (depth_around form) _)]
    exact Nat.le_of_eq hdepth.symm
  have hnext : Progress.next ⟨opened, .operand left⟩ rules ⟨.leftParen, text⟩ =
      .error .tooDeeplyNested := by
    simp only [Progress.next, Progress.nextOperand, if_pos hfull]
  exact exists_reads_result_iff.mp ⟨_, hreads.tail (.refused hnext), rfl⟩

end Operand

theorem AwaitsOperand.limitsParenthesis (hawaits : AwaitsOperand items form front own count)
    (text : String) : LimitsParenthesis items form front own count text := by
  cases hawaits with
  | @intro head read opened left rules _ hitems htells hread hopen =>
    obtain rfl : count = opened.length := by
      have hopened := htells.leavesOpen.append hread.leavesOpen
      rw [Nat.zero_add] at hopened
      exact hopen.unique hopened
    constructor
    case count_le => exact hread.length_le
    case met => exact readsOperand_leftParen hitems htells hread text
    case passed =>
      intro hcount after
      have hpassed := readsOperand_behind_leftParen hitems htells hread text
        (Nat.lt_succ_of_le hcount) after
      refine ⟨hpassed, fun rejection hrejected => ?_⟩
      obtain ⟨program, inner, last, rulesInner, hreads, -⟩ := hpassed
      have hle := position_le_of_reads hreads (by simpa using hrejected)
      rw [Moment.state, position_between, List.length_append] at hle
      exact hle
    case accepted =>
      intro hcount
      simp only [List.append_assoc]
      exact exists_ofTokens_leftParen hitems htells hread text (Nat.lt_succ_of_le hcount)
    case refused =>
      intro hcount after
      simp only [List.append_assoc]
      refine ⟨_, ofTokens_leftParen_eq_error hitems htells hread text hcount after, rfl, ?_, rfl,
        ?_⟩
      · exact position_between _ _
      · rw [Rejection.path, RuleStack.length_path, hread.rules_eq, RuleStack.depth_push,
          depth_nested_around (depth_around form), hcount]

/-- Each parenthesis that reading comes to where an operand may start is one of those. -/
theorem awaitsOperand_of_reads {program : Program} {place : Cursor}
    (hreads : Reads tokens (.expression program form ⟨opened, .operand left⟩ ⟨place, rules⟩)) :
    ∃ items front own, tokens = front ++ (own ++ place.ahead) ∧
      place = between (front ++ own) place.ahead ∧
      AwaitsOperand items form front own opened.length := by
  cases spellsMoment_of_reads hreads with
  | @expression _ items front head read after _ _ _ htokens hitems htells hread =>
    have hopen := htells.leavesOpen.append hread.leavesOpen
    rw [Nat.zero_add] at hopen
    refine ⟨items, front, head ++ read, by simpa using htokens, rfl, .intro ?_ ?_ hread hopen⟩
    · apply hitems.congr_head?
      cases htells <;> rfl
    · have hhead : ∀ token ∈ read.head?, token ∈ (read ++ after).head? := by
        intro token htoken
        simp [List.head?_append, Option.mem_def.mp htoken]
      cases htells with
      | assignment name text => exact .assignment name text _
      | print hnext => exact .print fun token htoken => hnext token (hhead token htoken)
      | conditional hnext => exact .conditional fun token htoken => hnext token (hhead token htoken)

/-! ## Long chains and deep chains -/

/-- A chain of variables that are compared. -/
theorem spellsLinks_replicate (count : Nat) :
    SpellsLinks 0 (List.replicate count (.equal, .var "x"))
      (List.replicate count [⟨.equals, "="⟩, ⟨.word, "x"⟩]).flatten := by
  induction count with
  | zero => exact .nil 0
  | succ count ih => exact .cons (.inr rfl) rfl (.var 0 "x") ih

theorem exists_ofTokens_long_chain (count : Nat) :
    ∃ tokens, Program.ofTokens tokens = .ok (({} : Program).push
      (.print (.chain (.var "x") (List.replicate (count + 1) (.equal, .var "x"))))) := by
  have hvalue := SpellsExpression.intro (.var 0 "x") (spellsLinks_replicate (count + 1))
  exact ⟨_, (SpellsItems.nil [] _).ofTokens_append_statement (.print hvalue endsExpression_nil)⟩

/-- There are never more than 513 rules on the stack while a list of tokens is read, neither at a
moment of reading nor, since a step only goes into rules or only goes out of rules, between two of
them; and the moments of reading are all that there are up to its result.  Where an operand may
start, 254 parentheses of a statement may be open, whatever has been closed: one more is refused,
whatever follows it, and one that is passed over can be followed by tokens that complete the
statement.  So chains are at most 255 inside each other, which some are, while a single one may have
any number of links. -/
theorem nesting_limit :
    (∀ tokens moment, Reads tokens moment → moment.rules.depth ≤ 513) ∧
    (∀ moment next, Step moment next →
      moment.rules.entries <:+ next.rules.entries ∨ next.rules.entries <:+ moment.rules.entries) ∧
    (∀ tokens result, (∃ moment, Reads tokens moment ∧ moment.result? = some result) ↔
      Program.ofTokens tokens = result) ∧
    (∀ tokens program form opened left place rules,
      Reads tokens (.expression program form ⟨opened, .operand left⟩ ⟨place, rules⟩) →
        ∃ items front own, tokens = front ++ (own ++ place.ahead) ∧
          place = between (front ++ own) place.ahead ∧
          AwaitsOperand items form front own opened.length) ∧
    (∀ (items : List Item) (form : Form) (front own : List Token) (count : Nat),
      AwaitsOperand items form front own count →
        ∀ text, LimitsParenthesis items form front own count text) ∧
    (∀ tokens program, Program.ofTokens tokens = .ok program →
      ∀ statement ∈ program.statements, statement.expression.chainDepth ≤ 255) ∧
    (∃ tokens program, Program.ofTokens tokens = .ok program ∧
      ∃ statement ∈ program.statements, statement.expression.chainDepth = 255) ∧
    ∀ count, ∃ tokens, Program.ofTokens tokens = .ok (({} : Program).push
      (.print (.chain (.var "x") (List.replicate (count + 1) (.equal, .var "x"))))) := by
  refine ⟨fun tokens moment hreads => depth_le_of_reads hreads,
    fun moment next hstep => hstep.rules,
    fun tokens result => exists_reads_result_iff,
    fun tokens program form opened left place rules hreads => awaitsOperand_of_reads hreads,
    fun items form front own count hawaits text => hawaits.limitsParenthesis text,
    fun tokens program hread => Program.chainDepth_le_of_ofTokens hread, ?_,
    exists_ofTokens_long_chain⟩
  have hlegible := Expression.legible_nestedSum 255
  have hdepth := Expression.chainDepth_nestedSum 255
  have hread := Program.ofSource_print_openListing hlegible (Nat.le_of_eq hdepth)
  exact ⟨_, _, hread, .print (.nestedSum 255), by simp [Program.push], hdepth⟩

/-- Parentheses may be opened up to the limit. -/
theorem SpellsProgress.exists_openings {around : RuleStack} (haround : around.depth = 3)
    (hread : SpellsProgress around ⟨opened, .operand left⟩ rules read) (count : Nat)
    (hdepth : opened.length + count ≤ maxDepth) :
    ∃ inner last inside, inner.length = opened.length + count ∧
      SpellsProgress around ⟨inner, .operand last⟩ inside
        (read ++ List.replicate count ⟨.leftParen, "("⟩) := by
  induction count generalizing opened left rules read with
  | zero => exact ⟨opened, left, rules, rfl, by simpa using hread⟩
  | succ count ih =>
    obtain ⟨inside, hinside⟩ := hread.leftParen haround (by omega) "("
    obtain ⟨inner, last, innermost, hlength, hspells⟩ :=
      ih hinside (by rw [List.length_cons]; omega)
    rw [List.length_cons] at hlength
    exact ⟨inner, last, innermost, by omega, by simpa [List.replicate_succ] using hspells⟩

/-- Behind a parenthesis that is closed again, and in the second statement, 254 parentheses may be
opened, and no more. -/
theorem nesting_limit_behind_closed_parenthesis :
    let front : List Token := [⟨.word, "x"⟩, ⟨.equals, "="⟩, ⟨.leftParen, "("⟩, ⟨.word, "a"⟩,
      ⟨.rightParen, ")"⟩, ⟨.lineBreak, "\n"⟩]
    let own (count : Nat) : List Token := [⟨.word, "print"⟩] ++
      ([⟨.leftParen, "("⟩, ⟨.word, "a"⟩, ⟨.rightParen, ")"⟩, ⟨.operator, "+"⟩] ++
        List.replicate count ⟨.leftParen, "("⟩)
    (∃ after program, Program.ofTokens (front ++ (own 253 ++ ⟨.leftParen, "("⟩ :: after)) =
      .ok program ∧ program.statements.size = 2) ∧
    ∀ after, ∃ rejection,
      Program.ofTokens (front ++ (own 254 ++ ⟨.leftParen, "("⟩ :: after)) = .error rejection ∧
        rejection.cause = .tooDeeplyNested ∧ rejection.place.position = 265 ∧
        rejection.path.length ≤ 513 := by
  intro front own
  obtain ⟨hdepth, -, hresult, -, hlimits, -⟩ := nesting_limit
  have hgroup : SpellsOperand 0 (.var "a") [⟨.leftParen, "("⟩, ⟨.word, "a"⟩, ⟨.rightParen, ")"⟩] :=
    .group "(" ")" (by decide) (.var 1 "a") (.nil 1)
  have hawaits : ∀ count, count ≤ maxDepth → AwaitsOperand
      [.statement (.assign "x" (.var "a")), .lineBreak] .print front (own count) count := by
    intro count hcount
    have hassign : SpellsStatement (.assign "x" (.var "a")) _ (⟨.lineBreak, "\n"⟩ :: own count) :=
      .assign "=" (.intro hgroup (.nil 0)) (by simp [EndsExpression, IsOperatorKind])
    have hchain : SpellsChain 0 ⟨.var "a", []⟩ _ := .intro hgroup (.nil 0)
    have hsum : SpellsLeft 0 (.link ⟨.var "a", []⟩ .plus) (_ ++ [⟨.operator, "+"⟩]) :=
      .link hchain (.inl rfl) rfl
    have hstart : SpellsProgress (around .print) ⟨[], .operand (.link ⟨.var "a", []⟩ .plus)⟩ _ _ :=
      .operand .nil hsum
    obtain ⟨inner, last, inside, hlength, hread⟩ :=
      hstart.exists_openings (depth_around .print) count (by simpa using hcount)
    have hopen := hread.leavesOpen
    rw [hlength, List.length_nil, Nat.zero_add] at hopen
    have hown := (leavesOpen_word "print").append hopen
    rw [Nat.zero_add] at hown
    exact .intro (.cons (.statement hassign) (.cons (.lineBreak "\n" _) (.nil _ _)))
      (.print (by simp)) hread hown
  have hlength : ∀ count, (front ++ own count).length = count + 11 := by
    intro count
    simp [front, own]
  refine ⟨?_, fun after => ?_⟩
  · obtain ⟨after, statement, -, hread⟩ :=
      (hlimits _ _ _ _ _ (hawaits 253 (by decide)) "(").accepted (Nat.le_refl _)
    exact ⟨after, _, hread, rfl⟩
  · obtain ⟨rejection, hread, hcause, hposition, -⟩ :=
      (hlimits _ _ _ _ _ (hawaits 254 (by decide)) "(").refused rfl after
    obtain ⟨moment, hreads, hrejected⟩ := (hresult _ _).mpr hread
    obtain rfl : moment = .rejected rejection := by
      cases moment <;> cases hrejected
      rfl
    refine ⟨rejection, hread, hcause, hposition.trans (hlength 254), ?_⟩
    rw [Rejection.path, RuleStack.length_path]
    exact hdepth _ _ hreads

end Grammar

end LineBasic
