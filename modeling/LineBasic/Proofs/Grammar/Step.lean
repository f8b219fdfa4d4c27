import Mathlib.Logic.Relation
import LineBasic.Proofs.Grammar.Program

/-!
# Reading step by step

Reading a program takes one step after the other: past a line break or a label, into the rule of a
statement and into that of its form, past one token of its expression, and behind it.  Each step is
one that the readers take, from one stack of rules to the next, and the moments between them are all
there are: reading comes through them to its result, whether that is a program or a rejection.
-/

namespace LineBasic

namespace Reading

/-- A moment of reading a program.  The program is what has been read in front of the statement. -/
inductive Moment where
  /-- Between items. -/
  | item (program : Program) (state : State)
  /-- Where a statement may start. -/
  | statement (program : Program) (state : State)
  /-- Behind the tokens that tell the form of a statement. -/
  | form (program : Program) (form : Form) (state : State)
  /-- Inside the expression of a statement. -/
  | expression (program : Program) (form : Form) (progress : Progress) (state : State)
  /-- Behind the expression of a statement. -/
  | ending (program : Program) (form : Form) (e : Expression) (state : State)
  /-- Where the program ends. -/
  | stopped (program : Program) (state : State)
  | rejected (rejection : Rejection)

/-- How far the tokens have been read at a moment. -/
def Moment.state : Moment → State
  | item _ state | statement _ state | form _ _ state | expression _ _ _ state | ending _ _ _ state
  | stopped _ state => state
  | rejected rejection => ⟨rejection.place, rejection.rules⟩

/-- The rules that are being followed at a moment. -/
def Moment.rules (moment : Moment) : RuleStack :=
  moment.state.rules

/-- What reading has come to, if it is over. -/
def Moment.result? : Moment → Option (Except Rejection Program)
  | stopped program _ => some (.ok program)
  | rejected rejection => some (.error rejection)
  | _ => none

/-- The moment in front of a list of tokens. -/
def Moment.start (tokens : List Token) : Moment :=
  .item {} (State.enter ⟨Cursor.ofList tokens, {}⟩ .program)

/-- One step of reading a program. -/
inductive Step : Moment → Moment → Prop where
  | lineBreak {program : Program} {state : State} {token : Token} {next : Cursor}
      (hbreak : state.cursor.matchKind? .lineBreak = some (token, next)) :
      Step (.item program state) (.item program ⟨next, state.rules⟩)
  | label {program : Program} {state : State} {name : String} {next : Cursor}
      (hbreak : state.cursor.matchKind? .lineBreak = none)
      (hlabel : label? state.cursor = some (name, next)) :
      Step (.item program state) (.item (program.labelEnd name) ⟨next, state.rules⟩)
  | statement {program : Program} {state : State}
      (hbreak : state.cursor.matchKind? .lineBreak = none) (hlabel : label? state.cursor = none) :
      Step (.item program state) (.statement program (state.enter .statement))
  | stop {program : Program} {state : State} (hform : form? state.cursor = none) :
      Step (.statement program state) (.stopped program state.leave)
  | form {program : Program} {state : State} {form : Form} {next : Cursor}
      (hform : form? state.cursor = some (form, next)) :
      Step (.statement program state)
        (.form program form (State.enter ⟨next, state.rules⟩ form.rule))
  | operand {program : Program} {form : Form} {state : State} :
      Step (.form program form state)
        (.expression program form {} ((state.enter .expression).enter .atomic))
  | token {program : Program} {form : Form} {progress after : Progress}
      {rules rulesAfter : RuleStack} {token : Token} {behind ahead : List Token}
      (hnext : progress.next rules token = .ok (some (after, rulesAfter))) :
      Step (.expression program form progress ⟨⟨behind, token :: ahead⟩, rules⟩)
        (.expression program form after ⟨⟨token :: behind, ahead⟩, rulesAfter⟩)
  | refused {program : Program} {form : Form} {progress : Progress} {rules : RuleStack}
      {token : Token} {behind ahead : List Token} {cause : Cause}
      (hnext : progress.next rules token = .error cause) :
      Step (.expression program form progress ⟨⟨behind, token :: ahead⟩, rules⟩)
        (.rejected ⟨cause, rules, ⟨behind, token :: ahead⟩⟩)
  | finished {program : Program} {form : Form} {progress : Progress} {state : State}
      {e : Expression}
      (hnext : ∀ token ∈ state.cursor.ahead.head?, progress.next state.rules token = .ok none)
      (hfinish : progress.finish = .ok e) :
      Step (.expression program form progress state)
        (.ending program form e ⟨state.cursor, progress.rulesAtEnd state.rules⟩)
  | unfinished {program : Program} {form : Form} {progress : Progress} {state : State}
      {cause : Cause}
      (hnext : ∀ token ∈ state.cursor.ahead.head?, progress.next state.rules token = .ok none)
      (hfinish : progress.finish = .error cause) :
      Step (.expression program form progress state)
        (.rejected ⟨cause, progress.rulesAtEnd state.rules, state.cursor⟩)
  | ended {program : Program} {form : Form} {e : Expression} {state after : State}
      {statement : Statement} (hending : readEnding e form state = .ok (statement, after)) :
      Step (.ending program form e state) (.item (program.push statement) after.leave.leave)
  | broken {program : Program} {form : Form} {e : Expression} {state : State}
      {rejection : Rejection} (hending : readEnding e form state = .error rejection) :
      Step (.ending program form e state) (.rejected rejection)

/-- Any number of steps. -/
abbrev Steps : Moment → Moment → Prop :=
  Relation.ReflTransGen Step

/-- Reading a list of tokens comes to a moment. -/
def Reads (tokens : List Token) (moment : Moment) : Prop :=
  Steps (.start tokens) moment

/-! ## Reading comes to its result -/

section Result

variable {α β γ : Type}

/-- The moment behind what a reader comes to. -/
def Moment.behind (proceed : α → State → Moment) : Except Rejection (α × State) → Moment
  | .ok (value, state) => proceed value state
  | .error rejection => .rejected rejection

theorem behind_map (proceed : β → State → Moment) (f : α → β) (g : State → State)
    (result : Except Rejection (α × State)) :
    Moment.behind proceed (result.map (Prod.map f g)) =
      .behind (fun value state => proceed (f value) (g state)) result := by
  cases result <;> rfl

variable {moment : Moment} {state : State}

/-- Steps that come to the result of one reader and go on to that of another come to the result of
both. -/
theorem Steps.bind {read : Reader α} {next : α → Reader β} {proceed : α → State → Moment}
    {further : β → State → Moment} (hread : Steps moment (.behind proceed (read state)))
    (hnext : ∀ value after, Steps (proceed value after) (.behind further (next value after))) :
    Steps moment (.behind further ((read >>= next) state)) := by
  cases hresult : read state with
  | error rejection =>
    have hboth : (read >>= next) state = .error rejection := bind_eq_error_iff.mpr (.inl hresult)
    rw [hboth]
    rwa [hresult] at hread
  | ok found =>
    obtain ⟨value, after⟩ := found
    rw [bind_of_eq_ok hresult]
    rw [hresult] at hread
    exact hread.trans (hnext value after)

end Result

section Readers

variable {program : Program} {form : Form} {progress : Progress} {state : State}

theorem step_endExpression (program : Program) (form : Form)
    (hnext : ∀ token ∈ state.cursor.ahead.head?, progress.next state.rules token = .ok none) :
    Step (.expression program form progress state)
      (.behind (.ending program form) (endExpression progress state.rules state.cursor)) := by
  rw [endExpression]
  cases hfinish : progress.finish with
  | ok e => exact .finished hnext hfinish
  | error cause => exact .unfinished hnext hfinish

theorem steps_continueExpression (program : Program) (form : Form) (progress : Progress)
    (rules : RuleStack) (behind ahead : List Token) :
    Steps (.expression program form progress ⟨⟨behind, ahead⟩, rules⟩)
      (.behind (.ending program form) (continueExpression progress rules behind ahead)) := by
  induction ahead generalizing progress rules behind with
  | nil =>
    refine .single (step_endExpression program form ?_)
    simp
  | cons token ahead ih =>
    rw [continueExpression]
    cases hnext : progress.next rules token with
    | error cause => exact .single (.refused hnext)
    | ok found =>
      cases found with
      | none =>
        refine .single (step_endExpression program form ?_)
        simpa using hnext
      | some found =>
        obtain ⟨after, rulesAfter⟩ := found
        exact .head (.token hnext) (ih after rulesAfter (token :: behind))

theorem steps_readExpression (program : Program) (form : Form) (state : State) :
    Steps (.form program form state)
      (.behind (.ending program form) (readExpression state)) :=
  .head .operand (steps_continueExpression program form {} _ _ _)

theorem step_readEnding (program : Program) (form : Form) (e : Expression) (state : State) :
    Step (.ending program form e state)
      (.behind (fun statement after => .item (program.push statement) after.leave.leave)
        (readEnding e form state)) := by
  cases hending : readEnding e form state with
  | ok found => exact .ended hending
  | error rejection => exact .broken hending

theorem steps_readForm (program : Program) (form : Form) (state : State) :
    Steps (.form program form (state.enter form.rule))
      (.behind (fun statement after => .item (program.push statement) after.leave)
        (readForm form state)) := by
  rw [readForm, following_apply, behind_map]
  apply (steps_readExpression program form _).bind
  intro e after
  exact .single (step_readEnding program form e after)

/-- The moment behind the place where a statement may start. -/
def Moment.behindStatement (program : Program) : Option Statement → State → Moment
  | none, state => .stopped program state
  | some read, state => .item (program.push read) state

theorem steps_readStatement (program : Program) (state : State) :
    Steps (.statement program (state.enter .statement))
      (.behind (.behindStatement program) (readStatement state)) := by
  obtain ⟨cursor, rules⟩ := state
  cases hform : form? cursor with
  | none =>
    rw [readStatement_of_not_form? hform]
    exact .single (.stop hform)
  | some found =>
    obtain ⟨form, next⟩ := found
    rw [readStatement_of_form? hform, behind_map]
    exact .head (.form hform) (steps_readForm program form ⟨next, rules.push .statement⟩)

/-- The moment behind the place where an item may start. -/
def Moment.behindItem (program : Program) : Option Item → State → Moment
  | none, state => .stopped program state
  | some read, state => .item (addItem program read) state

theorem steps_readItem (program : Program) (state : State) :
    Steps (.item program state) (.behind (.behindItem program) (readItem state)) := by
  obtain ⟨cursor, rules⟩ := state
  cases hbreak : cursor.matchKind? .lineBreak with
  | some found =>
    rw [readItem_of_lineBreak hbreak]
    exact .single (.lineBreak hbreak)
  | none =>
    cases hlabel : label? cursor with
    | some found =>
      rw [readItem_of_label? hbreak hlabel]
      exact .single (.label hbreak hlabel)
    | none =>
      have hproceed : (fun statement? state =>
          Moment.behindItem program (statement?.map .statement) (id state)) =
          Moment.behindStatement program := by
        funext statement? state
        cases statement? <;> rfl
      rw [readItem_of_not_label? hbreak hlabel, behind_map, hproceed]
      exact .head (.statement hbreak hlabel) (steps_readStatement program ⟨cursor, rules⟩)

theorem steps_readItems (program : Program) (state : State) :
    Steps (.item program state) (.behind .stopped (readItems program state)) := by
  induction state using Grammar.item_induction generalizing program with
  | step state ih =>
    have hitem := steps_readItem program state
    rcases hread : readItem state with rejection | ⟨_ | item, after⟩
    all_goals rw [hread] at hitem
    · rw [Grammar.readItems_of_eq_error hread]
      exact hitem
    · rw [Grammar.readItems_of_eq_none hread]
      exact hitem
    · rw [Grammar.readItems_of_eq_some hread]
      exact hitem.trans (ih item after hread (addItem program item))

end Readers

/-! ## No other moments -/

section Moments

variable {tokens : List Token} {moment next other : Moment} {result : Except Rejection Program}

/-- Each moment has one step at most. -/
theorem Step.unique (hstep : Step moment next) (hother : Step moment other) : next = other := by
  cases hstep <;> cases hother <;> simp_all

theorem Step.result?_eq_none (hstep : Step moment next) : moment.result? = none := by
  cases hstep <;> rfl

theorem Steps.eq_of_result? (hsteps : Steps moment next)
    (hresult : moment.result? = some result) : next = moment := by
  obtain heq | ⟨inner, hstep, -⟩ := hsteps.cases_head
  · exact heq.symm
  · rw [hstep.result?_eq_none] at hresult
    cases hresult

/-- Of two moments of reading, one comes behind the other. -/
theorem Reads.total (hmoment : Reads tokens moment) (hother : Reads tokens other) :
    Steps moment other ∨ Steps other moment :=
  Relation.ReflTransGen.total_of_right_unique (fun _ _ _ => Step.unique) hmoment hother

/-- From each moment reading goes on to its result. -/
theorem Reads.exists_steps (hmoment : Reads tokens moment) :
    ∃ last, Steps moment last ∧ last.result? = some (Program.ofTokens tokens) := by
  obtain ⟨last, hlast, hresult⟩ :
      ∃ last, Reads tokens last ∧ last.result? = some (Program.ofTokens tokens) := by
    refine ⟨_, steps_readItems {} _, ?_⟩
    rw [Program.ofTokens, following_apply]
    cases readItems {} (State.enter ⟨Cursor.ofList tokens, {}⟩ .program) <;> rfl
  obtain hsteps | hsteps := hmoment.total hlast
  · exact ⟨last, hsteps, hresult⟩
  · obtain rfl := hsteps.eq_of_result? hresult
    exact ⟨moment, .refl, hresult⟩

/-- What reading step by step comes to is what the tokens are read as. -/
theorem exists_reads_result_iff :
    (∃ moment, Reads tokens moment ∧ moment.result? = some result) ↔
      Program.ofTokens tokens = result := by
  constructor
  · rintro ⟨moment, hreads, hresult⟩
    obtain ⟨last, hsteps, hlast⟩ := hreads.exists_steps
    obtain rfl := hsteps.eq_of_result? hresult
    exact Option.some.inj (hlast.symm.trans hresult)
  · rintro rfl
    exact Reads.exists_steps .refl

theorem reads_rejected_of_ofTokens {rejection : Rejection}
    (hread : Program.ofTokens tokens = .error rejection) : Reads tokens (.rejected rejection) := by
  obtain ⟨moment, hreads, hresult⟩ := exists_reads_result_iff.mpr hread
  cases moment <;> cases hresult
  exact hreads

end Moments

/-! ## What a step does to the rules and to the place -/

section Step

variable {moment next : Moment}

/-- What stands behind an expression is read in the rules around it. -/
theorem readEnding_rules {e : Expression} {form : Form} {state after : State}
    {statement : Statement} (hending : readEnding e form state = .ok (statement, after)) :
    after.rules = state.rules := by
  cases form with
  | assignment | print =>
    obtain ⟨-, rfl⟩ := pure_eq_ok_iff.mp hending
    rfl
  | conditional =>
    obtain ⟨word, inner, hthen, hbehind⟩ := bind_eq_ok_iff.mp hending
    obtain ⟨place, -, rfl⟩ := demand_eq_ok_iff.mp hthen
    obtain ⟨label, inner, hlabel, hlast⟩ := bind_eq_ok_iff.mp hbehind
    obtain ⟨place, -, rfl⟩ := demand_eq_ok_iff.mp hlabel
    obtain ⟨-, rfl⟩ := pure_eq_ok_iff.mp hlast
    rfl

/-- A jump breaks off in front of its second word, or in front of its label. -/
theorem readEnding_eq_error_iff {e : Expression} {form : Form} {state : State}
    {rejection : Rejection} :
    readEnding e form state = .error rejection ↔ form = .conditional ∧
      (state.cursor.matchWord? "then" = none ∧
          rejection = ⟨.expectedWord "then", state.rules, state.cursor⟩ ∨
        ∃ word place, state.cursor.matchWord? "then" = some (word, place) ∧
          place.matchKind? .word = none ∧ rejection = ⟨.expected .word, state.rules, place⟩) := by
  cases form with
  | assignment | print => simp [readEnding, pure_apply]
  | conditional =>
    simp only [readEnding, bind_eq_error_iff, consumeWord, consume, demand_eq_error_iff,
      demand_eq_ok_iff, true_and]
    constructor
    · rintro (hthen | ⟨word, _, ⟨place, hthen, rfl⟩, hlabel | ⟨label, _, -, hlast⟩⟩)
      · exact .inl hthen
      · exact .inr ⟨word, place, hthen, hlabel⟩
      · cases hlast
    · rintro (hthen | ⟨word, place, hthen, hlabel⟩)
      · exact .inl hthen
      · exact .inr ⟨word, _, ⟨place, hthen, rfl⟩, .inl hlabel⟩

theorem next_rules {progress after : Progress} {rules rulesAfter : RuleStack} {token : Token}
    (hnext : progress.next rules token = .ok (some (after, rulesAfter))) :
    rules.entries <:+ rulesAfter.entries ∨ rulesAfter.entries <:+ rules.entries := by
  have hout := rules.entries_pop_suffix
  obtain ⟨opened, left | chain⟩ := progress
  · simp only [Progress.next, Progress.nextOperand] at hnext
    split at hnext
    · cases hnext
      exact .inr hout
    · cases hnext
      exact .inr hout
    · split at hnext <;> cases hnext
      exact .inr hout
    · split at hnext <;> cases hnext
      exact .inl ⟨[.atomic, .expression], rfl⟩
    · cases hnext
  · simp only [Progress.next, Progress.nextOperator] at hnext
    split at hnext
    · split at hnext <;> cases hnext
      exact .inl ⟨[.atomic], rfl⟩
    · split at hnext <;> cases hnext
      exact .inl ⟨[.atomic], rfl⟩
    · cases hnext
      exact .inr (rules.pop.entries_pop_suffix.trans hout)
    · cases hnext

/-- A step goes into rules, or it goes out of rules. -/
theorem Step.rules (hstep : Step moment next) :
    moment.rules.entries <:+ next.rules.entries ∨ next.rules.entries <:+ moment.rules.entries := by
  have hend : ∀ (progress : Progress) (rules : RuleStack),
      (progress.rulesAtEnd rules).entries <:+ rules.entries := by
    rintro ⟨opened, left | chain⟩ rules
    · exact List.suffix_refl _
    · exact rules.entries_pop_suffix
  cases hstep with
  | lineBreak | label | refused => exact .inl (List.suffix_refl _)
  | statement | form => exact .inl (List.suffix_cons _ _)
  | stop => exact .inr (RuleStack.entries_pop_suffix _)
  | operand => exact .inl ⟨[.atomic, .expression], rfl⟩
  | token hnext => exact next_rules hnext
  | finished | unfinished => exact .inr (hend _ _)
  | ended hending =>
    right
    rw [Moment.rules, Moment.rules, Moment.state, Moment.state, State.rules_leave,
      State.rules_leave, readEnding_rules hending]
    exact (RuleStack.entries_pop_suffix _).trans (RuleStack.entries_pop_suffix _)
  | broken hending =>
    obtain ⟨-, ⟨-, rfl⟩ | ⟨word, place, -, -, rfl⟩⟩ := readEnding_eq_error_iff.mp hending
    all_goals exact .inl (List.suffix_refl _)

/-- Reading does not move back. -/
theorem Step.length_ahead_le (hstep : Step moment next) :
    next.state.cursor.ahead.length ≤ moment.state.cursor.ahead.length := by
  cases hstep with
  | lineBreak hbreak =>
    simp only [Moment.state, (Cursor.matchKind?_eq_some hbreak).2.2]
    exact Nat.le_succ _
  | label _ hlabel => exact Nat.le_of_lt (length_ahead_label? hlabel)
  | form hform => exact Nat.le_of_lt (length_ahead_form? hform)
  | token => exact Nat.le_succ _
  | @ended program form e state after statement hending =>
    have hback : after.cursor.ahead.length ≤ state.cursor.ahead.length :=
      neverBack_readEnding e form hending
    exact hback
  | broken hending =>
    obtain ⟨-, ⟨-, rfl⟩ | ⟨word, place, hthen, -, rfl⟩⟩ := readEnding_eq_error_iff.mp hending
    · exact Nat.le_refl _
    · simp only [Moment.state, (Cursor.matchWord?_eq_some hthen).2.2]
      exact Nat.le_succ _
  | statement | stop | operand | refused | finished | unfinished => exact Nat.le_refl _

theorem Steps.length_ahead_le (hsteps : Steps moment next) :
    next.state.cursor.ahead.length ≤ moment.state.cursor.ahead.length := by
  induction hsteps with
  | refl => exact Nat.le_refl _
  | tail hsteps hstep ih => exact Nat.le_trans hstep.length_ahead_le ih

end Step

end Reading

end LineBasic
