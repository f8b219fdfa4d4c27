import LineBasic.Program.Basic
import LineBasic.Reading.Expression

/-!
# Reading the items of a program

A program is read item by item.  An item is a line break, a label, or a statement:

* a label is a word at the start of a line with nothing else on the line;
* an assignment is a word and an equals sign in front of an expression;
* the word `print` stands in front of an expression;
* the word `if` stands in front of an expression, the word `then` and a word that is a label.

A label goes before a statement, and an assignment before the other statements, so any word may be
assigned to.  What starts none of these ends the program.
-/

namespace LineBasic

namespace Reading

/-- The forms of statements. -/
inductive Form where
  | assignment (name : String)
  | print
  | conditional
deriving DecidableEq, Repr, Inhabited

/-- The rule that a statement of a form follows. -/
def Form.rule : Form → Rule
  | assignment _ => .assignment
  | print => .print
  | conditional => .conditional

/-- The form of the statement at a cursor, if one starts there, and the cursor behind the tokens
that tell it. -/
def form? (cursor : Cursor) : Option (Form × Cursor) :=
  match cursor.matchKinds? .word .equals with
  | some ((name, _), cursor) => some (.assignment name.text, cursor)
  | none =>
    match cursor.matchWord? "print" with
    | some (_, cursor) => some (.print, cursor)
    | none =>
      match cursor.matchWord? "if" with
      | some (_, cursor) => some (.conditional, cursor)
      | none => none

/-- Reads what follows the expression of a statement: the target of a jump, or nothing. -/
def readEnding (e : Expression) : Form → Reader Statement
  | .assignment name => return .assign name e
  | .print => return .print e
  | .conditional => do
    let _ ← consumeWord "then"
    let label ← consume .word
    return .jump e label.text

/-- Reads a statement behind the tokens that tell its form. -/
def readForm (form : Form) : Reader Statement :=
  following form.rule do
    let e ← readExpression
    readEnding e form

/-- Reads a statement, if one starts at the cursor. -/
def readStatement : Reader (Option Statement) :=
  following .statement do
    match ← accept? form? with
    | none => return none
    | some form => return some (← readForm form)

/-- An item of a program. -/
inductive Item where
  | lineBreak
  | label (name : String)
  | statement (statement : Statement)
deriving Inhabited

/-- The name of the label at a cursor, if there is one, and the cursor behind it. -/
def label? (cursor : Cursor) : Option (String × Cursor) :=
  match cursor.atLineStart, cursor.ahead with
  | true, ⟨.word, name⟩ :: following =>
    match following with
    | ⟨.lineBreak, _⟩ :: _ | ⟨.endOfInput, _⟩ :: _ | [] => some (name, cursor.advance)
    | _ => none
  | _, _ => none

/-- Reads an item, if one starts at the cursor. -/
def readItem : Reader (Option Item) := do
  match ← accept? (·.matchKind? .lineBreak) with
  | some _ => return some .lineBreak
  | none =>
    match ← accept? label? with
    | some name => return some (.label name)
    | none => return (← readStatement).map .statement

theorem neverBack_readEnding (e : Expression) (form : Form) : NeverBack (readEnding e form) := by
  cases form with
  | assignment | print => exact neverBack_pure _
  | conditional =>
    apply (neverBack_consumeWord "then").bind
    intro _
    apply (neverBack_consume .word).bind
    exact fun label => neverBack_pure _

theorem neverBack_readForm (form : Form) : NeverBack (readForm form) := by
  apply NeverBack.following
  apply neverBack_readExpression.bind
  exact fun e => neverBack_readEnding e form

theorem length_ahead_form? {cursor next : Cursor} {form : Form}
    (hform : form? cursor = some (form, next)) :
    next.ahead.length < cursor.ahead.length := by
  unfold form? at hform
  split at hform
  · next hassign =>
    cases hform
    rw [(Cursor.matchKinds?_eq_some hassign).2.2.2]
    simp only [List.length_cons]
    omega
  · split at hform
    · next hprint =>
      cases hform
      rw [(Cursor.matchWord?_eq_some hprint).2.2]
      exact Nat.lt_succ_self _
    · split at hform
      · next hif =>
        cases hform
        rw [(Cursor.matchWord?_eq_some hif).2.2]
        exact Nat.lt_succ_self _
      · cases hform

section Statement

variable {cursor next : Cursor} {rules : RuleStack} {form : Form}

theorem readStatement_of_form? (hform : form? cursor = some (form, next)) :
    readStatement ⟨cursor, rules⟩ =
      (readForm form ⟨next, rules.push .statement⟩).map (Prod.map some State.leave) := by
  have haccept : accept? form? (State.enter ⟨cursor, rules⟩ .statement) =
      .ok (some form, ⟨next, rules.push .statement⟩) := accept?_of_eq_some hform
  rw [readStatement, following_apply, bind_of_eq_ok haccept]
  simp only
  rw [bind_pure_apply]
  cases readForm form ⟨next, rules.push .statement⟩ <;> rfl

theorem readStatement_of_not_form? (hform : form? cursor = none) :
    readStatement ⟨cursor, rules⟩ = .ok (none, ⟨cursor, rules⟩) := by
  have haccept : accept? form? (State.enter ⟨cursor, rules⟩ .statement) =
      .ok (none, ⟨cursor, rules.push .statement⟩) := accept?_of_eq_none hform
  rw [readStatement, following_apply, bind_of_eq_ok haccept]
  rfl

/-- A statement has at least one token. -/
theorem length_ahead_readStatement {state after : State} {statement : Statement}
    (hread : readStatement state = .ok (some statement, after)) :
    after.cursor.ahead.length < state.cursor.ahead.length := by
  obtain ⟨cursor, rules⟩ := state
  cases hform : form? cursor with
  | none =>
    rw [readStatement_of_not_form? hform] at hread
    cases hread
  | some found =>
    obtain ⟨form, next⟩ := found
    rw [readStatement_of_form? hform] at hread
    cases hvalue : readForm form ⟨next, rules.push .statement⟩ with
    | error rejection =>
      rw [hvalue] at hread
      cases hread
    | ok found =>
      rw [hvalue] at hread
      cases hread
      have hle := neverBack_readForm form hvalue
      exact Nat.lt_of_le_of_lt hle (length_ahead_form? hform)

end Statement

theorem length_ahead_label? {cursor next : Cursor} {name : String}
    (hlabel : label? cursor = some (name, next)) :
    next.ahead.length < cursor.ahead.length := by
  unfold label? at hlabel
  split at hlabel
  · next hahead =>
    split at hlabel
    all_goals cases hlabel
    all_goals simp [hahead]
  · cases hlabel

section Item

variable {cursor next : Cursor} {rules : RuleStack} {name : String}

theorem readItem_of_lineBreak {token : Token}
    (hbreak : cursor.matchKind? .lineBreak = some (token, next)) :
    readItem ⟨cursor, rules⟩ = .ok (some .lineBreak, ⟨next, rules⟩) := by
  have haccept : accept? (·.matchKind? .lineBreak) ⟨cursor, rules⟩ =
      .ok (some token, ⟨next, rules⟩) := accept?_of_eq_some hbreak
  rw [readItem, bind_of_eq_ok haccept]
  rfl

theorem readItem_of_label? (hbreak : cursor.matchKind? .lineBreak = none)
    (hlabel : label? cursor = some (name, next)) :
    readItem ⟨cursor, rules⟩ = .ok (some (.label name), ⟨next, rules⟩) := by
  have haccept : accept? (·.matchKind? .lineBreak) ⟨cursor, rules⟩ =
      .ok (none, ⟨cursor, rules⟩) := accept?_of_eq_none hbreak
  have hname : accept? label? ⟨cursor, rules⟩ = .ok (some name, ⟨next, rules⟩) :=
    accept?_of_eq_some hlabel
  rw [readItem, bind_of_eq_ok haccept]
  simp only
  rw [bind_of_eq_ok hname]
  rfl

theorem readItem_of_not_label? (hbreak : cursor.matchKind? .lineBreak = none)
    (hlabel : label? cursor = none) :
    readItem ⟨cursor, rules⟩ =
      (readStatement ⟨cursor, rules⟩).map (Prod.map (Option.map .statement) id) := by
  have haccept : accept? (·.matchKind? .lineBreak) ⟨cursor, rules⟩ =
      .ok (none, ⟨cursor, rules⟩) := accept?_of_eq_none hbreak
  have hname : accept? label? ⟨cursor, rules⟩ = .ok (none, ⟨cursor, rules⟩) :=
    accept?_of_eq_none hlabel
  rw [readItem, bind_of_eq_ok haccept]
  simp only
  rw [bind_of_eq_ok hname]
  exact bind_pure_apply _ _

/-- An item has at least one token. -/
theorem length_ahead_readItem {state after : State} {item : Item}
    (hread : readItem state = .ok (some item, after)) :
    after.cursor.ahead.length < state.cursor.ahead.length := by
  obtain ⟨cursor, rules⟩ := state
  cases hbreak : cursor.matchKind? .lineBreak with
  | some found =>
    rw [readItem_of_lineBreak hbreak] at hread
    cases hread
    rw [(Cursor.matchKind?_eq_some hbreak).2.2]
    exact Nat.lt_succ_self _
  | none =>
    cases hlabel : label? cursor with
    | some found =>
      rw [readItem_of_label? hbreak hlabel] at hread
      cases hread
      exact length_ahead_label? hlabel
    | none =>
      rw [readItem_of_not_label? hbreak hlabel] at hread
      rcases hstatement : readStatement ⟨cursor, rules⟩ with rejection | ⟨_ | statement, place⟩
      all_goals
        rw [hstatement] at hread
        cases hread
      exact length_ahead_readStatement hstatement

end Item

end Reading

end LineBasic
