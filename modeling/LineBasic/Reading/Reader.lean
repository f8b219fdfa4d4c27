import LineBasic.Reading.Rejection

/-!
# Readers

A reader takes tokens at a cursor and comes to a value, or to a rejection.  All readers share one
stack of rules.  What follows a rule pushes it before anything else and pops it at the end; a
rejection takes the stack as it is.
-/

namespace LineBasic

namespace Reading

/-- How far a list of tokens has been read. -/
structure State where
  cursor : Cursor
  /-- The rules that are being followed. -/
  rules : RuleStack := {}
deriving DecidableEq, Repr, Inhabited

namespace State

/-- The state inside one more rule. -/
def enter (state : State) (rule : Rule) : State :=
  { state with rules := state.rules.push rule }

/-- The state outside of the innermost rule. -/
def leave (state : State) : State :=
  { state with rules := state.rules.pop }

variable (state : State) (rule : Rule)

@[simp]
theorem cursor_enter : (state.enter rule).cursor = state.cursor := rfl

@[simp]
theorem rules_enter : (state.enter rule).rules = state.rules.push rule := rfl

@[simp]
theorem cursor_leave : state.leave.cursor = state.cursor := rfl

@[simp]
theorem rules_leave : state.leave.rules = state.rules.pop := rfl

end State

/-- What reads a value. -/
abbrev Reader (α : Type) := StateT State (Except Rejection) α

variable {α β : Type}

/-- Follows a rule while a value is read. -/
def following (rule : Rule) (read : Reader α) : Reader α := fun state =>
  match read (state.enter rule) with
  | .error rejection => .error rejection
  | .ok (value, after) => .ok (value, after.leave)

/-- Reads what is looked for, if it stands at the cursor. -/
def accept? (find? : Cursor → Option (α × Cursor)) : Reader (Option α) := fun state =>
  match find? state.cursor with
  | some (found, cursor) => .ok (some found, ⟨cursor, state.rules⟩)
  | none => .ok (none, state)

/-- Reads what is looked for, which has to stand at the cursor. -/
def demand (cause : Cause) (find? : Cursor → Option (α × Cursor)) : Reader α := fun state =>
  match find? state.cursor with
  | some (found, cursor) => .ok (found, ⟨cursor, state.rules⟩)
  | none => .error ⟨cause, state.rules, state.cursor⟩

/-- Reads a token of a kind. -/
def consume (kind : Token.Kind) : Reader Token :=
  demand (.expected kind) (·.matchKind? kind)

/-- Reads a word. -/
def consumeWord (word : String) : Reader Token :=
  demand (.expectedWord word) (·.matchWord? word)

/-! ## What readers come to -/

variable {read : Reader α} {state after : State} {value : α} {rejection : Rejection}

theorem pure_apply (result : α) (state : State) :
    (pure result : Reader α) state = .ok (result, state) := rfl

theorem pure_eq_ok_iff {result : α} :
    (pure result : Reader α) state = .ok (value, after) ↔ value = result ∧ after = state := by
  simp [pure_apply, eq_comm]

theorem bind_of_eq_ok {next : α → Reader β} (hread : read state = .ok (value, after)) :
    (read >>= next) state = next value after := by
  simp [bind, StateT.bind, Except.bind, hread]

theorem bind_eq_ok_iff {next : α → Reader β} {result : β} :
    (read >>= next) state = .ok (result, after) ↔
      ∃ value inner, read state = .ok (value, inner) ∧ next value inner = .ok (result, after) := by
  cases hread : read state with
  | error rejection => simp [bind, StateT.bind, Except.bind, hread]
  | ok found =>
    obtain ⟨value, inner⟩ := found
    simp [bind, StateT.bind, Except.bind, hread, and_assoc]

theorem bind_eq_error_iff {next : α → Reader β} :
    (read >>= next) state = .error rejection ↔
      read state = .error rejection ∨
        ∃ value inner, read state = .ok (value, inner) ∧ next value inner = .error rejection := by
  cases hread : read state with
  | error rejection => simp [bind, StateT.bind, Except.bind, hread]
  | ok found =>
    obtain ⟨value, inner⟩ := found
    simp [bind, StateT.bind, Except.bind, hread, and_assoc]

theorem bind_pure_apply (f : α → β) (state : State) :
    (read >>= fun value => pure (f value)) state = (read state).map (Prod.map f id) := by
  cases hread : read state with
  | error rejection => simp [bind, StateT.bind, Except.bind, Except.map, hread]
  | ok found =>
    simp [bind, StateT.bind, Except.bind, Except.map, pure_apply, hread, Prod.map]

section Following

variable {rule : Rule}

theorem following_apply (rule : Rule) (read : Reader α) (state : State) :
    following rule read state = (read (state.enter rule)).map (Prod.map id State.leave) := by
  rw [following]
  cases read (state.enter rule) <;> rfl

theorem following_eq_ok_iff :
    following rule read state = .ok (value, after) ↔
      ∃ inner, read (state.enter rule) = .ok (value, inner) ∧ after = inner.leave := by
  rw [following]
  cases read (state.enter rule) with
  | error rejection => simp
  | ok found =>
    obtain ⟨found, inner⟩ := found
    simp [eq_comm, and_assoc]

/-- A rejection keeps the rule that was being followed. -/
theorem following_eq_error_iff :
    following rule read state = .error rejection ↔
      read (state.enter rule) = .error rejection := by
  rw [following]
  cases read (state.enter rule) <;> simp

end Following

section Find

variable {find? : Cursor → Option (α × Cursor)}

theorem accept?_of_eq_some {cursor : Cursor} (hfind : find? state.cursor = some (value, cursor)) :
    accept? find? state = .ok (some value, ⟨cursor, state.rules⟩) := by
  rw [accept?, hfind]

theorem accept?_of_eq_none (hfind : find? state.cursor = none) :
    accept? find? state = .ok (none, state) := by
  rw [accept?, hfind]

variable {cause : Cause}

theorem demand_eq_ok_iff :
    demand cause find? state = .ok (value, after) ↔
      ∃ cursor, find? state.cursor = some (value, cursor) ∧ after = ⟨cursor, state.rules⟩ := by
  rw [demand]
  cases find? state.cursor with
  | none => simp
  | some read =>
    obtain ⟨found, cursor⟩ := read
    simp [eq_comm, and_assoc]

theorem demand_eq_error_iff :
    demand cause find? state = .error rejection ↔
      find? state.cursor = none ∧ rejection = ⟨cause, state.rules, state.cursor⟩ := by
  rw [demand]
  cases find? state.cursor with
  | none => simp [eq_comm]
  | some read => simp

end Find

/-! ## Readers do not move back -/

/-- No token that lies behind is read again. -/
def NeverBack (read : Reader α) : Prop :=
  ∀ ⦃state value after⦄, read state = .ok (value, after) →
    after.cursor.ahead.length ≤ state.cursor.ahead.length

theorem neverBack_pure (value : α) : NeverBack (pure value) := by
  intro state found after hread
  obtain ⟨-, rfl⟩ := pure_eq_ok_iff.mp hread
  exact Nat.le_refl _

theorem NeverBack.bind {next : α → Reader β} (hread : NeverBack read)
    (hnext : ∀ value, NeverBack (next value)) : NeverBack (read >>= next) := by
  intro state result after hboth
  obtain ⟨value, inner, hfirst, hsecond⟩ := bind_eq_ok_iff.mp hboth
  exact Nat.le_trans (hnext value hsecond) (hread hfirst)

theorem NeverBack.following (hread : NeverBack read) (rule : Rule) :
    NeverBack (following rule read) := by
  intro state value after hfollowed
  obtain ⟨inner, hinside, rfl⟩ := following_eq_ok_iff.mp hfollowed
  simpa using hread hinside

theorem neverBack_demand {find? : Cursor → Option (α × Cursor)}
    (hfind : ∀ cursor value next, find? cursor = some (value, next) →
      next.ahead.length ≤ cursor.ahead.length) (cause : Cause) :
    NeverBack (demand cause find?) := by
  intro state value after hread
  obtain ⟨cursor, hfound, rfl⟩ := demand_eq_ok_iff.mp hread
  exact hfind _ _ _ hfound

theorem neverBack_consume (kind : Token.Kind) : NeverBack (consume kind) := by
  refine neverBack_demand (fun cursor token next hmatch => ?_) _
  rw [(Cursor.matchKind?_eq_some hmatch).2.2]
  exact Nat.le_succ _

theorem neverBack_consumeWord (word : String) : NeverBack (consumeWord word) := by
  refine neverBack_demand (fun cursor token next hmatch => ?_) _
  rw [(Cursor.matchWord?_eq_some hmatch).2.2]
  exact Nat.le_succ _

end Reading

end LineBasic
