import LineBasic.Value.Evaluation

/-!
# The value of a chain

What stands left of a link of a chain has a value of its own, and the link goes on from there.  So a
chain fails at a first link: its operand fails, or the operator refuses the two values.
-/

namespace LineBasic.Expression

variable {bindings : Bindings}

theorem evaluate_chain_nil (first : Expression) :
    (chain first []).evaluate bindings = first.evaluate bindings := by
  rw [evaluate]
  cases first.evaluate bindings <;> rfl

theorem evaluateLinks_append (left : Value) (links more : List (Operator × Expression)) :
    evaluateLinks bindings left (links ++ more) =
      match evaluateLinks bindings left links with
      | .error error => .error error
      | .ok value => evaluateLinks bindings value more := by
  induction links generalizing left with
  | nil => rfl
  | cons link links ih =>
    obtain ⟨op, operand⟩ := link
    rw [List.cons_append, evaluateLinks, evaluateLinks]
    cases operand.evaluate bindings with
    | error error => rfl
    | ok right =>
      dsimp only
      cases left.apply op right with
      | error error => rfl
      | ok value => exact ih value

/-- What stands left of some links of a chain may be a chain of its own. -/
theorem evaluate_chain_append (first : Expression) (links more : List (Operator × Expression)) :
    (chain first (links ++ more)).evaluate bindings =
      (chain (.chain first links) more).evaluate bindings := by
  rw [evaluate, evaluate, evaluate]
  cases first.evaluate bindings with
  | error error => rfl
  | ok value => exact evaluateLinks_append value links more

theorem evaluate_chain_of_eq_ok {first : Expression} {left : Value}
    (hfirst : first.evaluate bindings = .ok left) (links : List (Operator × Expression)) :
    (chain first links).evaluate bindings = evaluateLinks bindings left links := by
  rw [evaluate, hfirst]

theorem evaluate_chain_eq_ok_iff {first : Expression} {links : List (Operator × Expression)}
    {value : Value} : (chain first links).evaluate bindings = .ok value ↔
      ∃ left, first.evaluate bindings = .ok left ∧
        evaluateLinks bindings left links = .ok value := by
  rw [evaluate]
  cases first.evaluate bindings <;> simp

theorem evaluateLinks_cons_eq_ok_iff {left value : Value} {op : Operator} {operand : Expression}
    {links : List (Operator × Expression)} :
    evaluateLinks bindings left ((op, operand) :: links) = .ok value ↔
      ∃ right middle, operand.evaluate bindings = .ok right ∧
        left.apply op right = .ok middle ∧ evaluateLinks bindings middle links = .ok value := by
  rw [evaluateLinks]
  cases operand.evaluate bindings with
  | error error => simp
  | ok right =>
    cases happly : left.apply op right <;> simp [happly]

theorem evaluateLinks_cons_eq_error_iff {left : Value} {op : Operator} {operand : Expression}
    {links : List (Operator × Expression)} {error : NotANumber} :
    evaluateLinks bindings left ((op, operand) :: links) = .error error ↔
      operand.evaluate bindings = .error error ∨
        ∃ right, operand.evaluate bindings = .ok right ∧
          (left.apply op right = .error error ∨
            ∃ middle, left.apply op right = .ok middle ∧
              evaluateLinks bindings middle links = .error error) := by
  rw [evaluateLinks]
  cases operand.evaluate bindings with
  | error refusal => simp
  | ok right =>
    cases happly : left.apply op right <;> simp [happly]

/-- The links of a chain fail at one of them, and those in front of it have a value.  Its operand
fails by itself, before its operator is applied. -/
theorem evaluateLinks_eq_error_iff {left : Value} {links : List (Operator × Expression)}
    {error : NotANumber} : evaluateLinks bindings left links = .error error ↔
      ∃ front op operand back middle, links = front ++ (op, operand) :: back ∧
        evaluateLinks bindings left front = .ok middle ∧
        (operand.evaluate bindings = .error error ∨
          ∃ right, operand.evaluate bindings = .ok right ∧
            middle.apply op right = .error error) := by
  constructor
  · intro herror
    induction links generalizing left with
    | nil => cases herror
    | cons link links ih =>
      obtain ⟨op, operand⟩ := link
      rcases evaluateLinks_cons_eq_error_iff.mp herror with
        hoperand | ⟨right, hright, happly | ⟨value, happly, hrest⟩⟩
      · exact ⟨[], op, operand, links, left, rfl, rfl, .inl hoperand⟩
      · exact ⟨[], op, operand, links, left, rfl, rfl, .inr ⟨right, hright, happly⟩⟩
      · obtain ⟨front, op', operand', back, middle, rfl, hfront, hfails⟩ := ih hrest
        refine ⟨(op, operand) :: front, op', operand', back, middle, rfl, ?_, hfails⟩
        exact evaluateLinks_cons_eq_ok_iff.mpr ⟨right, value, hright, happly, hfront⟩
  · rintro ⟨front, op, operand, back, middle, rfl, hfront, hfails⟩
    rw [evaluateLinks_append, hfront]
    apply evaluateLinks_cons_eq_error_iff.mpr
    apply hfails.imp_right
    rintro ⟨right, hright, happly⟩
    exact ⟨right, hright, .inl happly⟩

end LineBasic.Expression
