import LineBasic.Machine.Run

/-!
# Observers of runs

An observer collects something at each statement of a run and has no influence on the run.  So runs
with different observers are the same but for what has been collected, and an observer that sees
more tells what one that sees less has collected.
-/

namespace LineBasic

/-- The run with a part of what has been observed. -/
def Run.map {α β : Type} (f : α → β) (run : Run α) : Run β :=
  ⟨f run.seen, run.machine, run.ending⟩

namespace Machine

variable {program : Program}

/-- What is observed of a run is observed in the same way of what makes it up. -/
theorem map_runFor {α β : Type} {observe : Statement → Machine → α → α}
    {other : Statement → Machine → β → β} {f : α → β}
    (hobserve : ∀ statement machine seen,
      f (observe statement machine seen) = other statement machine (f seen))
    (steps : Nat) (seen : α) (machine : Machine) :
    (runFor program observe steps seen machine).map f =
      runFor program other steps (f seen) machine := by
  induction steps generalizing seen machine with
  | zero => rfl
  | succ steps ih =>
    rw [runFor, runFor]
    cases program.statements[machine.counter]? with
    | none => rfl
    | some statement =>
      dsimp only
      rw [← hobserve]
      cases step program statement machine with
      | mk after error =>
        cases error with
        | none => exact ih _ after
        | some error => rfl

/-- A run is the same whatever is observed of it. -/
theorem forget_runFor {α : Type} (program : Program) (observe : Statement → Machine → α → α)
    (steps : Nat) (seen : α) (machine : Machine) :
    (runFor program observe steps seen machine).map (fun _ => ()) =
      plainRun program steps machine := by
  apply map_runFor
  intro statement machine seen
  rfl

end Machine

end LineBasic
