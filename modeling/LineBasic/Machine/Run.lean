import LineBasic.Machine.Basic

/-!
# Runs

A run executes statements until the counter points behind the last one or a statement fails.  Not
every run ends, so a run is given a number of statements that it may execute.  An observer may
collect something at each statement; it sees the statement and the machine that is about to execute
it, and has no influence on the run.
-/

namespace LineBasic

/-- How a run ends. -/
inductive Ending where
  /-- The counter points behind the last statement. -/
  | finished
  /-- A statement has failed. -/
  | failed (error : ExecutionError)
  /-- The run has been given up. -/
  | outOfSteps
deriving Inhabited

/-- A run: what has been observed, the machine it leaves, and how it ends. -/
structure Run (α : Type) where
  /-- What the observer has collected. -/
  seen : α
  /-- The machine as the run leaves it. -/
  machine : Machine
  ending : Ending

namespace Machine

/-- Executes the statement at the counter.  The counter moves on before the statement has its
effect, so it stays behind a statement that fails. -/
def step (program : Program) (statement : Statement) (machine : Machine) :
    Machine × Option ExecutionError :=
  let index := machine.counter
  match execute program statement machine.next with
  | (after, none) => (after, none)
  | (after, some fault) => (after, some ⟨index, statement, fault⟩)

/-- Runs a program from the machine's counter on, for at most a number of statements. -/
def runFor {α : Type} (program : Program) (observe : Statement → Machine → α → α) :
    Nat → α → Machine → Run α
  | 0, seen, machine => ⟨seen, machine, .outOfSteps⟩
  | steps + 1, seen, machine =>
    match program.statements[machine.counter]? with
    | none => ⟨seen, machine, .finished⟩
    | some statement =>
      let seen := observe statement machine seen
      match step program statement machine with
      | (after, none) => runFor program observe steps seen after
      | (after, some error) => ⟨seen, after, .failed error⟩

/-- The number of statements after which a run is given up. -/
def stepLimit : Nat := Nat.pow 2 62

/-- Runs a program as `runFor` does, without an observer. -/
def plainRun (program : Program) (steps : Nat) (machine : Machine) : Run Unit :=
  runFor program (fun _ _ seen => seen) steps () machine

/-- Runs a program from its first statement on. -/
def run (program : Program) (machine : Machine) : Run Unit :=
  plainRun program stepLimit { machine with counter := 0 }

end Machine

end LineBasic
