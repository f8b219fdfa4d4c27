import LineBasic.Proofs.Run.Basic
import LineBasic.Proofs.Run.Observer
import LineBasic.Proofs.Run.Sink
import LineBasic.Proofs.Run.Statement

/-!
# Visits of runs

A run visits statements one after the other.  A visit is a statement together with the machine that
is about to execute it, so the visits tell all that a run does: the indices that it goes through,
the lines that it prints and the names that it gives values to.  The statement that fails is visited
last.
-/

namespace LineBasic

/-- A statement and the machine that is about to execute it. -/
structure Visit where
  statement : Statement
  machine : Machine

namespace Visit

/-- The index of the statement. -/
def index (visit : Visit) : Nat :=
  visit.machine.counter

/-- The value that the statement prints, if there is one. -/
def printed? (visit : Visit) : Option Value :=
  match visit.statement with
  | .print e => (e.evaluate visit.machine.bindings).toOption
  | .assign _ _ | .jump _ _ => none

/-- The name that the statement gives a value to, and the value. -/
def assignment? (visit : Visit) : Option (String × Value) :=
  match visit.statement with
  | .assign name e => (e.evaluate visit.machine.bindings).toOption.map fun value => (name, value)
  | .print _ | .jump _ _ => none

/-- The lines of the values that are printed. -/
def output (visits : List Visit) : ByteArray :=
  (visits.filterMap printed?).foldr (fun value rest => Machine.lineBytes value ++ rest) .empty

/-- The assignments among visits. -/
def assignments (visits : List Visit) : List (String × Value) :=
  visits.filterMap assignment?

/-- The names that are given values. -/
def assigned (visits : List Visit) : List String :=
  (assignments visits).map Prod.fst

theorem output_cons (visit : Visit) (visits : List Visit) :
    output (visit :: visits) = output [visit] ++ output visits := by
  cases hprinted : visit.printed? <;> simp [output, hprinted]

theorem assignments_cons (visit : Visit) (visits : List Visit) :
    assignments (visit :: visits) = assignments [visit] ++ assignments visits :=
  List.filterMap_append (l := [visit])

theorem assigned_cons (visit : Visit) (visits : List Visit) :
    assigned (visit :: visits) = assigned [visit] ++ assigned visits := by
  rw [assigned, assignments_cons, List.map_append, assigned, assigned]

end Visit

namespace Machine

open Visit

variable {program : Program} {statement : Statement} {machine next after : Machine}
variable {steps : Nat} {run : Run (List Visit)}

/-- The run of a program for at most a number of statements, with its visits. -/
def visitsRun (program : Program) (steps : Nat) (machine : Machine) : Run (List Visit) :=
  runFor program (fun statement machine seen => seen ++ [⟨statement, machine⟩]) steps [] machine

/-- What a run for at most a number of statements can be: it is given up, or nothing is left to
execute, or the next statement fails, or it goes on behind the next statement. -/
inductive Visits (program : Program) : Nat → Machine → Run (List Visit) → Prop where
  | outOfSteps (machine : Machine) : Visits program 0 machine ⟨[], machine, .outOfSteps⟩
  | finished {machine : Machine} (steps : Nat)
      (hend : program.statements[machine.counter]? = none) :
      Visits program (steps + 1) machine ⟨[], machine, .finished⟩
  | failed {machine after : Machine} {statement : Statement} {fault : Fault} (steps : Nat)
      (hstatement : program.statements[machine.counter]? = some statement)
      (hexecutes : Executes program machine.next statement after (some fault)) :
      Visits program (steps + 1) machine
        ⟨[⟨statement, machine⟩], after, .failed ⟨machine.counter, statement, fault⟩⟩
  | head {steps : Nat} {machine next : Machine} {statement : Statement} {run : Run (List Visit)}
      (hstatement : program.statements[machine.counter]? = some statement)
      (hexecutes : Executes program machine.next statement next none)
      (hrest : Visits program steps next run) :
      Visits program (steps + 1) machine (run.map (⟨statement, machine⟩ :: ·))

/-- What has been visited stays in front of what is visited later. -/
theorem runFor_eq_map_visitsRun (steps : Nat) (visits : List Visit) (machine : Machine) :
    runFor program (fun statement machine seen => seen ++ [⟨statement, machine⟩]) steps visits
      machine = (visitsRun program steps machine).map (visits ++ ·) := by
  symm
  rw [visitsRun, map_runFor, List.append_nil]
  intro statement machine seen
  rw [List.append_assoc]

theorem visitsRun_succ_of_advances (steps : Nat)
    (hstatement : program.statements[machine.counter]? = some statement)
    (hstep : step program statement machine = (next, none)) :
    visitsRun program (steps + 1) machine =
      (visitsRun program steps next).map (⟨statement, machine⟩ :: ·) := by
  rw [visitsRun, runFor]
  simp only [hstatement, hstep, List.nil_append]
  exact runFor_eq_map_visitsRun steps _ next

theorem visits_visitsRun (program : Program) (steps : Nat) (machine : Machine) :
    Visits program steps machine (visitsRun program steps machine) := by
  induction steps generalizing machine with
  | zero => exact .outOfSteps machine
  | succ steps ih =>
    cases hstatement : program.statements[machine.counter]? with
    | none =>
      have hrun : visitsRun program (steps + 1) machine = ⟨[], machine, .finished⟩ := by
        simp only [visitsRun, runFor, hstatement]
      rw [hrun]
      exact .finished steps hstatement
    | some statement =>
      cases hstep : step program statement machine with
      | mk after error =>
        cases error with
        | none =>
          rw [visitsRun_succ_of_advances steps hstatement hstep]
          exact .head hstatement (step_eq_none_iff.mp hstep) (ih after)
        | some error =>
          have hrun : visitsRun program (steps + 1) machine =
              ⟨[⟨statement, machine⟩], after, .failed error⟩ := by
            simp only [visitsRun, runFor, hstatement, hstep, List.nil_append]
          obtain ⟨fault, hexecutes, rfl⟩ := step_eq_some_iff.mp hstep
          rw [hrun]
          exact .failed steps hstatement hexecutes

/-- There is one run for at most a number of statements. -/
theorem Visits.eq_visitsRun (hvisits : Visits program steps machine run) :
    run = visitsRun program steps machine := by
  induction hvisits with
  | outOfSteps machine => rfl
  | finished steps hend => simp only [visitsRun, runFor, hend]
  | failed steps hstatement hexecutes =>
    have hstep := step_eq_some_iff.mpr ⟨_, hexecutes, rfl⟩
    simp only [visitsRun, runFor, hstatement, hstep, List.nil_append]
  | head hstatement hexecutes hrest ih =>
    rw [visitsRun_succ_of_advances _ hstatement (step_eq_none_iff.mpr hexecutes), ih]

/-- A run that ends visits statements, some number of them. -/
theorem Interprets.exists_visitsRun {failure : Option ExecutionError}
    (hrun : Interprets program machine after failure) :
    ∃ steps visits, visitsRun program steps machine.rewind =
      ⟨visits, after, .ofFailure failure⟩ := by
  obtain ⟨steps, hrun⟩ := hrun
  have hforget : (visitsRun program steps machine.rewind).map (fun _ => ()) = _ :=
    (forget_runFor program _ steps [] machine.rewind).trans hrun
  simp only [Run.map, Run.mk.injEq, true_and] at hforget
  obtain ⟨rfl, hending⟩ := hforget
  exact ⟨steps, _, by rw [← hending]⟩

/-- A run that has not been given up is the run of the program. -/
theorem interprets_of_visitsRun {visits : List Visit} {failure : Option ExecutionError}
    (hrun : visitsRun program steps machine.rewind = ⟨visits, after, .ofFailure failure⟩) :
    Interprets program machine after failure := by
  refine ⟨steps, ?_⟩
  calc plainRun program steps machine.rewind
      = (visitsRun program steps machine.rewind).map (fun _ => ()) :=
        (forget_runFor program _ steps [] machine.rewind).symm
    _ = ⟨(), after, .ofFailure failure⟩ := by rw [hrun, Run.map]

/-! ## What visits tell -/

/-- A statement that does not fail prints the line of its visit, if it has one. -/
theorem Executes.written_eq (hexecutes : Executes program machine.next statement next none) :
    next.sink.written = machine.sink.written ++ output [⟨statement, machine⟩] := by
  have hprinted : ∀ {visit : Visit}, visit.printed? = none → output [visit] = .empty := by
    intro visit hnone
    simp [output, hnone]
  cases hexecutes with
  | @printed e value hvalue hfits =>
    change e.evaluate machine.bindings = .ok value at hvalue
    have hline : output [⟨.print e, machine⟩] = lineBytes value := by
      simp [output, printed?, hvalue, Except.toOption]
    rw [hline]
    exact Sink.written_write_of_fits hfits
  | assigned | passed | jumped =>
    rw [hprinted rfl, ByteArray.append_empty]
    rfl

/-- The statement that fails is visited last, behind lines that have been printed in full. -/
theorem Visits.of_failed {error : ExecutionError} (hvisits : Visits program steps machine run)
    (hending : run.ending = .failed error) :
    ∃ front last, run.seen = front ++ [last] ∧
      error.index = last.index ∧ error.statement = last.statement ∧
      program.statements[error.index]? = some error.statement ∧
      Executes program last.machine.next error.statement run.machine (some error.fault) ∧
      last.machine.sink.written = machine.sink.written ++ output front := by
  induction hvisits with
  | outOfSteps | finished => cases hending
  | @failed machine after statement fault steps hstatement hexecutes =>
    cases hending
    exact ⟨[], ⟨statement, machine⟩, rfl, rfl, rfl, hstatement, hexecutes,
      ByteArray.append_empty.symm⟩
  | @head steps machine next statement run hstatement hexecutes hrest ih =>
    obtain ⟨front, last, hseen, hindex, hlast, hlisted, hfails, hwritten⟩ := ih hending
    refine ⟨⟨statement, machine⟩ :: front, last, ?_, hindex, hlast, hlisted, hfails, ?_⟩
    · rw [Run.map, hseen, List.cons_append]
    · rw [hwritten, hexecutes.written_eq, ByteArray.append_assoc, ← output_cons]

end Machine

end LineBasic
