import LineBasic.Proofs.Run.Visit

/-!
# Programs in lockstep

Two programs may have statements that differ and still do the same at every index.  If their
statements correspond to each other one by one, and the execution of corresponding statements keeps
a relation between machines, then runs from related machines visit the same indices, end in the same
way and leave related machines, whatever number of statements they are given.
-/

namespace LineBasic

/-- Runs end alike: if statements fail, then they correspond, at the same index and for the same
fault. -/
inductive Ending.Alike (corresponds : Statement → Statement → Prop) : Ending → Ending → Prop where
  | finished : Alike corresponds .finished .finished
  | failed {index : Nat} {statement other : Statement} {fault : Fault}
      (hstatement : corresponds statement other) :
      Alike corresponds (.failed ⟨index, statement, fault⟩) (.failed ⟨index, other, fault⟩)
  | outOfSteps : Alike corresponds .outOfSteps .outOfSteps

section Alike

variable {corresponds : Statement → Statement → Prop} {ending other : Ending}

theorem Ending.Alike.eq_outOfSteps_iff (halike : ending.Alike corresponds other) :
    ending = .outOfSteps ↔ other = .outOfSteps := by
  cases halike <;> simp

theorem Ending.Alike.flip (halike : ending.Alike corresponds other) :
    other.Alike (fun statement replaced => corresponds replaced statement) ending := by
  cases halike with
  | finished => exact .finished
  | failed hstatement => exact .failed hstatement
  | outOfSteps => exact .outOfSteps

end Alike

namespace Machine

/-- Two programs have corresponding statements, which do the same on related machines. -/
structure Lockstep (left right : Program) (corresponds : Statement → Statement → Prop)
    (related : Machine → Machine → Prop) : Prop where
  statements : ∀ index : Nat,
    Option.Rel corresponds left.statements[index]? right.statements[index]?
  counter : ∀ {one two}, related one two → one.counter = two.counter
  executes : ∀ {statement other one two after fault}, corresponds statement other →
    related one two → Executes left one.next statement after fault →
    ∃ after', Executes right two.next other after' fault ∧ related after after'

/-- Two runs visit the same indices, end alike and leave related machines. -/
structure RunsInStep (corresponds : Statement → Statement → Prop)
    (related : Machine → Machine → Prop) (left right : Run (List Visit)) : Prop where
  indices : left.seen.map Visit.index = right.seen.map Visit.index
  ending : left.ending.Alike corresponds right.ending
  machine : related left.machine right.machine

variable {left right : Program} {corresponds : Statement → Statement → Prop}
variable {related : Machine → Machine → Prop} {one two : Machine}

theorem Lockstep.statement_eq_none (hlockstep : Lockstep left right corresponds related)
    (hrelated : related one two) (hend : left.statements[one.counter]? = none) :
    right.statements[two.counter]? = none := by
  have hstatements := hlockstep.statements one.counter
  rw [hend] at hstatements
  rw [← hlockstep.counter hrelated]
  generalize right.statements[one.counter]? = found at hstatements
  cases hstatements
  rfl

theorem Lockstep.exists_statement (hlockstep : Lockstep left right corresponds related)
    (hrelated : related one two) {statement : Statement}
    (hstatement : left.statements[one.counter]? = some statement) :
    ∃ other, right.statements[two.counter]? = some other ∧ corresponds statement other := by
  have hstatements := hlockstep.statements one.counter
  rw [hstatement] at hstatements
  rw [← hlockstep.counter hrelated]
  generalize right.statements[one.counter]? = found at hstatements
  cases hstatements with
  | some hcorresponds => exact ⟨_, rfl, hcorresponds⟩

/-- What the execution of one statement keeps is kept by a run. -/
theorem Lockstep.exists_visits (hlockstep : Lockstep left right corresponds related) {steps : Nat}
    {run : Run (List Visit)} (hrelated : related one two) (hvisits : Visits left steps one run) :
    ∃ run', Visits right steps two run' ∧ RunsInStep corresponds related run run' := by
  induction hvisits generalizing two with
  | outOfSteps machine => exact ⟨_, .outOfSteps two, rfl, .outOfSteps, hrelated⟩
  | finished steps hend =>
    have hend' := hlockstep.statement_eq_none hrelated hend
    exact ⟨_, .finished steps hend', rfl, .finished, hrelated⟩
  | failed steps hstatement hexecutes =>
    obtain ⟨other, hother, hcorresponds⟩ := hlockstep.exists_statement hrelated hstatement
    obtain ⟨after', hexecutes', hafter⟩ := hlockstep.executes hcorresponds hrelated hexecutes
    rw [hlockstep.counter hrelated]
    refine ⟨_, .failed steps hother hexecutes', ?_, .failed hcorresponds, hafter⟩
    simp [Visit.index, hlockstep.counter hrelated]
  | head hstatement hexecutes hrest ih =>
    obtain ⟨other, hother, hcorresponds⟩ := hlockstep.exists_statement hrelated hstatement
    obtain ⟨next', hexecutes', hnext⟩ := hlockstep.executes hcorresponds hrelated hexecutes
    obtain ⟨run', hrest', hruns⟩ := ih hnext
    refine ⟨_, .head hother hexecutes' hrest', ?_, hruns.ending, hruns.machine⟩
    simp [Run.map, Visit.index, hlockstep.counter hrelated, hruns.indices]

/-- Programs in lockstep run in step, for as many statements as they are given. -/
theorem Lockstep.runsInStep (hlockstep : Lockstep left right corresponds related)
    (hrelated : related one two) (steps : Nat) :
    RunsInStep corresponds related (visitsRun left steps one) (visitsRun right steps two) := by
  obtain ⟨run', hvisits, hruns⟩ :=
    hlockstep.exists_visits hrelated (visits_visitsRun left steps one)
  rwa [hvisits.eq_visitsRun] at hruns

theorem RunsInStep.flip {run other : Run (List Visit)}
    (hruns : RunsInStep corresponds related run other) :
    RunsInStep (fun statement replaced => corresponds replaced statement)
      (fun one two => related two one) other run :=
  ⟨hruns.indices.symm, hruns.ending.flip, hruns.machine⟩

theorem run_eq_map_visitsRun (program : Program) (machine : Machine) :
    run program machine = (visitsRun program stepLimit machine.rewind).map (fun _ => ()) :=
  (forget_runFor program _ stepLimit [] machine.rewind).symm

/-- Of runs in step, the second one ends where the first one does, and alike. -/
theorem Interprets.exists_of_runsInStep
    (hruns : ∀ steps, RunsInStep corresponds related (visitsRun left steps one.rewind)
      (visitsRun right steps two.rewind))
    {after : Machine} {failure : Option ExecutionError} (hrun : Interprets left one after failure) :
    ∃ after' failure', Interprets right two after' failure' ∧ related after after' ∧
      (Ending.ofFailure failure).Alike corresponds (.ofFailure failure') := by
  obtain ⟨steps, visits, hvisits⟩ := hrun.exists_visitsRun
  obtain ⟨-, hending, hmachine⟩ := hruns steps
  rcases hright : visitsRun right steps two.rewind with ⟨visits', after', ending⟩
  rw [hvisits, hright] at hending hmachine
  obtain ⟨failure', rfl⟩ := Ending.exists_eq_ofFailure
    (mt hending.eq_outOfSteps_iff.mpr (Ending.ofFailure_ne_outOfSteps failure))
  exact ⟨after', failure', interprets_of_visitsRun hright, hmachine, hending⟩

/-- Where a run of the first program ends, the run of the second one ends alike. -/
theorem Lockstep.interprets (hlockstep : Lockstep left right corresponds related)
    (hrelated : related one.rewind two.rewind) {after : Machine} {failure : Option ExecutionError}
    (hrun : Interprets left one after failure) :
    ∃ after' failure', Interprets right two after' failure' ∧ related after after' ∧
      (Ending.ofFailure failure).Alike corresponds (.ofFailure failure') :=
  hrun.exists_of_runsInStep (hlockstep.runsInStep hrelated)

/-- Where a run of the second program ends, the run of the first one ends alike. -/
theorem Lockstep.exists_interprets (hlockstep : Lockstep left right corresponds related)
    (hrelated : related one.rewind two.rewind) {after : Machine} {failure : Option ExecutionError}
    (hrun : Interprets right two after failure) :
    ∃ after' failure', Interprets left one after' failure' ∧ related after' after ∧
      (Ending.ofFailure failure').Alike corresponds (.ofFailure failure) := by
  obtain ⟨after', failure', hleft, hmachine, hending⟩ :=
    hrun.exists_of_runsInStep fun steps => (hlockstep.runsInStep hrelated steps).flip
  exact ⟨after', failure', hleft, hmachine, hending.flip⟩

/-- Programs in lockstep end alike when they are run from their first statements on. -/
theorem Lockstep.run_alike (hlockstep : Lockstep left right corresponds related)
    (hrelated : related one.rewind two.rewind) :
    (run left one).ending.Alike corresponds (run right two).ending ∧
      related (run left one).machine (run right two).machine := by
  have hruns := hlockstep.runsInStep hrelated stepLimit
  rw [run_eq_map_visitsRun, run_eq_map_visitsRun]
  exact ⟨hruns.ending, hruns.machine⟩

end Machine

end LineBasic
