import LineBasic.Proofs.Run.Append
import LineBasic.Proofs.Run.Session

/-!
# The counter of a run

A label that has been read stands behind the statements in front of it, so it names one of the
statements of the program or the end behind the last one.  A jump leads there, and a statement that
is no jump leads to the next one: no run of the program brings the counter behind its end.
-/

namespace LineBasic.Machine

/-- The counter of a run does not leave the program.  Where a statement is looked for it is at a
statement or at the end, also if the run is given up; a run that finishes is at the end, and a run
that fails is behind the statement that has failed. -/
structure StaysInside (program : Program) (machine : Machine) : Prop where
  reached : ∀ state, Reaches program machine.rewind state →
    state.counter ≤ program.statements.size
  counted : ∀ steps, (plainRun program steps machine.rewind).machine.counter ≤
    program.statements.size
  finished : ∀ after, Interprets program machine after none →
    after.counter = program.statements.size
  failed : ∀ after error, Interprets program machine after (some error) →
    after.counter = error.index + 1 ∧ error.index + 1 ≤ program.statements.size

variable {program : Program} {machine after : Machine}

theorem FailsAt.index_lt {front : List Visit} {last : Visit} {error : ExecutionError}
    (hfails : FailsAt program machine front last after error) :
    error.index < program.statements.size :=
  (Array.getElem?_eq_some_iff.mp hfails.listed).1

theorem Visits.counter_le {steps : Nat} {run : Run (List Visit)} (hlabels : program.LabelsInside)
    (hinside : machine.counter ≤ program.statements.size)
    (hvisits : Visits program steps machine run) :
    run.machine.counter ≤ program.statements.size := by
  induction hvisits with
  | outOfSteps | finished => exact hinside
  | failed steps hstatement hexecutes =>
    obtain ⟨hlt, -⟩ := Array.getElem?_eq_some_iff.mp hstatement
    rw [hexecutes.unchanged.1]
    exact hlt
  | head hstatement hexecutes hrest ih =>
    exact ih (Advances.counter_le hlabels ⟨hstatement, step_eq_none_iff.mpr hexecutes⟩)

/-- If no label points behind the end of a program, then no run leaves the program. -/
theorem staysInside_of_labelsInside (hlabels : program.LabelsInside) (machine : Machine) :
    StaysInside program machine where
  reached _ hreaches := hreaches.counter_le hlabels (Nat.zero_le _)
  counted steps := by
    rw [← forget_runFor program _ steps [] machine.rewind]
    exact (visits_visitsRun program steps machine.rewind).counter_le hlabels (Nat.zero_le _)
  finished _ hrun := (interprets_iff_ends.mp hrun).counter_eq hlabels (Nat.zero_le _)
  failed _ _ hrun := by
    obtain ⟨front, last, hfails⟩ := hrun.exists_failsAt
    exact ⟨hfails.counter, hfails.index_lt⟩

/-- The labels of a program that has been read are inside it, and no run of it leaves it, whatever
has been run on the machine before. -/
theorem counter_stays_inside {tokens : List Token} {program : Program}
    (hread : Program.ofTokens tokens = .ok program) :
    program.LabelsInside ∧ ∀ machine, StaysInside program machine := by
  have hlabels := Grammar.labelsInside_of_ofTokens hread
  exact ⟨hlabels, staysInside_of_labelsInside hlabels⟩

/-- A jump to the end, on a machine whose counter is behind it. -/
theorem counter_stays_inside_jump_to_end :
    let tokens : List Token := [⟨.word, "if"⟩, ⟨.string, "a"⟩, ⟨.equals, "="⟩, ⟨.string, "a"⟩,
      ⟨.word, "then"⟩, ⟨.word, "end"⟩, ⟨.lineBreak, "\n"⟩, ⟨.word, "print"⟩, ⟨.string, "b"⟩,
      ⟨.lineBreak, "\n"⟩, ⟨.word, "end"⟩]
    let condition : Expression := .chain (.string "a") [(.equal, .string "a")]
    let program : Program :=
      ((({} : Program).push (.jump condition "end")).push (.print (.string "b"))).labelEnd "end"
    Program.ofTokens tokens = .ok program ∧ program.LabelsInside ∧
      Interprets program { counter := 7 } { counter := 2 } none ∧
      StaysInside program { counter := 7 } := by
  intro tokens condition program
  have hread : Program.ofTokens tokens = .ok program := by cbv
  obtain ⟨hlabels, hinside⟩ := counter_stays_inside hread
  exact ⟨hread, hlabels, ⟨2, rfl⟩, hinside { counter := 7 }⟩

end LineBasic.Machine
