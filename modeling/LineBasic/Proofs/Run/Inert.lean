import LineBasic.Proofs.Run.Lockstep
import LineBasic.Proofs.Run.Session

/-!
# Jumps without a label

A jump looks for its label before it evaluates its condition.  If the label is not declared, the
jump does nothing, so it makes no difference what its condition is, even if that condition fails.
A label that no jump names is not looked for at all.  So the conditions of such jumps and such
labels may change in any way: the program goes in step with what it was, on the same machine.
-/

namespace LineBasic

/-- What may stand in the place of a statement, under a table of labels: the statement itself, and
for a jump to a label that is not declared a jump to this label with any other condition. -/
inductive Statement.MayReplace (labels : Std.ExtTreeMap String Nat) :
    Statement → Statement → Prop where
  | refl (statement : Statement) : MayReplace labels statement statement
  | condition {label : String} (condition other : Expression) (hlabel : labels[label]? = none) :
      MayReplace labels (.jump condition label) (.jump other label)

/-- A program has the statements of another one, but for the conditions of jumps to labels that are
not declared, and it has the same label for every name that is named by a jump. -/
structure Program.DiffersInertly (program other : Program) : Prop where
  statements : ∀ index : Nat,
    Option.Rel (Statement.MayReplace program.labels) program.statements[index]?
      other.statements[index]?
  labels : ∀ (condition : Expression) (label : String),
    Statement.jump condition label ∈ program.statements →
      other.labels[label]? = program.labels[label]?

/-- A statement of the program, and what may stand in its place. -/
def Program.Counterpart (program : Program) (statement replaced : Statement) : Prop :=
  statement ∈ program.statements ∧ Statement.MayReplace program.labels statement replaced

/-- Two failures are of the statements that the programs have at one index, for one fault. -/
structure ExecutionError.AtOneIndex (program other : Program) (error error' : ExecutionError) :
    Prop where
  index : error'.index = error.index
  fault : error'.fault = error.fault
  statement : program.statements[error.index]? = some error.statement
  statement' : other.statements[error.index]? = some error'.statement

namespace Machine

variable {program other : Program} {machine after : Machine}
variable {failure failure' : Option ExecutionError}

/-! ## Statements -/

theorem jumpIndex?_of_undeclared {label : String} (hlabel : program.labels[label]? = none)
    (bindings : Bindings) (condition : Expression) :
    jumpIndex? program bindings condition label = .ok none := by
  simp only [jumpIndex?, hlabel]

/-- What may stand in the place of a statement does in the other program what the statement does. -/
theorem execute_of_counterpart (hdiffers : program.DiffersInertly other)
    {statement replaced : Statement} (hcounterpart : program.Counterpart statement replaced)
    (machine : Machine) :
    execute other replaced machine = execute program statement machine := by
  obtain ⟨hmem, hreplaced⟩ := hcounterpart
  cases hreplaced with
  | refl statement =>
    cases statement with
    | print e => rfl
    | assign name e => rfl
    | jump condition label =>
      simp only [execute, jumpIndex?, hdiffers.labels condition label hmem]
  | condition condition otherCondition hlabel =>
    have hother := (hdiffers.labels condition _ hmem).trans hlabel
    simp only [execute, jumpIndex?_of_undeclared hlabel, jumpIndex?_of_undeclared hother]

/-- The two programs go in step on one machine. -/
theorem lockstep_of_differsInertly (hdiffers : program.DiffersInertly other) :
    Lockstep program other program.Counterpart Eq where
  statements index := by
    have hreplaced := hdiffers.statements index
    generalize hfound : program.statements[index]? = found at hreplaced ⊢
    generalize other.statements[index]? = found' at hreplaced ⊢
    cases hreplaced with
    | none => exact .none
    | some hreplaced => exact .some ⟨Array.mem_of_getElem? hfound, hreplaced⟩
  counter heq := congrArg counter heq
  executes := by
    rintro statement replaced machine _ after fault hcounterpart rfl hexecutes
    refine ⟨after, ?_, rfl⟩
    rw [executes_iff] at hexecutes ⊢
    rw [execute_of_counterpart hdiffers hcounterpart, hexecutes]

/-! ## Runs -/

theorem Interprets.statement_eq {error : ExecutionError}
    (hrun : Interprets program machine after (some error)) :
    program.statements[error.index]? = some error.statement := by
  obtain ⟨front, last, hfails⟩ := hrun.exists_failsAt
  exact hfails.listed

theorem rel_of_alike {corresponds : Statement → Statement → Prop}
    (hrun : Interprets program machine after failure)
    (hrun' : Interprets other machine after failure')
    (halike : (Ending.ofFailure failure).Alike corresponds (.ofFailure failure')) :
    Option.Rel (ExecutionError.AtOneIndex program other) failure failure' := by
  cases failure with
  | none =>
    cases failure' with
    | none => exact .none
    | some error' => cases halike
  | some error =>
    cases failure' with
    | none => cases halike
    | some error' =>
      cases halike
      exact .some ⟨rfl, rfl, hrun.statement_eq, hrun'.statement_eq⟩

/-- The condition of a jump to a label that is not declared makes no difference, and neither do
labels that no jump names: whatever number of statements they are given, runs of the two programs
visit the same indices, end in the same way and leave the same machine.  Where one of them ends so
does the other, and a failure is of the statement that each program has at the index. -/
theorem undeclared_jumps_are_inert (hdiffers : program.DiffersInertly other) (machine : Machine) :
    (∀ steps, RunsInStep program.Counterpart Eq (visitsRun program steps machine.rewind)
      (visitsRun other steps machine.rewind)) ∧
    (∀ after failure, Interprets program machine after failure →
      ∃ failure', Interprets other machine after failure' ∧
        Option.Rel (ExecutionError.AtOneIndex program other) failure failure') ∧
    ∀ after failure', Interprets other machine after failure' →
      ∃ failure, Interprets program machine after failure ∧
        Option.Rel (ExecutionError.AtOneIndex program other) failure failure' := by
  have hlockstep := lockstep_of_differsInertly hdiffers
  refine ⟨fun steps => hlockstep.runsInStep rfl steps, ?_, ?_⟩
  · intro after failure hrun
    obtain ⟨_, failure', hrun', rfl, halike⟩ := hlockstep.interprets rfl hrun
    exact ⟨failure', hrun', rel_of_alike hrun hrun' halike⟩
  · intro after failure' hrun'
    obtain ⟨_, failure, hrun, rfl, halike⟩ := hlockstep.exists_interprets rfl hrun'
    exact ⟨failure, hrun, rel_of_alike hrun hrun' halike⟩

/-- The condition of a jump without a label fails in the second program alone. -/
theorem undeclared_jumps_are_inert_failing_condition :
    let failing : Expression := .chain (.string "x") [(.minus, .number 1)]
    let rest : Array Statement := #[.jump (.number 1) "end", .print (.string "a"), .print failing]
    let program : Program := ⟨#[.jump (.number 1) "none"] ++ rest, {("end", 3), ("old", 0)}⟩
    let other : Program := ⟨#[.jump failing "none"] ++ rest, {("end", 3), ("new", 9)}⟩
    let error : ExecutionError := ⟨3, .print failing, .notANumber ⟨"x"⟩⟩
    failing.isTrue {} = .error ⟨"x"⟩ ∧ program.DiffersInertly other ∧
      (visitsRun other 9 {}).seen.map Visit.index = [0, 1, 3] ∧
      ∃ error', Interprets other {} { counter := 4 } (some error') ∧
        error.AtOneIndex program other error' := by
  intro failing rest program other error
  have hdiffers : program.DiffersInertly other := by
    constructor
    · intro index
      match index with
      | 0 => exact .some (.condition (.number 1) failing (by decide))
      | 1 | 2 | 3 => exact .some (.refl _)
      | index + 4 =>
        have hend : ∀ first, (#[first] ++ rest)[index + 4]? = none := by simp [rest]
        simp only [program, other, hend]
        exact .none
    · intro condition label hmem
      have hjump : label = "end" ∧ condition = .number 1 ∨
          label = "none" ∧ condition = .number 1 := by
        simpa [program, rest, or_comm, and_comm] using hmem
      rcases hjump with ⟨rfl, -⟩ | ⟨rfl, -⟩ <;> decide
  obtain ⟨hsteps, hends, -⟩ := undeclared_jumps_are_inert hdiffers {}
  have hindices : (visitsRun program 9 {}).seen.map Visit.index = [0, 1, 3] := rfl
  obtain ⟨_, hother, ⟨herror⟩⟩ := hends { counter := 4 } (some error) ⟨9, rfl⟩
  exact ⟨rfl, hdiffers, (hsteps 9).indices ▸ hindices, _, hother, herror⟩

end Machine

end LineBasic
