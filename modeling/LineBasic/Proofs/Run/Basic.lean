import LineBasic.Machine.Run

/-!
# Runs of any length

A run passes through machines, each about to execute the statement at its counter, until one has
no statement left or its statement fails.  This file states that as relations between machines,
without a bound on the number of statements, and proves that the counted runs decide them: a run
ends exactly if some number of statements is enough for it.
-/

namespace LineBasic

/-- The ending of a run that is not given up. -/
def Ending.ofFailure : Option ExecutionError → Ending
  | none => .finished
  | some error => .failed error

theorem Ending.ofFailure_ne_outOfSteps (failure : Option ExecutionError) :
    Ending.ofFailure failure ≠ .outOfSteps := by
  cases failure <;> simp [ofFailure]

theorem Ending.exists_eq_ofFailure {ending : Ending} (hends : ending ≠ .outOfSteps) :
    ∃ failure, ending = .ofFailure failure := by
  cases ending with
  | finished => exact ⟨none, rfl⟩
  | failed error => exact ⟨some error, rfl⟩
  | outOfSteps => exact absurd rfl hends

theorem Ending.ofFailure_injective : Function.Injective Ending.ofFailure := by
  intro left right heq
  cases left <;> cases right <;> simp_all [ofFailure]

namespace Machine

/-- The machine in front of the first statement. -/
def rewind (machine : Machine) : Machine :=
  { machine with counter := 0 }

/-- The run of the program on a machine ends, whatever number of statements that takes.  It leaves
the machine `after`, and the failure of a statement if one fails. -/
def Interprets (program : Program) (machine after : Machine)
    (failure : Option ExecutionError) : Prop :=
  ∃ steps, plainRun program steps machine.rewind = ⟨(), after, .ofFailure failure⟩

/-- The machine executes a statement, which does not fail. -/
inductive Advances (program : Program) (machine after : Machine) : Prop where
  | intro {statement : Statement}
      (hstatement : program.statements[machine.counter]? = some statement)
      (hstep : step program statement machine = (after, none))

/-- The machine executes no further statement: none is left, or the next one fails. -/
inductive Stops (program : Program) : Machine → Machine → Option ExecutionError → Prop where
  | finished {machine : Machine} (hend : program.statements[machine.counter]? = none) :
      Stops program machine machine none
  | failed {machine after : Machine} {statement : Statement} {error : ExecutionError}
      (hstatement : program.statements[machine.counter]? = some statement)
      (hstep : step program statement machine = (after, some error)) :
      Stops program machine after (some error)

/-- The machine executes statements, none of which fails, until it is as the last one. -/
inductive Reaches (program : Program) : Machine → Machine → Prop where
  | refl (machine : Machine) : Reaches program machine machine
  | head {machine next last : Machine} (hnext : Advances program machine next)
      (hrest : Reaches program next last) : Reaches program machine last

/-- The run from the machine's counter on ends. -/
inductive Ends (program : Program) (machine after : Machine) (failure : Option ExecutionError) :
    Prop where
  | intro {last : Machine} (hreaches : Reaches program machine last)
      (hstops : Stops program last after failure)

variable {program : Program} {machine next after last : Machine}
variable {failure : Option ExecutionError}

theorem Ends.stop (hstops : Stops program machine after failure) :
    Ends program machine after failure :=
  ⟨.refl machine, hstops⟩

theorem Ends.step (hnext : Advances program machine next)
    (hends : Ends program next after failure) : Ends program machine after failure := by
  obtain ⟨hreaches, hstops⟩ := hends
  exact ⟨hreaches.head hnext, hstops⟩

theorem Reaches.ends (hreaches : Reaches program machine last)
    (hends : Ends program last after failure) : Ends program machine after failure := by
  induction hreaches with
  | refl => exact hends
  | head hnext _ ih => exact (ih hends).step hnext

/-- A run that ends does so at once, or behind the execution of a statement. -/
theorem ends_iff :
    Ends program machine after failure ↔
      Stops program machine after failure ∨
        ∃ next, Advances program machine next ∧ Ends program next after failure := by
  constructor
  · rintro ⟨hreaches, hstops⟩
    cases hreaches with
    | refl => exact .inl hstops
    | head hnext hrest => exact .inr ⟨_, hnext, hrest, hstops⟩
  · rintro (hstops | ⟨next, hnext, hends⟩)
    · exact .stop hstops
    · exact .step hnext hends

/-- A machine executes its statement in one way. -/
theorem Advances.unique {other : Machine} (hnext : Advances program machine next)
    (hother : Advances program machine other) : next = other := by
  obtain ⟨hstatement, hstep⟩ := hnext
  obtain ⟨hstatement', hstep'⟩ := hother
  rw [hstatement] at hstatement'
  cases hstatement'
  rw [hstep] at hstep'
  cases hstep'
  rfl

/-- A machine that executes its statement without failure does not stop. -/
theorem Advances.not_stops (hnext : Advances program machine next) :
    ¬ Stops program machine after failure := by
  intro hstops
  obtain ⟨hstatement, hstep⟩ := hnext
  cases hstops with
  | finished hend => simp [hend] at hstatement
  | failed hstatement' hstep' =>
    rw [hstatement] at hstatement'
    cases hstatement'
    simp [hstep] at hstep'

theorem Stops.unique {other : Machine} {otherFailure : Option ExecutionError}
    (hstops : Stops program machine after failure)
    (hother : Stops program machine other otherFailure) :
    after = other ∧ failure = otherFailure := by
  cases hstops with
  | finished hend =>
    cases hother with
    | finished => exact ⟨rfl, rfl⟩
    | failed hstatement => simp [hend] at hstatement
  | failed hstatement hstep =>
    cases hother with
    | finished hend => simp [hend] at hstatement
    | failed hstatement' hstep' =>
      rw [hstatement] at hstatement'
      cases hstatement'
      rw [hstep] at hstep'
      cases hstep'
      exact ⟨rfl, rfl⟩

/-- A machine stops or executes its statement. -/
theorem stops_or_advances (program : Program) (machine : Machine) :
    (∃ after failure, Stops program machine after failure) ∨
      ∃ next, Advances program machine next := by
  cases hstatement : program.statements[machine.counter]? with
  | none => exact .inl ⟨machine, none, .finished hstatement⟩
  | some statement =>
    cases hstep : step program statement machine with
    | mk after error =>
      cases error with
      | none => exact .inr ⟨after, hstatement, hstep⟩
      | some error => exact .inl ⟨after, some error, .failed hstatement hstep⟩

/-- A run ends in one way. -/
theorem Ends.unique {other : Machine} {otherFailure : Option ExecutionError}
    (hends : Ends program machine after failure)
    (hother : Ends program machine other otherFailure) :
    after = other ∧ failure = otherFailure := by
  obtain ⟨hreaches, hstops⟩ := hends
  induction hreaches with
  | refl =>
    rcases ends_iff.mp hother with hother | ⟨next, hnext, -⟩
    · exact hstops.unique hother
    · exact absurd hstops hnext.not_stops
  | head hnext hrest ih =>
    rcases ends_iff.mp hother with hother | ⟨next', hnext', hother⟩
    · exact absurd hother hnext.not_stops
    · obtain rfl := hnext.unique hnext'
      exact ih hother hstops

/-! ## Simulations -/

/-- Two programs go in step on related machines: where the one executes a statement the other
does, and where the one stops the other does. -/
structure Simulates (left right : Program) (related : Machine → Machine → Prop)
    (ended : Machine → Option ExecutionError → Machine → Option ExecutionError → Prop) :
    Prop where
  advances : ∀ {one two next}, related one two → Advances left one next →
    ∃ next', Advances right two next' ∧ related next next'
  stops : ∀ {one two after failure}, related one two → Stops left one after failure →
    ∃ after' failure', Stops right two after' failure' ∧ ended after failure after' failure'

section Simulation

variable {left right : Program} {related : Machine → Machine → Prop}
variable {ended : Machine → Option ExecutionError → Machine → Option ExecutionError → Prop}
variable {one two : Machine}

theorem Simulates.ends (hsimulates : Simulates left right related ended)
    (hrelated : related one two) (hends : Ends left one after failure) :
    ∃ after' failure', Ends right two after' failure' ∧ ended after failure after' failure' := by
  obtain ⟨hreaches, hstops⟩ := hends
  induction hreaches generalizing two with
  | refl =>
    obtain ⟨after', failure', hstops', hended⟩ := hsimulates.stops hrelated hstops
    exact ⟨after', failure', .stop hstops', hended⟩
  | head hnext hrest ih =>
    obtain ⟨next', hnext', hrelated'⟩ := hsimulates.advances hrelated hnext
    obtain ⟨after', failure', hends', hended⟩ := ih hrelated' hstops
    exact ⟨after', failure', .step hnext' hends', hended⟩

/-- The program that is followed ends where the following one does. -/
theorem Simulates.exists_ends (hsimulates : Simulates left right related ended)
    (hrelated : related one two) (hends : Ends right two after failure) :
    ∃ after' failure', Ends left one after' failure' ∧ ended after' failure' after failure := by
  obtain ⟨hreaches, hstops⟩ := hends
  induction hreaches generalizing one with
  | refl =>
    obtain ⟨stopped, stopFailure, hstops'⟩ | ⟨next, hnext⟩ := stops_or_advances left one
    · obtain ⟨after', failure', hother, hended⟩ := hsimulates.stops hrelated hstops'
      obtain ⟨rfl, rfl⟩ := hstops.unique hother
      exact ⟨stopped, stopFailure, .stop hstops', hended⟩
    · obtain ⟨next', hnext', -⟩ := hsimulates.advances hrelated hnext
      exact absurd hstops hnext'.not_stops
  | head hnext hrest ih =>
    obtain ⟨stopped, stopFailure, hstops'⟩ | ⟨next', hnext'⟩ := stops_or_advances left one
    · obtain ⟨after', failure', hother, -⟩ := hsimulates.stops hrelated hstops'
      exact absurd hother hnext.not_stops
    · obtain ⟨other, hother, hrelated'⟩ := hsimulates.advances hrelated hnext'
      obtain rfl := hnext.unique hother
      obtain ⟨after', failure', hends', hended⟩ := ih hrelated' hstops
      exact ⟨after', failure', .step hnext' hends', hended⟩

end Simulation

/-! ## Counted runs -/

section Counted

variable {α : Type} (observe : Statement → Machine → α → α) (seen : α)

theorem runFor_succ_of_stops (hstops : Stops program machine after failure) (steps : Nat) :
    ∃ seen', runFor program observe (steps + 1) seen machine =
      ⟨seen', after, .ofFailure failure⟩ := by
  cases hstops with
  | finished hend => exact ⟨seen, by simp [runFor, hend, Ending.ofFailure]⟩
  | failed hstatement hstep =>
    exact ⟨_, by simp only [runFor, hstatement, hstep, Ending.ofFailure]; rfl⟩

theorem exists_runFor_of_advances (hnext : Advances program machine next) :
    ∃ seen', ∀ steps, runFor program observe (steps + 1) seen machine =
      runFor program observe steps seen' next := by
  obtain ⟨hstatement, hstep⟩ := hnext
  exact ⟨_, fun steps => by simp only [runFor, hstatement, hstep]; rfl⟩

/-- A counted run that is not given up is the run. -/
theorem ends_of_runFor {steps : Nat} {seen' : α}
    (hrun : runFor program observe steps seen machine = ⟨seen', after, .ofFailure failure⟩) :
    Ends program machine after failure := by
  induction steps generalizing machine seen with
  | zero =>
    simp only [runFor, Run.mk.injEq] at hrun
    exact absurd hrun.2.2.symm (Ending.ofFailure_ne_outOfSteps failure)
  | succ steps ih =>
    obtain ⟨stopped, stopFailure, hstops⟩ | ⟨next, hnext⟩ := stops_or_advances program machine
    · obtain ⟨_, heq⟩ := runFor_succ_of_stops observe seen hstops steps
      rw [hrun] at heq
      simp only [Run.mk.injEq] at heq
      obtain ⟨-, rfl, hending⟩ := heq
      rw [Ending.ofFailure_injective hending]
      exact .stop hstops
    · obtain ⟨_, heq⟩ := exists_runFor_of_advances observe seen hnext
      rw [heq] at hrun
      exact .step hnext (ih _ hrun)

/-- A run that ends takes some number of statements, and ends so for any larger number. -/
theorem Ends.exists_runFor (hends : Ends program machine after failure) :
    ∃ steps, ∀ further, ∃ seen', runFor program observe (steps + further) seen machine =
      ⟨seen', after, .ofFailure failure⟩ := by
  obtain ⟨hreaches, hstops⟩ := hends
  induction hreaches generalizing seen with
  | refl =>
    refine ⟨1, fun further => ?_⟩
    rw [Nat.add_comm]
    exact runFor_succ_of_stops observe seen hstops further
  | head hnext hrest ih =>
    obtain ⟨seen', hfirst⟩ := exists_runFor_of_advances observe seen hnext
    obtain ⟨steps, hsteps⟩ := ih seen' hstops
    refine ⟨steps + 1, fun further => ?_⟩
    rw [Nat.add_right_comm, hfirst]
    exact hsteps further

end Counted

/-- Runs of the program are the ends of what the rewound machine does. -/
theorem interprets_iff_ends :
    Interprets program machine after failure ↔ Ends program machine.rewind after failure := by
  constructor
  · rintro ⟨steps, hrun⟩
    exact ends_of_runFor _ () hrun
  · intro hends
    obtain ⟨steps, hsteps⟩ := hends.exists_runFor (fun _ _ seen => seen) ()
    obtain ⟨seen, hrun⟩ := hsteps 0
    exact ⟨steps, hrun⟩

/-- A run of the program ends in one way. -/
theorem Interprets.unique {other : Machine} {otherFailure : Option ExecutionError}
    (hrun : Interprets program machine after failure)
    (hother : Interprets program machine other otherFailure) :
    after = other ∧ failure = otherFailure := by
  rw [interprets_iff_ends] at hrun hother
  exact hrun.unique hother

end Machine

end LineBasic
