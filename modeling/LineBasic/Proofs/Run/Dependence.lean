import LineBasic.Proofs.Run.Visit

/-!
# What a run depends on

A program looks at the bindings only where a variable stands in one of its expressions, and changes
them only where it assigns.  So two machines that give the same values to the variables of a program
run it in step, whatever their other bindings are, and names that are not assigned to keep the
values they had.  A name without a value counts as zero throughout.
-/

namespace LineBasic

namespace Expression

mutual

/-- The variables of an expression. -/
def varNames : Expression → List String
  | .number _ => []
  | .string _ => []
  | .var name => [name]
  | .chain first links => varNames first ++ linkVarNames links

/-- The variables of the links of a chain. -/
def linkVarNames : List (Operator × Expression) → List String
  | [] => []
  | (_, operand) :: links => varNames operand ++ linkVarNames links

end

variable {one other : Bindings}

mutual

/-- The value of an expression depends on the values of its variables alone. -/
theorem evaluate_congr (e : Expression)
    (hget : ∀ name ∈ e.varNames, one.get name = other.get name) :
    e.evaluate one = e.evaluate other := by
  match e with
  | .number _ => rfl
  | .string _ => rfl
  | .var name => rw [evaluate, evaluate, hget name (by simp [varNames])]
  | .chain first links =>
    have hfirst : first.evaluate one = first.evaluate other := by
      apply evaluate_congr first
      intro name hname
      exact hget name (by simp [varNames, hname])
    have hlinks : ∀ left, evaluateLinks one left links = evaluateLinks other left links := by
      intro left
      apply evaluateLinks_congr left links
      intro name hname
      exact hget name (by simp [varNames, hname])
    rw [evaluate, evaluate, hfirst]
    simp only [hlinks]

theorem evaluateLinks_congr (left : Value) (links : List (Operator × Expression))
    (hget : ∀ name ∈ linkVarNames links, one.get name = other.get name) :
    evaluateLinks one left links = evaluateLinks other left links := by
  match links with
  | [] => rfl
  | (op, operand) :: links =>
    have hoperand : operand.evaluate one = operand.evaluate other := by
      apply evaluate_congr operand
      intro name hname
      exact hget name (by simp [linkVarNames, hname])
    have hlinks : ∀ left, evaluateLinks one left links = evaluateLinks other left links := by
      intro left
      apply evaluateLinks_congr left links
      intro name hname
      exact hget name (by simp [linkVarNames, hname])
    rw [evaluateLinks, evaluateLinks, hoperand]
    simp only [hlinks]

end

end Expression

/-- The variables that a statement reads. -/
def Statement.varNames : Statement → List String
  | .print e | .assign _ e | .jump e _ => e.varNames

/-- The variables that the statements of a program read. -/
def Program.varNames (program : Program) : List String :=
  program.statements.toList.flatMap Statement.varNames

theorem Program.mem_varNames_of_getElem? {program : Program} {index : Nat} {statement : Statement}
    (hstatement : program.statements[index]? = some statement) {name : String}
    (hname : name ∈ statement.varNames) : name ∈ program.varNames := by
  rw [varNames, List.mem_flatMap]
  exact ⟨statement, Array.mem_toList_iff.mpr (Array.mem_of_getElem? hstatement), hname⟩

namespace Machine

open Visit

/-- Two machines stand at the same place and have written the same, and the names have the same
values on both. -/
structure Alike (names : String → Prop) (one other : Machine) : Prop where
  counter : one.counter = other.counter
  sink : one.sink = other.sink
  get : ∀ name, names name → one.bindings.get name = other.bindings.get name

/-- Two runs go through the same indices, end in the same way and leave machines that are alike,
also in the names that have been given values. -/
structure RunsAlike (names : String → Prop) (left right : Run (List Visit)) : Prop where
  indices : left.seen.map index = right.seen.map index
  assigned : assigned left.seen = assigned right.seen
  ending : left.ending = right.ending
  machine : Alike (fun name => names name ∨ name ∈ Visit.assigned left.seen)
    left.machine right.machine

variable {program : Program} {statement : Statement} {machine one other after : Machine}
variable {names : String → Prop} {fault : Option Fault} {steps : Nat} {run : Run (List Visit)}

/-! ## Statements -/

theorem Alike.next (halike : Alike names one other) : Alike names one.next other.next :=
  ⟨congrArg (· + 1) halike.counter, halike.sink, halike.get⟩

theorem jumpIndex?_congr {left right : Bindings} {condition : Expression} (label : String)
    (hvalue : condition.evaluate left = condition.evaluate right) :
    jumpIndex? program left condition label = jumpIndex? program right condition label := by
  simp only [jumpIndex?, Expression.isTrue, hvalue]

theorem Alike.evaluate_eq (halike : Alike names one other) {e : Expression}
    (hnames : ∀ name ∈ e.varNames, names name) :
    e.evaluate one.bindings = e.evaluate other.bindings := by
  apply e.evaluate_congr
  intro name hname
  exact halike.get name (hnames name hname)

theorem Alike.assigned_eq (halike : Alike names one other)
    (hnames : ∀ name ∈ statement.varNames, names name) :
    assigned [⟨statement, one⟩] = assigned [⟨statement, other⟩] := by
  have hassignment : assignment? ⟨statement, one⟩ = assignment? ⟨statement, other⟩ := by
    cases statement with
    | print | jump => rfl
    | assign name e => simp only [assignment?, halike.evaluate_eq hnames]
  simp only [assigned, assignments, List.filterMap_cons, hassignment, List.filterMap_nil]

theorem assigned_of_evaluate_eq_ok {e : Expression} {value : Value} (name : String)
    (hvalue : e.evaluate machine.bindings = .ok value) :
    assigned [⟨.assign name e, machine⟩] = [name] := by
  simp [assigned, assignments, assignment?, hvalue, Except.toOption]

theorem Alike.mono {others : String → Prop} (halike : Alike names one other)
    (hnames : ∀ name, others name → names name) : Alike others one other :=
  ⟨halike.counter, halike.sink, fun name hname => halike.get name (hnames name hname)⟩

/-- A statement whose variables have the same values does the same on both machines. -/
theorem Alike.executes (halike : Alike names one other)
    (hnames : ∀ name ∈ statement.varNames, names name)
    (hexecutes : Executes program one statement after fault) :
    ∃ after', Executes program other statement after' fault ∧
      Alike (fun name => names name ∨ name ∈ assigned [⟨statement, one⟩]) after after' := by
  have hsame : ∀ e : Expression, (∀ name ∈ e.varNames, names name) →
      e.evaluate one.bindings = e.evaluate other.bindings := fun e he => halike.evaluate_eq he
  obtain ⟨counter, bindings, sink⟩ := other
  obtain ⟨rfl, rfl, hget⟩ := halike
  -- of the eight ways in which a statement is executed, one changes the bindings
  have hkept : assigned [⟨statement, one⟩] = [] → ∀ counter sink,
      Alike (fun name => names name ∨ name ∈ assigned [⟨statement, one⟩])
        ⟨counter, one.bindings, sink⟩ ⟨counter, bindings, sink⟩ := by
    intro hnone counter sink
    refine ⟨rfl, rfl, fun name hname => hget name ?_⟩
    simpa [hnone] using hname
  cases hexecutes with
  | printed hvalue hfits =>
    rw [hsame _ hnames] at hvalue
    exact ⟨_, .printed hvalue hfits, hkept rfl _ _⟩
  | cut hvalue hfits =>
    rw [hsame _ hnames] at hvalue
    exact ⟨_, .cut hvalue hfits, hkept rfl _ _⟩
  | printRefused herror =>
    rw [hsame _ hnames] at herror
    exact ⟨_, .printRefused herror, hkept rfl _ _⟩
  | @assigned assignee e value hvalue =>
    have hassigned := assigned_of_evaluate_eq_ok assignee hvalue
    rw [hsame _ hnames] at hvalue
    refine ⟨_, .assigned hvalue, rfl, rfl, fun name hname => ?_⟩
    rw [hassigned, List.mem_singleton] at hname
    rw [Bindings.get_assign, Bindings.get_assign]
    by_cases hassignee : assignee = name
    · rw [if_pos hassignee, if_pos hassignee]
    · rw [if_neg hassignee, if_neg hassignee]
      exact hget name (hname.resolve_right (Ne.symm hassignee))
  | @assignRefused assignee e error herror =>
    have hnone : assigned [⟨.assign assignee e, one⟩] = [] := by
      simp [assigned, assignments, assignment?, herror, Except.toOption]
    rw [hsame _ hnames] at herror
    exact ⟨_, .assignRefused herror, hkept hnone _ _⟩
  | passed hjump =>
    rw [jumpIndex?_congr _ (hsame _ hnames)] at hjump
    exact ⟨_, .passed hjump, hkept rfl _ _⟩
  | jumped hjump =>
    rw [jumpIndex?_congr _ (hsame _ hnames)] at hjump
    exact ⟨_, .jumped hjump, hkept rfl _ _⟩
  | jumpRefused herror =>
    rw [jumpIndex?_congr _ (hsame _ hnames)] at herror
    exact ⟨_, .jumpRefused herror, hkept rfl _ _⟩

/-- A name that a statement gives no value to keeps the one it had. -/
theorem Executes.get_eq (hexecutes : Executes program machine statement after fault) {name : String}
    (hname : name ∉ Visit.assigned [⟨statement, machine⟩]) :
    after.bindings.get name = machine.bindings.get name := by
  cases hexecutes with
  | printed | cut | printRefused | assignRefused | passed | jumped | jumpRefused => rfl
  | @assigned assignee e value hvalue =>
    rw [assigned_of_evaluate_eq_ok assignee hvalue, List.mem_singleton] at hname
    rw [Bindings.get_assign, if_neg (Ne.symm hname)]

/-! ## Runs -/

/-- A run has its like on a machine that gives the same values to the variables of the program. -/
theorem Visits.exists_alike (hnames : ∀ name ∈ program.varNames, names name)
    (halike : Alike names one other) (hvisits : Visits program steps one run) :
    ∃ run', Visits program steps other run' ∧ RunsAlike names run run' := by
  -- the names that the machines agree on grow by those that each statement gives a value to
  induction hvisits generalizing other names with
  | outOfSteps machine =>
    exact ⟨_, .outOfSteps other, rfl, rfl, rfl, halike.mono (by simp [assigned, assignments])⟩
  | finished steps hend =>
    rw [halike.counter] at hend
    exact ⟨_, .finished steps hend, rfl, rfl, rfl, halike.mono (by simp [assigned, assignments])⟩
  | @failed machine after statement fault steps hstatement hexecutes =>
    have hvariables : ∀ name ∈ statement.varNames, names name := fun name hname =>
      hnames name (program.mem_varNames_of_getElem? hstatement hname)
    obtain ⟨after', hexecutes', halike'⟩ := halike.next.executes hvariables hexecutes
    rw [halike.counter] at hstatement ⊢
    refine ⟨_, .failed steps hstatement hexecutes', ?_, halike.assigned_eq hvariables, rfl,
      halike'⟩
    simp [index, halike.counter]
  | @head steps machine next statement run hstatement hexecutes hrest ih =>
    have hvariables : ∀ name ∈ statement.varNames, names name := fun name hname =>
      hnames name (program.mem_varNames_of_getElem? hstatement hname)
    obtain ⟨next', hexecutes', halike'⟩ := halike.next.executes hvariables hexecutes
    obtain ⟨run', hrest', hruns⟩ := ih (fun name hname => .inl (hnames name hname)) halike'
    rw [halike.counter] at hstatement
    refine ⟨_, .head hstatement hexecutes' hrest', ?_, ?_, hruns.ending, hruns.machine.mono ?_⟩
    · simp [Run.map, index, halike.counter, hruns.indices]
    · simp only [Run.map]
      rw [assigned_cons, halike.assigned_eq hvariables, hruns.assigned, ← assigned_cons]
    · intro name hname
      rw [Run.map, assigned_cons, List.mem_append, ← or_assoc] at hname
      exact hname

/-- A name that a run gives no value to keeps the one it had. -/
theorem Visits.get_eq (hvisits : Visits program steps machine run) {name : String}
    (hname : name ∉ assigned run.seen) :
    run.machine.bindings.get name = machine.bindings.get name := by
  induction hvisits with
  | outOfSteps | finished => rfl
  | failed steps hstatement hexecutes => exact hexecutes.get_eq hname
  | head hstatement hexecutes hrest ih =>
    rw [Run.map, assigned_cons, List.mem_append, not_or] at hname
    exact (ih hname.2).trans (hexecutes.get_eq hname.1)

/-- Two machines with the same sink, which give the same values to the variables of a program, run
it in step: both go through the same statements, print the same and end in the same way, or neither
ends.  They agree in the variables of the program also afterwards and in the names that the run has
given values to, and each keeps the values of all other names. -/
theorem runs_depend_on_variables (program : Program) (one other : Machine)
    (hsink : one.sink = other.sink)
    (hget : ∀ name ∈ program.varNames, one.bindings.get name = other.bindings.get name)
    (steps : Nat) :
    let left := visitsRun program steps one.rewind
    let right := visitsRun program steps other.rewind
    RunsAlike (· ∈ program.varNames) left right ∧
      ∀ name ∉ assigned left.seen,
        left.machine.bindings.get name = one.bindings.get name ∧
        right.machine.bindings.get name = other.bindings.get name := by
  intro left right
  have halike : Alike (· ∈ program.varNames) one.rewind other.rewind := ⟨rfl, hsink, hget⟩
  have hleft : Visits program steps one.rewind left := visits_visitsRun program steps one.rewind
  obtain ⟨run', hright, hruns⟩ := hleft.exists_alike (fun _ hname => hname) halike
  obtain rfl : run' = right := hright.eq_visitsRun
  refine ⟨hruns, fun name hname => ⟨hleft.get_eq hname, hright.get_eq ?_⟩⟩
  rwa [← hruns.assigned]

/-- A loop that counts from a name without a value, and one that counts from zero. -/
theorem runs_depend_on_variables_counting_loop :
    let refused : Statement := .print (.chain (.string "a") [(.minus, .var "i")])
    let program : Program := ⟨#[.assign "i" (.chain (.var "i") [(.plus, .number 1)]),
      .jump (.chain (.var "i") [(.lessThan, .number 2)]) "again", refused], {("again", 0)}⟩
    let counting : Machine :=
      { bindings := (({} : Bindings).assign "i" (.number 0)).assign "z" (.text "b") }
    let left := visitsRun program 9 ({} : Machine).rewind
    let right := visitsRun program 9 counting.rewind
    left.seen.map index = [0, 1, 0, 1, 2] ∧
      left.ending = .failed ⟨2, refused, .notANumber ⟨"a"⟩⟩ ∧
      RunsAlike (· ∈ program.varNames) left right ∧
      right.machine.bindings.get "z" = .text "b" := by
  intro refused program counting left right
  have hget : ∀ name ∈ program.varNames,
      ({} : Bindings).get name = counting.bindings.get name := by
    intro name hname
    obtain rfl : name = "i" := by
      simpa [program, refused, Program.varNames, Statement.varNames, Expression.varNames,
        Expression.linkVarNames] using hname
    decide
  obtain ⟨hruns, hkept⟩ := runs_depend_on_variables program {} counting rfl hget 9
  have hassigned : assigned left.seen = ["i", "i"] := by rfl
  have hz := (hkept "z" (by rw [hassigned]; decide)).2
  exact ⟨by rfl, by rfl, hruns, hz.trans (by decide)⟩

end Machine

end LineBasic
