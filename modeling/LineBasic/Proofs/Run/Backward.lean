import Mathlib.Data.List.Chain
import LineBasic.Proofs.Run.Trace
import LineBasic.Proofs.Run.Visit

/-!
# Jumps back

The counter of a machine moves on with every statement, except where a jump is taken to its own
index or to one in front of it.  Between two such jumps a run goes through ascending indices, so it
executes each statement at most once there, and the number of jumps back bounds the length of the
run: only they can keep it from ending.
-/

namespace LineBasic

/-- The visit is of a jump that is taken to its own index or to one in front of it. -/
def Visit.LeadsBack (program : Program) (visit : Visit) : Prop :=
  ∃ label target, Machine.TakesJump program visit.machine.bindings visit.statement label target ∧
    target ≤ visit.index

/-- Every jump to a label that is declared leads to an index behind its own. -/
def Program.JumpsAhead (program : Program) : Prop :=
  ∀ (index : Nat) (condition : Expression) (label : String) (target : Nat),
    program.statements[index]? = some (.jump condition label) →
      program.labels[label]? = some target → index < target

/-- The index that the jump of a visit leads to, if it is taken. -/
def Visit.target? (program : Program) (visit : Visit) : Option Nat :=
  match visit.statement with
  | .jump condition label =>
    (Machine.jumpIndex? program visit.machine.bindings condition label).toOption.join
  | .print _ | .assign _ _ => none

theorem Visit.target?_eq_some_iff {program : Program} {visit : Visit} {target : Nat} :
    visit.target? program = some target ↔
      ∃ label, Machine.TakesJump program visit.machine.bindings visit.statement label target := by
  obtain ⟨statement, machine⟩ := visit
  cases statement with
  | print e | assign name e =>
    constructor
    · intro htarget
      cases htarget
    · rintro ⟨label, htakes⟩
      cases htakes
  | jump condition label =>
    have hjump : (target? program ⟨.jump condition label, machine⟩ = some target) ↔
        Machine.jumpIndex? program machine.bindings condition label = .ok (some target) := by
      simp only [target?]
      cases Machine.jumpIndex? program machine.bindings condition label <;>
        simp [Except.toOption]
    rw [hjump, Machine.jumpIndex?_eq_some_iff]
    constructor
    · intro htakes
      exact ⟨label, htakes⟩
    · rintro ⟨other, htakes⟩
      cases htakes with
      | intro hlabel hvalue hnumber hnonzero => exact .intro hlabel hvalue hnumber hnonzero

theorem Visit.leadsBack_iff {program : Program} {visit : Visit} :
    visit.LeadsBack program ↔ ∃ target ∈ visit.target? program, target ≤ visit.index := by
  simp only [LeadsBack, Option.mem_def, target?_eq_some_iff]
  constructor
  · rintro ⟨label, target, htakes, hle⟩
    exact ⟨target, ⟨label, htakes⟩, hle⟩
  · rintro ⟨target, ⟨label, htakes⟩, hle⟩
    exact ⟨label, target, htakes, hle⟩

instance (program : Program) : DecidablePred (Visit.LeadsBack program) := fun _ =>
  decidable_of_iff' _ Visit.leadsBack_iff

/-- The number of visits that lead back. -/
def Visit.jumpsBack (program : Program) (visits : List Visit) : Nat :=
  visits.countP fun visit => visit.LeadsBack program

theorem Visit.jumpsBack_cons_of_leadsBack {program : Program} {visit : Visit}
    (hback : visit.LeadsBack program) (visits : List Visit) :
    jumpsBack program (visit :: visits) = jumpsBack program visits + 1 :=
  List.countP_cons_of_pos (decide_eq_true hback)

theorem Visit.jumpsBack_cons_of_not_leadsBack {program : Program} {visit : Visit}
    (hback : ¬ visit.LeadsBack program) (visits : List Visit) :
    jumpsBack program (visit :: visits) = jumpsBack program visits :=
  List.countP_cons_of_neg (by simpa using hback)

theorem Visit.exists_leadsBack_of_jumpsBack_pos {program : Program} {visits : List Visit}
    (hpos : 0 < jumpsBack program visits) : ∃ visit ∈ visits, visit.LeadsBack program := by
  obtain ⟨visit, hvisit, hback⟩ := List.countP_pos_iff.mp hpos
  exact ⟨visit, hvisit, of_decide_eq_true hback⟩

namespace Machine

open Visit

variable {program : Program} {statement : Statement} {machine next : Machine}
variable {steps : Nat} {run : Run (List Visit)}

/-! ## What a visit leads to -/

/-- The counter moves on, unless a jump leads back. -/
theorem Executes.leadsBack_or_lt (hexecutes : Executes program machine.next statement next none) :
    LeadsBack program ⟨statement, machine⟩ ∨ machine.counter < next.counter := by
  cases hexecutes with
  | printed | assigned | passed => exact .inr (Nat.lt_succ_self machine.counter)
  | @jumped condition label target hjump =>
    by_cases hle : target ≤ machine.counter
    · exact .inl ⟨label, target, jumpIndex?_eq_some_iff.mp hjump, hle⟩
    · exact .inr (Nat.lt_of_not_le hle)

/-- A visit is of the statement at its index. -/
theorem Visits.getElem?_statements (hvisits : Visits program steps machine run) {visit : Visit}
    (hvisit : visit ∈ run.seen) : program.statements[visit.index]? = some visit.statement := by
  induction hvisits with
  | outOfSteps | finished => cases hvisit
  | failed steps hstatement hexecutes =>
    rw [List.mem_singleton.mp hvisit]
    exact hstatement
  | head hstatement hexecutes hrest ih =>
    rcases List.mem_cons.mp hvisit with rfl | hvisit
    · exact hstatement
    · exact ih hvisit

/-- If jumps lead ahead, none leads back. -/
theorem Visits.not_leadsBack (hahead : program.JumpsAhead)
    (hvisits : Visits program steps machine run) {visit : Visit} (hvisit : visit ∈ run.seen) :
    ¬ visit.LeadsBack program := by
  rintro ⟨label, target, htakes, hle⟩
  have hstatement := hvisits.getElem?_statements hvisit
  generalize visit.statement = statement at htakes hstatement
  cases htakes with
  | intro hlabel =>
    have hlt : visit.index < target := hahead _ _ label target hstatement hlabel
    exact absurd hle (Nat.not_le_of_lt hlt)

/-! ## Ascending indices -/

/-- The first visit is at the counter of the machine. -/
theorem Visits.index_head (hvisits : Visits program steps machine run) :
    ∀ visit ∈ run.seen.head?, visit.index = machine.counter := by
  intro visit hvisit
  cases hvisits with
  | outOfSteps | finished => cases hvisit
  | failed | head =>
    cases hvisit
    rfl

/-- Each visit leads back, or the next one is behind it. -/
theorem Visits.isChain (hvisits : Visits program steps machine run) :
    run.seen.IsChain fun visit other => visit.LeadsBack program ∨ visit.index < other.index := by
  induction hvisits with
  | outOfSteps | finished => exact .nil
  | failed => exact .singleton _
  | head hstatement hexecutes hrest ih =>
    rw [Run.map, List.isChain_cons]
    refine ⟨fun other hother => ?_, ih⟩
    rw [hrest.index_head other hother]
    exact hexecutes.leadsBack_or_lt

/-- Visits of which only the last leads back have ascending indices. -/
theorem Visits.pairwise_index_lt (hvisits : Visits program steps machine run)
    {segment : List Visit} (hsegment : segment <:+: run.seen)
    (hahead : ∀ visit ∈ segment.dropLast, ¬ visit.LeadsBack program) :
    (segment.map index).Pairwise (· < ·) := by
  have hchain := hvisits.isChain.infix hsegment
  rw [← List.isChain_iff_pairwise, List.isChain_map]
  rw [List.isChain_iff_forall_rel_of_append_cons_cons] at hchain ⊢
  rintro visit other front back rfl
  apply (hchain rfl).resolve_left
  apply hahead
  simp [List.dropLast_append_of_ne_nil]

/-! ## The length of a run -/

theorem Visits.length_of_outOfSteps (hvisits : Visits program steps machine run)
    (hending : run.ending = .outOfSteps) : run.seen.length = steps := by
  induction hvisits with
  | outOfSteps => rfl
  | finished | failed => cases hending
  | head hstatement hexecutes hrest ih =>
    rw [Run.map, List.length_cons, ih hending]

/-- Each jump back allows as many statements as the program has, and in front of the first one there
are those behind the counter. -/
theorem Visits.length_le (hvisits : Visits program steps machine run) :
    run.seen.length ≤ program.statements.size - machine.counter +
      program.statements.size * jumpsBack program run.seen := by
  induction hvisits with
  | outOfSteps | finished => exact Nat.zero_le _
  | failed steps hstatement hexecutes =>
    obtain ⟨hinside, -⟩ := Array.getElem?_eq_some_iff.mp hstatement
    rw [List.length_singleton]
    omega
  | @head steps machine next statement run hstatement hexecutes hrest ih =>
    obtain ⟨hinside, -⟩ := Array.getElem?_eq_some_iff.mp hstatement
    simp only [Run.map, List.length_cons]
    by_cases hback : LeadsBack program ⟨statement, machine⟩
    · rw [jumpsBack_cons_of_leadsBack hback, Nat.mul_succ]
      omega
    · have hlt := hexecutes.leadsBack_or_lt.resolve_left hback
      rw [jumpsBack_cons_of_not_leadsBack hback]
      omega

/-- A run ends, or it has initial segments with any number of jumps back. -/
theorem interprets_or_jumpsBack (program : Program) (machine : Machine) :
    (∃ after failure, Interprets program machine after failure) ∨
      ∀ count, ∃ steps,
        count < jumpsBack program (visitsRun program steps machine.rewind).seen := by
  apply or_iff_not_imp_left.mpr
  intro hendless count
  obtain ⟨steps, hsteps⟩ : ∃ steps, steps = program.statements.size * (count + 1) + 1 := ⟨_, rfl⟩
  have hvisits := visits_visitsRun program steps machine.rewind
  refine ⟨steps, ?_⟩
  generalize hrun : visitsRun program steps machine.rewind = run at hvisits ⊢
  have hending : run.ending = .outOfSteps := by
    by_contra hends
    obtain ⟨failure, hfailure⟩ := Ending.exists_eq_ofFailure hends
    apply hendless
    have hended : visitsRun program steps machine.rewind =
        ⟨run.seen, run.machine, .ofFailure failure⟩ := by rw [hrun, ← hfailure]
    exact ⟨run.machine, failure, interprets_of_visitsRun hended⟩
  have hlength : steps ≤ program.statements.size - machine.rewind.counter +
      program.statements.size * jumpsBack program run.seen := by
    rw [← hvisits.length_of_outOfSteps hending]
    exact hvisits.length_le
  -- with so few jumps back the run would have been shorter
  by_contra hfew
  have hmul : program.statements.size * jumpsBack program run.seen ≤
      program.statements.size * count := Nat.mul_le_mul_left _ (Nat.le_of_not_lt hfew)
  rw [hsteps, Nat.mul_succ] at hlength
  omega

/-- A run executes at most as many statements as the program has for each jump back and once more,
and its indices ascend between jumps back.  So a run that does not end jumps back again and again,
and a program whose jumps lead ahead always ends and executes each statement at most once. -/
theorem jumps_back_bound_runs (program : Program) (machine : Machine) :
    (∀ steps, (visitsRun program steps machine.rewind).seen.length ≤ program.statements.size *
      (jumpsBack program (visitsRun program steps machine.rewind).seen + 1)) ∧
    (∀ steps segment, segment <:+: (visitsRun program steps machine.rewind).seen →
      (∀ visit ∈ segment.dropLast, ¬ visit.LeadsBack program) →
        (segment.map index).Pairwise (· < ·)) ∧
    ((∃ after failure, Interprets program machine after failure) ∨
      ∀ count, ∃ steps,
        count < jumpsBack program (visitsRun program steps machine.rewind).seen) ∧
    (program.JumpsAhead →
      (∃ after failure, Interprets program machine after failure) ∧
      ∀ steps, ((visitsRun program steps machine.rewind).seen.map index).Nodup) := by
  have hvisits := fun steps => visits_visitsRun program steps machine.rewind
  refine ⟨?_, ?_, interprets_or_jumpsBack program machine, ?_⟩
  · intro steps
    have hlength := (hvisits steps).length_le
    rw [Nat.mul_succ]
    omega
  · intro steps segment hsegment hahead
    exact (hvisits steps).pairwise_index_lt hsegment hahead
  · intro hahead
    constructor
    · apply (interprets_or_jumpsBack program machine).resolve_right
      intro hback
      obtain ⟨steps, hcount⟩ := hback 0
      obtain ⟨visit, hvisit, hleads⟩ := exists_leadsBack_of_jumpsBack_pos hcount
      exact (hvisits steps).not_leadsBack hahead hvisit hleads
    · intro steps
      apply List.Pairwise.imp (R := (· < ·)) Nat.ne_of_lt
      apply (hvisits steps).pairwise_index_lt List.infix_rfl
      intro visit hvisit
      exact (hvisits steps).not_leadsBack hahead (List.dropLast_subset _ hvisit)

/-- A loop that jumps back once, and a jump over a statement to an index behind the end. -/
theorem jumps_back_bound_runs_loop_and_skip :
    let counting : Program := ⟨#[.assign "i" (.chain (.var "i") [(.plus, .number 1)]),
      .jump (.chain (.var "i") [(.lessThan, .number 2)]) "again", .print (.var "i")],
      {("again", 0)}⟩
    let visits := (visitsRun counting 9 ({} : Machine).rewind).seen
    let skipping : Program := ⟨#[.jump (.number 1) "end", .print (.string "a")], {("end", 7)}⟩
    visits.map index = [0, 1, 0, 1, 2] ∧ jumpsBack counting visits = 1 ∧
      visits.length ≤ 3 * (1 + 1) ∧ ((visits.drop 2).map index).Pairwise (· < ·) ∧
      skipping.JumpsAhead ∧ ∃ after failure, Interprets skipping {} after failure := by
  intro counting visits skipping
  have hback : jumpsBack counting visits = 1 := by decide +kernel
  have hahead : ∀ visit ∈ (visits.drop 2).dropLast, ¬ visit.LeadsBack counting := by
    decide +kernel
  have hskipping : skipping.JumpsAhead := by
    intro index condition label target hstatement hlabel
    match index with
    | 0 =>
      cases hstatement
      obtain rfl : 7 = target := by simpa [skipping] using hlabel
      decide
    | 1 => cases hstatement
    | index + 2 => simp [skipping] at hstatement
  obtain ⟨hlength, hascending, -, -⟩ := jumps_back_bound_runs counting {}
  obtain ⟨-, -, -, hends⟩ := jumps_back_bound_runs skipping {}
  have hlength := hlength 9
  rw [hback] at hlength
  have hinfix : visits.drop 2 <:+: visits := (List.drop_suffix 2 visits).isInfix
  exact ⟨by rfl, hback, hlength, hascending 9 _ hinfix hahead, hskipping, (hends hskipping).1⟩

end Machine

end LineBasic
