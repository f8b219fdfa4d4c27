import LineBasic.Proofs.Grammar.Program
import LineBasic.Proofs.Run.Basic
import LineBasic.Proofs.Run.Statement

/-!
# Runs of concatenated programs

A program may go on with another one.  If no jump leads from one of the two into the other, and
the labels of the first one do not point behind its end, then running both as one program is
running the first and then, if it does not fail, the second on the machine that the first has
left.
-/

namespace LineBasic

namespace Program

/-- The program that goes on with another one behind its end.  Labels of the second program move
along with its statements. -/
def append (first second : Program) : Program where
  statements := first.statements ++ second.statements
  labels := first.labels ∪ second.labels.map fun _ index => index + first.statements.size

/-- No jump of the program names a label of the other one. -/
def JumpsOutside (program other : Program) : Prop :=
  ∀ (condition : Expression) (label : String),
    Statement.jump condition label ∈ program.statements → other.labels[label]? = none

variable (first second : Program)

theorem getElem?_labels_append (name : String) :
    (first.append second).labels[name]? =
      (second.labels[name]?.map (· + first.statements.size)).or first.labels[name]? := by
  simp [append, Std.ExtTreeMap.getElem?_union, Std.ExtTreeMap.getElem?_map]

theorem JumpsOutside.getElem?_labels {program other : Program} (hjumps : program.JumpsOutside other)
    {index : Nat} {statement : Statement} (hstatement : program.statements[index]? = some statement)
    (condition : Expression) (label : String) (hjump : statement = .jump condition label) :
    other.labels[label]? = none := by
  subst hjump
  exact hjumps condition label (Array.mem_of_getElem? hstatement)

theorem getElem?_statements_append_left {index : Nat} (hindex : index < first.statements.size) :
    (first.append second).statements[index]? = first.statements[index]? :=
  Array.getElem?_append_left hindex

theorem getElem?_statements_append_right (index : Nat) :
    (first.append second).statements[index + first.statements.size]? =
      second.statements[index]? := by
  simp [append, Array.getElem?_append_right]

end Program

/-- The failure of the same statement behind further ones. -/
def ExecutionError.shift (count : Nat) (error : ExecutionError) : ExecutionError :=
  { error with index := error.index + count }

namespace Machine

/-- The machine with its counter behind further statements. -/
def shift (count : Nat) (machine : Machine) : Machine :=
  { machine with counter := machine.counter + count }

theorem shift_rewind (machine : Machine) : machine.rewind.shift machine.counter = machine := by
  simp [shift, rewind]

variable {first second : Program} {machine next after : Machine}
variable {failure : Option ExecutionError}

/-- What a statement does depends on no other label than the one it names. -/
theorem step_congr {left right : Program} {statement : Statement}
    (hlabel : ∀ condition label, statement = .jump condition label →
      left.labels[label]? = right.labels[label]?) (machine : Machine) :
    step left statement machine = step right statement machine := by
  cases statement with
  | print e => rfl
  | assign name e => rfl
  | jump condition label =>
    simp only [step, execute, jumpIndex?, hlabel condition label rfl]

/-! ## The first program -/

theorem Advances.counter_lt (hnext : Advances first machine next) :
    machine.counter < first.statements.size := by
  obtain ⟨hstatement, -⟩ := hnext
  exact (Array.getElem?_eq_some_iff.mp hstatement).1

/-- A program whose labels are inside it does not leave its end behind. -/
theorem Advances.counter_le (hlabels : first.LabelsInside) (hnext : Advances first machine next) :
    next.counter ≤ first.statements.size := by
  obtain ⟨hstatement, hstep⟩ := hnext
  obtain ⟨hinside, -⟩ := Array.getElem?_eq_some_iff.mp hstatement
  rw [step_eq_none_iff] at hstep
  cases hstep with
  | printed | assigned | passed => exact hinside
  | @jumped condition label index hjump => exact hlabels label index (labels_of_jumpIndex? hjump)

theorem Reaches.counter_le (hlabels : first.LabelsInside)
    (hinside : machine.counter ≤ first.statements.size) (hreaches : Reaches first machine after) :
    after.counter ≤ first.statements.size := by
  induction hreaches with
  | refl => exact hinside
  | head hnext _ ih => exact ih (hnext.counter_le hlabels)

theorem step_append_left {statement : Statement} (hjumps : first.JumpsOutside second)
    (hstatement : first.statements[machine.counter]? = some statement) :
    step (first.append second) statement machine = step first statement machine := by
  apply step_congr
  intro condition label hjump
  rw [Program.getElem?_labels_append, hjumps.getElem?_labels hstatement condition label hjump]
  rfl

theorem advances_append_iff (hjumps : first.JumpsOutside second)
    (hinside : machine.counter < first.statements.size) :
    Advances (first.append second) machine next ↔ Advances first machine next := by
  constructor
  · rintro ⟨hstatement, hstep⟩
    rw [Program.getElem?_statements_append_left _ _ hinside] at hstatement
    rw [step_append_left hjumps hstatement] at hstep
    exact ⟨hstatement, hstep⟩
  · rintro ⟨hstatement, hstep⟩
    rw [← step_append_left hjumps hstatement] at hstep
    rw [← Program.getElem?_statements_append_left _ second hinside] at hstatement
    exact ⟨hstatement, hstep⟩

theorem stops_append_iff (hjumps : first.JumpsOutside second)
    (hinside : machine.counter < first.statements.size) :
    Stops (first.append second) machine after failure ↔ Stops first machine after failure := by
  constructor
  · intro hstops
    cases hstops with
    | finished hend =>
      rw [Program.getElem?_statements_append_left _ _ hinside] at hend
      exact .finished hend
    | failed hstatement hstep =>
      rw [Program.getElem?_statements_append_left _ _ hinside] at hstatement
      rw [step_append_left hjumps hstatement] at hstep
      exact .failed hstatement hstep
  · intro hstops
    cases hstops with
    | finished hend =>
      rw [← Program.getElem?_statements_append_left _ second hinside] at hend
      exact .finished hend
    | failed hstatement hstep =>
      rw [← step_append_left hjumps hstatement] at hstep
      rw [← Program.getElem?_statements_append_left _ second hinside] at hstatement
      exact .failed hstatement hstep

theorem Reaches.append (hjumps : first.JumpsOutside second)
    (hreaches : Reaches first machine after) : Reaches (first.append second) machine after := by
  induction hreaches with
  | refl => exact .refl _
  | head hnext _ ih =>
    exact .head ((advances_append_iff hjumps hnext.counter_lt).mpr hnext) ih

/-- A run of both programs fails in the first one, or gets to the end of it. -/
theorem ends_append_cases (hlabels : first.LabelsInside) (hjumps : first.JumpsOutside second)
    (hinside : machine.counter ≤ first.statements.size)
    (hends : Ends (first.append second) machine after failure) :
    (∃ error, failure = some error ∧ Ends first machine after (some error)) ∨
      ∃ middle, Ends first machine middle none ∧ middle.counter = first.statements.size ∧
        Ends (first.append second) middle after failure := by
  obtain ⟨hreaches, hstops⟩ := hends
  induction hreaches with
  | refl machine =>
    by_cases hlt : machine.counter < first.statements.size
    · rw [stops_append_iff hjumps hlt] at hstops
      cases hstops with
      | finished hend =>
        rw [Array.getElem?_eq_none_iff] at hend
        omega
      | failed hstatement hstep => exact .inl ⟨_, rfl, .stop (.failed hstatement hstep)⟩
    · have hcounter : machine.counter = first.statements.size := by omega
      have hend : first.statements[machine.counter]? = none := by simp [hcounter]
      exact .inr ⟨machine, .stop (.finished hend), hcounter, .stop hstops⟩
  | @head machine next last hnext hrest ih =>
    by_cases hlt : machine.counter < first.statements.size
    · rw [advances_append_iff hjumps hlt] at hnext
      obtain ⟨error, hfailure, hends⟩ | ⟨middle, hends, hcounter, hrest⟩ :=
        ih (hnext.counter_le hlabels) hstops
      · exact .inl ⟨error, hfailure, hends.step hnext⟩
      · exact .inr ⟨middle, hends.step hnext, hcounter, hrest⟩
    · have hcounter : machine.counter = first.statements.size := by omega
      have hend : first.statements[machine.counter]? = none := by simp [hcounter]
      exact .inr ⟨machine, .stop (.finished hend), hcounter, hrest.head hnext, hstops⟩

/-- The end of the first program is where its run ends, if no statement fails. -/
theorem Ends.counter_eq (hlabels : first.LabelsInside)
    (hinside : machine.counter ≤ first.statements.size)
    (hends : Ends first machine after none) : after.counter = first.statements.size := by
  obtain ⟨hreaches, hstops⟩ := hends
  obtain ⟨hend⟩ := hstops
  rw [Array.getElem?_eq_none_iff] at hend
  exact Nat.le_antisymm (hreaches.counter_le hlabels hinside) hend

/-! ## The second program -/

theorem jumpIndex?_append_right (second : Program) (bindings : Bindings) (condition : Expression)
    {label : String} (hlabel : first.labels[label]? = none) :
    jumpIndex? (first.append second) bindings condition label =
      (jumpIndex? second bindings condition label).map
        (Option.map (· + first.statements.size)) := by
  simp only [jumpIndex?, Program.getElem?_labels_append, hlabel, Option.or_none]
  cases second.labels[label]? with
  | none => rfl
  | some index =>
    rcases condition.isTrue bindings with error | _ | _ <;> rfl

/-- A statement behind further ones does what it does without them. -/
theorem Executes.append_right {statement : Statement} {fault : Option Fault}
    (hlabel : ∀ condition label, statement = .jump condition label →
      first.labels[label]? = none)
    (hexecutes : Executes second machine statement after fault) :
    Executes (first.append second) (machine.shift first.statements.size) statement
      (after.shift first.statements.size) fault := by
  cases hexecutes with
  | printed hvalue hfits => exact .printed hvalue hfits
  | cut hvalue hfits => exact .cut hvalue hfits
  | printRefused herror => exact .printRefused herror
  | assigned hvalue => exact .assigned hvalue
  | assignRefused herror => exact .assignRefused herror
  | @passed condition label hjump =>
    have happend := jumpIndex?_append_right second machine.bindings condition (hlabel _ _ rfl)
    rw [hjump] at happend
    exact .passed happend
  | @jumped condition label index hjump =>
    have happend := jumpIndex?_append_right second machine.bindings condition (hlabel _ _ rfl)
    rw [hjump] at happend
    exact .jumped happend
  | @jumpRefused condition label error herror =>
    have happend := jumpIndex?_append_right second machine.bindings condition (hlabel _ _ rfl)
    rw [herror] at happend
    exact .jumpRefused happend

theorem shift_next (machine : Machine) (count : Nat) :
    (machine.shift count).next = machine.next.shift count := by
  simp [shift, next, Nat.add_right_comm]

/-- Behind the first program, the second one goes in step with itself. -/
theorem simulates_append_right (hjumps : second.JumpsOutside first) :
    Simulates second (first.append second)
      (fun one two => two = one.shift first.statements.size)
      (fun after failure after' failure' => after' = after.shift first.statements.size ∧
        failure' = failure.map (·.shift first.statements.size)) where
  advances := by
    rintro one _ next rfl ⟨hstatement, hstep⟩
    refine ⟨next.shift first.statements.size, ?_, rfl⟩
    rw [step_eq_none_iff] at hstep
    have hexecutes := hstep.append_right (hjumps.getElem?_labels hstatement)
    rw [← shift_next, ← step_eq_none_iff] at hexecutes
    rw [← Program.getElem?_statements_append_right first] at hstatement
    exact ⟨hstatement, hexecutes⟩
  stops := by
    rintro one _ after failure rfl hstops
    refine ⟨_, _, ?_, rfl, rfl⟩
    cases hstops with
    | finished hend =>
      rw [← Program.getElem?_statements_append_right first] at hend
      exact .finished hend
    | failed hstatement hstep =>
      obtain ⟨fault, hexecutes, rfl⟩ := step_eq_some_iff.mp hstep
      have hexecutes := hexecutes.append_right (hjumps.getElem?_labels hstatement)
      rw [← shift_next] at hexecutes
      rw [← Program.getElem?_statements_append_right first] at hstatement
      exact .failed hstatement (step_eq_some_iff.mpr ⟨fault, hexecutes, rfl⟩)

theorem ends_append_right_iff (hjumps : second.JumpsOutside first) :
    Ends (first.append second) (machine.shift first.statements.size) after failure ↔
      ∃ last lastFailure, Ends second machine last lastFailure ∧
        after = last.shift first.statements.size ∧
        failure = lastFailure.map (·.shift first.statements.size) := by
  constructor
  · intro hends
    exact (simulates_append_right hjumps).exists_ends rfl hends
  · rintro ⟨last, lastFailure, hends, rfl, rfl⟩
    obtain ⟨_, _, hends', rfl, rfl⟩ := (simulates_append_right hjumps).ends rfl hends
    exact hends'

/-! ## Both programs -/

/-- Two programs that run as one are the first one, if that fails, and otherwise the first one and
then the second one on the machine that the first has left.  The counter and the failures of the
second one are behind the statements of the first. -/
theorem interprets_append_iff (hlabels : first.LabelsInside)
    (hfirst : first.JumpsOutside second) (hsecond : second.JumpsOutside first) :
    Interprets (first.append second) machine after failure ↔
      (∃ error, failure = some error ∧ Interprets first machine after (some error)) ∨
        ∃ middle last lastFailure, Interprets first machine middle none ∧
          Interprets second middle last lastFailure ∧
          after = last.shift first.statements.size ∧
          failure = lastFailure.map (·.shift first.statements.size) := by
  simp only [interprets_iff_ends]
  have hstart : machine.rewind.counter ≤ first.statements.size := Nat.zero_le _
  constructor
  · intro hends
    obtain hfailed | ⟨middle, hmiddle, hcounter, hrest⟩ :=
      ends_append_cases hlabels hfirst hstart hends
    · exact .inl hfailed
    · rw [← shift_rewind middle, hcounter, ends_append_right_iff hsecond] at hrest
      obtain ⟨last, lastFailure, hlast, hafter, hfailure⟩ := hrest
      exact .inr ⟨middle, last, lastFailure, hmiddle, hlast, hafter, hfailure⟩
  · rintro (⟨error, rfl, hends⟩ | ⟨middle, last, lastFailure, hmiddle, hlast, hafter, hfailure⟩)
    · obtain ⟨hreaches, hstops⟩ := hends
      obtain - | ⟨hstatement, hstep⟩ := hstops
      have hlt := (Array.getElem?_eq_some_iff.mp hstatement).1
      exact ⟨hreaches.append hfirst, (stops_append_iff hfirst hlt).mpr (.failed hstatement hstep)⟩
    · have hcounter := hmiddle.counter_eq hlabels hstart
      have hrest := (ends_append_right_iff hsecond).mpr ⟨last, lastFailure, hlast, hafter, hfailure⟩
      rw [← hcounter, shift_rewind] at hrest
      obtain ⟨hreaches, hstops⟩ := hmiddle
      obtain ⟨-⟩ := hstops
      exact (hreaches.append hfirst).ends hrest

/-- The first program jumps to its end, and the second one fails behind a line that it prints. -/
theorem interprets_append_jump_then_failure :
    let first : Program :=
      ⟨#[.jump (.number 1) "end", .print (.string "skipped")], {("end", 2)}⟩
    let refused : Statement := .print (.chain (.string "x") [(.minus, .number 1)])
    let second : Program := ⟨#[.print (.string "shown"), refused], ∅⟩
    Interprets (first.append second) {} { counter := 4, sink := { written := "shown\n".toUTF8 } }
      (some ⟨3, refused, .notANumber ⟨"x"⟩⟩) := by
  intro first refused second
  have hlabels : first.LabelsInside := by
    intro name index hname
    simp only [first, Std.ExtTreeMap.singleton_eq_insert, Std.ExtTreeMap.getElem?_insert] at hname
    split at hname
    · cases hname
      decide
    · simp at hname
  have hfirst : first.JumpsOutside second := by simp [Program.JumpsOutside, second]
  have hsecond : second.JumpsOutside first := by simp [Program.JumpsOutside, second, refused]
  have hmiddle : Interprets first {} { counter := 2 } none := ⟨2, rfl⟩
  have hlast : Interprets second { counter := 2 }
      { counter := 2, sink := { written := "shown\n".toUTF8 } }
      (some ⟨1, refused, .notANumber ⟨"x"⟩⟩) := ⟨2, rfl⟩
  exact (interprets_append_iff hlabels hfirst hsecond).mpr
    (.inr ⟨_, _, _, hmiddle, hlast, rfl, rfl⟩)

end Machine

end LineBasic
