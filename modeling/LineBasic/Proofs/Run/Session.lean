import LineBasic.Proofs.Run.Truncation
import LineBasic.Proofs.Run.Visit

/-!
# Sessions

Programs may run one after the other on one machine.  A statement that fails leaves nothing behind
but the counter and what has fitted of a line, so the next program starts from the bindings and the
sink that the last one had come to.  It does there what it does on a new machine with these bindings
and as much room: nothing else is carried from one run to the next.
-/

namespace LineBasic

/-- The sink with more written to it, in front of the rest. -/
def Sink.prepend (bytes : ByteArray) (sink : Sink) : Sink :=
  { sink with written := bytes ++ sink.written }

theorem Sink.write_prepend (before : ByteArray) (sink : Sink) (bytes : ByteArray) :
    (sink.prepend before).write bytes = (sink.write bytes).prepend before := by
  obtain ⟨written, _ | room⟩ := sink <;> simp [prepend, write, ByteArray.append_assoc]

namespace Machine

open Visit

/-- A new machine with the bindings of the machine and with as much room. -/
def renew (machine : Machine) : Machine :=
  { bindings := machine.bindings, sink := machine.sink.drain }

/-- The machine with more written to its sink, in front of the rest. -/
def prependOutput (bytes : ByteArray) (machine : Machine) : Machine :=
  { machine with sink := machine.sink.prepend bytes }

/-- Programs run on a machine one after the other, whether they fail or not. -/
inductive Session : List Program → Machine → Machine → Prop where
  | nil (machine : Machine) : Session [] machine machine
  | cons {program : Program} {programs : List Program} {machine next last : Machine}
      {failure : Option ExecutionError} (hrun : Interprets program machine next failure)
      (hrest : Session programs next last) : Session (program :: programs) machine last

/-- A run fails at its last visit.  Of the machine there only the counter has moved on, and only a
line can have been written in part. -/
structure FailsAt (program : Program) (machine : Machine) (front : List Visit) (last : Visit)
    (after : Machine) (error : ExecutionError) : Prop where
  visits : ∃ steps, visitsRun program steps machine.rewind =
    ⟨front ++ [last], after, .failed error⟩
  index : error.index = last.index
  statement : error.statement = last.statement
  listed : program.statements[error.index]? = some error.statement
  counter : after.counter = error.index + 1
  bindings : after.bindings = last.machine.bindings
  written : last.machine.sink.written = machine.sink.written ++ output front
  notANumber : ∀ refusal, error.fault = .notANumber refusal → after.sink = last.machine.sink
  sinkFull : error.fault = .sinkFull → ∃ e value count, error.statement = .print e ∧
    e.evaluate last.machine.bindings = .ok value ∧ count < (lineBytes value).size ∧
    after.sink.written = last.machine.sink.written ++ (lineBytes value).extract 0 count

variable {program : Program} {statement : Statement} {machine after : Machine}
variable {failure : Option ExecutionError} {fault : Fault} {bytes : ByteArray}

/-! ## Statements that fail -/

/-- A statement that fails changes neither the counter nor the bindings. -/
theorem Executes.unchanged (hexecutes : Executes program machine statement after (some fault)) :
    after.counter = machine.counter ∧ after.bindings = machine.bindings := by
  cases hexecutes with
  | cut | printRefused | assignRefused | jumpRefused => exact ⟨rfl, rfl⟩

theorem Executes.sink_of_notANumber {refusal : NotANumber}
    (hexecutes : Executes program machine statement after (some (.notANumber refusal))) :
    after.sink = machine.sink := by
  cases hexecutes with
  | printRefused | assignRefused | jumpRefused => rfl

/-- What does not fit into a sink is cut in front of its last byte or earlier. -/
theorem exists_written_write_of_not_fits {sink : Sink} (hfits : sink.fits bytes = false) :
    ∃ count, count < bytes.size ∧
      (sink.write bytes).written = sink.written ++ bytes.extract 0 count := by
  obtain ⟨written, _ | room⟩ := sink
  · cases hfits
  · refine ⟨room, ?_, rfl⟩
    simpa [Sink.fits] using hfits

/-- A run that fails does so at its last visit. -/
theorem Interprets.exists_failsAt {error : ExecutionError}
    (hrun : Interprets program machine after (some error)) :
    ∃ front last, FailsAt program machine front last after error := by
  obtain ⟨steps, visits, hvisits⟩ := hrun.exists_visitsRun
  have hmade := visits_visitsRun program steps machine.rewind
  rw [hvisits] at hmade
  obtain ⟨front, last, hseen, hindex, hstatement, hlisted, hexecutes, hwritten⟩ :=
    hmade.of_failed rfl
  obtain rfl : visits = front ++ [last] := hseen
  obtain ⟨hcounter, hbindings⟩ := hexecutes.unchanged
  refine ⟨front, last, ⟨steps, hvisits⟩, hindex, hstatement, hlisted, ?_, hbindings, hwritten,
    ?_, ?_⟩
  · rw [hindex]
    exact hcounter
  · intro refusal hfault
    rw [hfault] at hexecutes
    exact hexecutes.sink_of_notANumber
  · intro hfault
    rw [hfault] at hexecutes
    obtain ⟨e, value, hprint, hvalue, hfits, hafter⟩ := hexecutes.of_sinkFull
    obtain ⟨count, hcount, hcut⟩ := exists_written_write_of_not_fits hfits
    have hsink : after.sink = last.machine.next.sink.write (lineBytes value) :=
      congrArg Machine.sink hafter
    refine ⟨e, value, count, hprint, hvalue, hcount, ?_⟩
    rw [hsink, hcut]
    rfl

/-! ## What is carried on -/

/-- A statement does the same whatever has been written before. -/
theorem Executes.prependOutput {fault : Option Fault} (bytes : ByteArray)
    (hexecutes : Executes program machine statement after fault) :
    Executes program (machine.prependOutput bytes) statement (after.prependOutput bytes) fault := by
  have hwrite : ∀ line, { machine with sink := machine.sink.write line }.prependOutput bytes =
      { machine.prependOutput bytes with
        sink := (machine.prependOutput bytes).sink.write line } := by
    intro line
    simp [Machine.prependOutput, Sink.write_prepend]
  cases hexecutes with
  | printed hvalue hfits =>
    rw [hwrite]
    exact .printed hvalue hfits
  | cut hvalue hfits =>
    rw [hwrite]
    exact .cut hvalue hfits
  | printRefused herror => exact .printRefused herror
  | assigned hvalue => exact .assigned hvalue
  | assignRefused herror => exact .assignRefused herror
  | passed hjump => exact .passed hjump
  | jumped hjump => exact .jumped hjump
  | jumpRefused herror => exact .jumpRefused herror

/-- A program goes in step with itself behind what has been written before. -/
theorem simulates_prependOutput (program : Program) (bytes : ByteArray) :
    Simulates program program (fun one two => two = one.prependOutput bytes)
      (fun after failure after' failure' => after' = after.prependOutput bytes ∧
        failure' = failure) where
  advances := by
    rintro one _ next rfl ⟨hstatement, hstep⟩
    refine ⟨next.prependOutput bytes, ⟨hstatement, ?_⟩, rfl⟩
    rw [step_eq_none_iff] at hstep ⊢
    exact hstep.prependOutput bytes
  stops := by
    rintro one _ after failure rfl hstops
    refine ⟨_, _, ?_, rfl, rfl⟩
    cases hstops with
    | finished hend => exact .finished hend
    | failed hstatement hstep =>
      obtain ⟨fault, hexecutes, rfl⟩ := step_eq_some_iff.mp hstep
      have hexecutes' : Executes program (one.prependOutput bytes).next _ _ (some fault) :=
        hexecutes.prependOutput bytes
      exact .failed hstatement (step_eq_some_iff.mpr ⟨fault, hexecutes', rfl⟩)

theorem prependOutput_renew (machine : Machine) :
    machine.renew.rewind.prependOutput machine.sink.written = machine.rewind := by
  simp [prependOutput, renew, rewind, Sink.prepend, Sink.drain]

/-- A program runs on a machine as it runs on a new one with the same bindings and as much room, and
its output goes behind what has been written before. -/
theorem interprets_iff_renew : Interprets program machine after failure ↔
    ∃ fresh, Interprets program machine.renew fresh failure ∧
      after = fresh.prependOutput machine.sink.written := by
  simp only [interprets_iff_ends]
  have hsimulates := simulates_prependOutput program machine.sink.written
  have hstart := (prependOutput_renew machine).symm
  constructor
  · intro hends
    obtain ⟨fresh, failure', hfresh, hafter, rfl⟩ := hsimulates.exists_ends hstart hends
    exact ⟨fresh, hfresh, hafter⟩
  · rintro ⟨fresh, hfresh, rfl⟩
    obtain ⟨after', failure', hends, rfl, rfl⟩ := hsimulates.ends hstart hfresh
    exact hends

/-- A session goes on with one sink, which takes as many bytes in all as at the start. -/
theorem Session.capacity_eq {programs : List Program} {start machine : Machine}
    (hsession : Session programs start machine) :
    machine.sink.capacity = start.sink.capacity := by
  induction hsession with
  | nil => rfl
  | @cons program programs start next last failure hrun hrest ih =>
    have hends := interprets_iff_ends.mp hrun
    have hnext : next.sink.capacity = start.sink.capacity :=
      hends.sink (fun sink bytes hsink => (Sink.capacity_write sink bytes).trans hsink) rfl
    exact ih.trans hnext

/-- A run that fails leaves the machine as it was at the statement that fails, but for the counter
and a part of a line.  Whatever programs have run on a machine, and however they have ended, the
next one does what it does on a new machine with the same bindings and as much room. -/
theorem failed_runs_leave_bindings_and_sink :
    (∀ (program : Program) (machine after : Machine) (error : ExecutionError),
      Interprets program machine after (some error) →
        ∃ front last, FailsAt program machine front last after error) ∧
    ∀ (programs : List Program) (start machine : Machine), Session programs start machine →
      machine.sink.capacity = start.sink.capacity ∧
      ∀ (program : Program) (after : Machine) (failure : Option ExecutionError),
        Interprets program machine after failure ↔
          ∃ fresh, Interprets program machine.renew fresh failure ∧
            after = fresh.prependOutput machine.sink.written := by
  refine ⟨fun program machine after error hrun => hrun.exists_failsAt, ?_⟩
  intro programs start machine hsession
  exact ⟨hsession.capacity_eq, fun program after failure => interprets_iff_renew⟩

/-- The value of a variable outlives a program that fails at the next assignment to it, and is
printed by a second program as far as the sink has room. -/
theorem failed_runs_leave_bindings_and_sink_two_programs :
    let refused : Statement := .assign "x" (.chain (.string "n") [(.minus, .number 1)])
    let first : Program := ⟨#[.assign "x" (.string "v"), .print (.string "ab"), refused], ∅⟩
    let second : Program := ⟨#[.print (.var "x")], ∅⟩
    let start : Machine := { sink := { room := some 4 } }
    let middle : Machine := ⟨3, ({} : Bindings).assign "x" (.text "v"), ⟨"ab\n".toUTF8, some 1⟩⟩
    let error : ExecutionError := ⟨2, refused, .notANumber ⟨"n"⟩⟩
    (∃ front last, FailsAt first start front last middle error) ∧
      Interprets second middle
        { middle with counter := 1, sink := ⟨"ab\nv".toUTF8, some 0⟩ }
        (some ⟨0, .print (.var "x"), .sinkFull⟩) := by
  intro refused first second start middle error
  have hfirst : Interprets first start middle (some error) := ⟨3, rfl⟩
  have hfresh : Interprets second middle.renew
      { middle with counter := 1, sink := ⟨"v".toUTF8, some 0⟩ }
      (some ⟨0, .print (.var "x"), .sinkFull⟩) := ⟨1, rfl⟩
  obtain ⟨hfailed, hsessions⟩ := failed_runs_leave_bindings_and_sink
  obtain ⟨-, hnext⟩ := hsessions [first] start middle (.cons hfirst (.nil middle))
  exact ⟨hfailed first start middle error hfirst, (hnext _ _ _).mpr ⟨_, hfresh, by rfl⟩⟩

end Machine

end LineBasic
