import LineBasic.Machine.Run

/-!
# What statements do

The effects that a statement can have on a machine, one by one: everything that is proved of runs
follows from these cases.
-/

namespace LineBasic.Machine

/-- The line of a value, as it is written to the sink. -/
def lineBytes (value : Value) : ByteArray :=
  (value.write ++ "\n").toUTF8

theorem labels_of_jumpIndex? {program : Program} {bindings : Bindings} {condition : Expression}
    {label : String} {index : Nat}
    (hjump : jumpIndex? program bindings condition label = .ok (some index)) :
    program.labels[label]? = some index := by
  simp only [jumpIndex?] at hjump
  split at hjump
  · simp at hjump
  · next target htarget =>
    split at hjump <;> simp_all

/-- A statement leaves a machine behind, and a fault if it fails. -/
inductive Executes (program : Program) (machine : Machine) :
    Statement → Machine → Option Fault → Prop where
  | printed {e : Expression} {value : Value} (hvalue : e.evaluate machine.bindings = .ok value)
      (hfits : machine.sink.fits (lineBytes value) = true) :
      Executes program machine (.print e)
        { machine with sink := machine.sink.write (lineBytes value) } none
  | cut {e : Expression} {value : Value} (hvalue : e.evaluate machine.bindings = .ok value)
      (hfits : machine.sink.fits (lineBytes value) = false) :
      Executes program machine (.print e)
        { machine with sink := machine.sink.write (lineBytes value) } (some .sinkFull)
  | printRefused {e : Expression} {error : NotANumber}
      (herror : e.evaluate machine.bindings = .error error) :
      Executes program machine (.print e) machine (some (.notANumber error))
  | assigned {name : String} {e : Expression} {value : Value}
      (hvalue : e.evaluate machine.bindings = .ok value) :
      Executes program machine (.assign name e)
        { machine with bindings := machine.bindings.assign name value } none
  | assignRefused {name : String} {e : Expression} {error : NotANumber}
      (herror : e.evaluate machine.bindings = .error error) :
      Executes program machine (.assign name e) machine (some (.notANumber error))
  | passed {condition : Expression} {label : String}
      (hjump : jumpIndex? program machine.bindings condition label = .ok none) :
      Executes program machine (.jump condition label) machine none
  | jumped {condition : Expression} {label : String} {index : Nat}
      (hjump : jumpIndex? program machine.bindings condition label = .ok (some index)) :
      Executes program machine (.jump condition label) { machine with counter := index } none
  | jumpRefused {condition : Expression} {label : String} {error : NotANumber}
      (herror : jumpIndex? program machine.bindings condition label = .error error) :
      Executes program machine (.jump condition label) machine (some (.notANumber error))

theorem printLine_write (machine : Machine) (value : Value) :
    machine.printLine value.write = ({ machine with sink := machine.sink.write (lineBytes value) },
      if machine.sink.fits (lineBytes value) then none else some .sinkFull) :=
  rfl

theorem executes_execute (program : Program) (statement : Statement) (machine : Machine) :
    Executes program machine statement (execute program statement machine).1
      (execute program statement machine).2 := by
  cases statement with
  | print e =>
    cases hvalue : e.evaluate machine.bindings with
    | error error => simpa [execute, hvalue] using Executes.printRefused hvalue
    | ok value =>
      cases hfits : machine.sink.fits (lineBytes value) with
      | true => simpa [execute, hvalue, printLine_write, hfits] using
          Executes.printed hvalue hfits
      | false => simpa [execute, hvalue, printLine_write, hfits] using
          Executes.cut hvalue hfits
  | assign name e =>
    cases hvalue : e.evaluate machine.bindings with
    | error error => simpa [execute, hvalue] using Executes.assignRefused hvalue
    | ok value => simpa [execute, hvalue] using Executes.assigned hvalue
  | jump condition label =>
    cases hjump : jumpIndex? program machine.bindings condition label with
    | error error => simpa [execute, hjump] using Executes.jumpRefused hjump
    | ok target =>
      cases target with
      | none => simpa [execute, hjump] using Executes.passed hjump
      | some index => simpa [execute, hjump] using Executes.jumped hjump

theorem executes_iff {program : Program} {statement : Statement} {machine after : Machine}
    {fault : Option Fault} :
    Executes program machine statement after fault ↔
      execute program statement machine = (after, fault) := by
  constructor
  · intro heffect
    cases heffect with
    | printed hvalue hfits | cut hvalue hfits => simp [execute, hvalue, printLine_write, hfits]
    | printRefused hvalue | assigned hvalue | assignRefused hvalue => simp [execute, hvalue]
    | passed hjump | jumped hjump | jumpRefused hjump => simp [execute, hjump]
  · intro hexecute
    simpa [hexecute] using executes_execute program statement machine

theorem step_eq_none_iff {program : Program} {statement : Statement} {machine after : Machine} :
    step program statement machine = (after, none) ↔
      Executes program machine.next statement after none := by
  rw [executes_iff, step]
  obtain ⟨left, fault⟩ := execute program statement machine.next
  cases fault <;> simp

theorem step_eq_some_iff {program : Program} {statement : Statement} {machine after : Machine}
    {error : ExecutionError} :
    step program statement machine = (after, some error) ↔
      ∃ fault, Executes program machine.next statement after (some fault) ∧
        error = ⟨machine.counter, statement, fault⟩ := by
  simp only [executes_iff, step]
  obtain ⟨left, fault⟩ := execute program statement machine.next
  cases fault with
  | none => simp
  | some fault =>
    simp only [Prod.mk.injEq, Option.some.injEq]
    constructor
    · rintro ⟨rfl, rfl⟩
      exact ⟨fault, ⟨rfl, rfl⟩, rfl⟩
    · rintro ⟨_, ⟨rfl, rfl⟩, rfl⟩
      exact ⟨rfl, rfl⟩

/-- The sink of a machine is changed by writing to it only. -/
theorem Executes.sink {program : Program} {statement : Statement} {machine after : Machine}
    {fault : Option Fault} (hexecutes : Executes program machine statement after fault) :
    after.sink = machine.sink ∨ ∃ bytes, after.sink = machine.sink.write bytes := by
  cases hexecutes with
  | printed | cut => exact .inr ⟨_, rfl⟩
  | printRefused | assigned | assignRefused | passed | jumped | jumpRefused => exact .inl rfl

/-- Only the sink of a machine that prints a line can be full. -/
theorem Executes.of_sinkFull {program : Program} {statement : Statement} {machine after : Machine}
    (hexecutes : Executes program machine statement after (some .sinkFull)) :
    ∃ e value, statement = .print e ∧ e.evaluate machine.bindings = .ok value ∧
      machine.sink.fits (lineBytes value) = false ∧
      after = { machine with sink := machine.sink.write (lineBytes value) } := by
  obtain _ | ⟨hvalue, hfits⟩ := hexecutes
  exact ⟨_, _, rfl, hvalue, hfits, rfl⟩

end LineBasic.Machine
