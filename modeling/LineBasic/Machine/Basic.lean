import LineBasic.Machine.Sink
import LineBasic.Program.Basic
import LineBasic.Value.Evaluation

/-!
# Machines

A machine runs a program.  Its counter is the index of the next statement, its bindings are the
values of the variables, and what it prints goes to its sink.  A statement that fails has no effect
but that the counter has moved on and that a sink has taken what fitted of a line.
-/

namespace LineBasic

/-- The state of a run. -/
structure Machine where
  /-- The index of the next statement. -/
  counter : Nat := 0
  /-- The values of the variables. -/
  bindings : Bindings := {}
  /-- Where the printed lines go. -/
  sink : Sink := {}
deriving Inhabited

/-- Why a statement fails. -/
inductive Fault where
  /-- A text that spells no number has been taken for one. -/
  | notANumber (error : NotANumber)
  /-- A line does not fit into the sink. -/
  | sinkFull
deriving DecidableEq, Repr, Inhabited

/-- What is said of a fault. -/
def Fault.message : Fault → String
  | notANumber error => error.message
  | sinkFull => "IO error: " ++ Sink.fullMessage

/-- The failure of a statement of a program. -/
structure ExecutionError where
  /-- The index of the statement. -/
  index : Nat
  /-- The statement at the index. -/
  statement : Statement
  fault : Fault
deriving Inhabited

/-- What is said of a failure. -/
def ExecutionError.message (error : ExecutionError) : String :=
  "Error executing statement " ++ Nat.repr error.index ++ ": " ++ error.statement.listing ++
    " - " ++ error.fault.message

namespace Machine

/-- The listing of a machine. -/
def listing (machine : Machine) : String :=
  "Interpreter \x7b program_counter: " ++ Nat.repr machine.counter ++ ", environment: " ++
    machine.bindings.listing ++ " \x7d"

/-- Prints a line. -/
def printLine (machine : Machine) (line : String) : Machine × Option Fault :=
  let bytes := (line ++ "\n").toUTF8
  let fault := if machine.sink.fits bytes then none else some .sinkFull
  match machine with
  | ⟨counter, bindings, sink⟩ => (⟨counter, bindings, sink.write bytes⟩, fault)

/-- The index that a jump goes to, if it is taken.  A jump to a label that is not declared is never
taken, and its condition is not evaluated. -/
def jumpIndex? (program : Program) (bindings : Bindings) (condition : Expression)
    (label : String) : Except NotANumber (Option Nat) :=
  match program.labels[label]? with
  | none => .ok none
  | some index =>
    match condition.isTrue bindings with
    | .error error => .error error
    | .ok true => .ok (some index)
    | .ok false => .ok none

/-- Executes a statement.  The fault, if there is one, comes with the machine as it is then. -/
def execute (program : Program) (statement : Statement) (machine : Machine) :
    Machine × Option Fault :=
  match statement with
  | .print e =>
    match e.evaluate machine.bindings with
    | .error error => (machine, some (.notANumber error))
    | .ok value => machine.printLine value.write
  | .assign name e =>
    match e.evaluate machine.bindings with
    | .error error => (machine, some (.notANumber error))
    | .ok value => ({ machine with bindings := machine.bindings.assign name value }, none)
  | .jump condition label =>
    match jumpIndex? program machine.bindings condition label with
    | .error error => (machine, some (.notANumber error))
    | .ok none => (machine, none)
    | .ok (some index) => ({ machine with counter := index }, none)

/-- The machine with the counter at the next statement in the order of the program. -/
def next (machine : Machine) : Machine :=
  { machine with counter := machine.counter + 1 }

end Machine

end LineBasic
