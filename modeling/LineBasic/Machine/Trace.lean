import LineBasic.Machine.Run

/-!
# Traces

A trace shows the statements of a run in the order of their execution.  After a jump that is taken
it shows the label and the bindings.  It starts with the listing of the program.
-/

namespace LineBasic.Machine

/-- A number in a column of four characters, at its right end. -/
def indexColumn (index : Nat) : String :=
  let digits := Nat.repr index
  String.ofList (List.replicate (4 - digits.length) ' ') ++ digits

/-- The line of a jump, if the statement is a jump that is taken. -/
def jumpLine (program : Program) (statement : Statement) (machine : Machine) : String :=
  match statement with
  | .jump condition label =>
    match jumpIndex? program machine.bindings condition label with
    | .ok (some _) => "       -> " ++ label ++ " " ++ machine.bindings.listing ++ "\n"
    | _ => ""
  | _ => ""

/-- The lines of a statement that the machine is about to execute. -/
def traceLines (program : Program) (statement : Statement) (machine : Machine) : String :=
  "[" ++ indexColumn machine.counter ++ "] " ++ statement.listing ++ "\n" ++
    jumpLine program statement machine

/-- Runs a program as `runFor` does, and collects the trace. -/
def tracedRun (program : Program) (steps : Nat) (machine : Machine) : Run String :=
  runFor program (fun statement machine seen => seen ++ traceLines program statement machine)
    steps program.listing machine

/-- Runs a program from its first statement on, and collects the trace. -/
def runTraced (program : Program) (machine : Machine) : Run String :=
  tracedRun program stepLimit { machine with counter := 0 }

end LineBasic.Machine
