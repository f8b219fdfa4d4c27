import LineBasic.Machine.Trace
import LineBasic.Reading.Program

/-!
# Scripts

A script is the text of a program.  It is read as a whole before any of it is run, so a script that
is rejected prints nothing.
-/

namespace LineBasic.Script

/-- Runs a script on a new machine with a sink. -/
def run (source : String) (sink : Sink) : Except Rejection (Run Unit) :=
  (Program.ofSource source).map fun program => Machine.run program { sink := sink }

/-- Runs a script on a new machine with a sink, and collects the trace. -/
def runTraced (source : String) (sink : Sink) : Except Rejection (Run String) :=
  (Program.ofSource source).map fun program => Machine.runTraced program { sink := sink }

end LineBasic.Script
