import Std.Data.ExtTreeMap
import LineBasic.Program.Statement

/-!
# Programs

A program is a sequence of statements with a table of labels.  A label names the index of the
statement that a jump to it goes to; the index may lie behind the last statement, where the program
ends.  Two programs with the same statements and the same label for every name are equal, whatever
the order in which the labels were declared.
-/

namespace LineBasic

/-- A program. -/
structure Program where
  statements : Array Statement := #[]
  labels : Std.ExtTreeMap String Nat := ∅

namespace Program

instance : Inhabited Program := ⟨{}⟩

/-- The program with one more statement at its end. -/
def push (program : Program) (statement : Statement) : Program :=
  { program with statements := program.statements.push statement }

/-- The program with a label for an index.  A label declared again names its latest index. -/
def label (program : Program) (name : String) (index : Nat) : Program :=
  { program with labels := program.labels.insert name index }

/-- The label in front of the next statement to be added. -/
def labelEnd (program : Program) (name : String) : Program :=
  program.label name program.statements.size

/-- The names of the labels for an index, in ascending order. -/
def labelsAt (program : Program) (index : Nat) : List String :=
  (program.labels.toList.filter (·.2 = index)).map (·.1)

/-- The lines of the labels for an index behind a text. -/
def labelLinesAfter (program : Program) (shown : String) (index : Nat) : String :=
  (program.labelsAt index).foldl (fun shown name => shown ++ name ++ "\n") shown

/-- The listing of a program: each statement on a line of its own, the labels for its index on
lines in front of it, and the labels for the end behind the last statement. -/
def listing (program : Program) : String :=
  let shown := (List.range program.statements.size).foldl
    (fun shown index =>
      let labelled := program.labelLinesAfter shown index
      match program.statements[index]? with
      | some statement => labelled ++ statement.listing ++ "\n"
      | none => labelled) ""
  program.labelLinesAfter shown program.statements.size

theorem mem_labelsAt {program : Program} {index : Nat} {name : String} :
    name ∈ program.labelsAt index ↔ program.labels[name]? = some index := by
  simp only [labelsAt, List.mem_map, List.mem_filter, decide_eq_true_eq, Prod.exists,
    exists_and_right, exists_eq_right, Std.ExtTreeMap.mem_toList_iff_getElem?_eq_some]

end Program

end LineBasic
