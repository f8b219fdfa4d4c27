import LineBasic.Proofs.Grammar.Program
import LineBasic.Proofs.Run.Basic
import LineBasic.Proofs.Run.Observer
import LineBasic.Proofs.Run.Statement
import LineBasic.Proofs.Run.TraceText
import LineBasic.Script

/-!
# Traces of runs

The trace of a run is the text of entries, one for each statement that is executed, and collecting
it has no influence on the run.  The entries are a path through the program, which follows from the
program alone: an entry stands where the one in front of it leads to, and whether a jump is taken is
told by the bindings that the assignments in front of it make up.  The path can be read off the
text, since no other entries that report statements of the program have the same lines.
-/

namespace LineBasic

namespace TraceEntry

/-- The index that an entry leads to: that of the label, if a jump is taken. -/
def nextIndex (program : Program) (entry : TraceEntry) : Nat :=
  match entry.jump? with
  | none => entry.index + 1
  | some (label, _) => program.labels[label]?.getD entry.index

/-- The index that a list of entries leads to. -/
def nextIndexOf (program : Program) (entries : List TraceEntry) : Nat :=
  match entries.getLast? with
  | none => 0
  | some entry => entry.nextIndex program

end TraceEntry

namespace Machine

open TraceEntry

variable {program : Program} {statement : Statement} {machine next : Machine}
variable {bindings : Bindings} {condition : Expression} {label : String}

/-! ## Entries -/

/-- What the trace says of a jump. -/
def takenJump? (program : Program) (statement : Statement) (bindings : Bindings) :
    Option (String × Bindings) :=
  match statement with
  | .jump condition label =>
    match jumpIndex? program bindings condition label with
    | .ok (some _) => some (label, bindings)
    | _ => none
  | _ => none

/-- The entry for a statement that the machine is about to execute. -/
def traceEntry (program : Program) (statement : Statement) (machine : Machine) : TraceEntry :=
  ⟨machine.counter, statement, takenJump? program statement machine.bindings⟩

/-- The run with the entries of its trace, behind other ones. -/
def entriesRun (program : Program) (steps : Nat) (entries : List TraceEntry) (machine : Machine) :
    Run (List TraceEntry) :=
  runFor program (fun statement machine seen => seen ++ [traceEntry program statement machine])
    steps entries machine

theorem text_traceEntry (program : Program) (statement : Statement) (machine : Machine) :
    (traceEntry program statement machine).text = traceLines program statement machine := by
  have hjump : jumpText (takenJump? program statement machine.bindings) =
      jumpLine program statement machine := by
    cases statement with
    | print | assign => rfl
    | jump condition label =>
      simp only [takenJump?, jumpLine]
      rcases jumpIndex? program machine.bindings condition label with error | _ | index <;> rfl
  rw [text, traceLines, ← hjump, indexColumn_eq_indexText, traceEntry]

/-- The trace is the text of the entries behind the listing of the program. -/
theorem tracedRun_eq_map (program : Program) (steps : Nat) (machine : Machine) :
    tracedRun program steps machine =
      (entriesRun program steps [] machine).map
        fun entries => program.listing ++ texts entries := by
  calc tracedRun program steps machine
    _ = runFor program (fun statement machine seen => seen ++ traceLines program statement machine)
        steps (program.listing ++ texts []) machine := by simp [tracedRun, texts]
    _ = _ := by
      symm
      apply map_runFor
      intro statement machine entries
      simp [texts, String.append_assoc, text_traceEntry]

/-! ## Jumps and bindings -/

/-- The statement is a jump to a label that is declared, and its condition is a number other than
zero. -/
inductive TakesJump (program : Program) (bindings : Bindings) :
    Statement → String → Nat → Prop where
  | intro {condition : Expression} {label : String} {index : Nat} {value : Value} {x : Float}
      (hlabel : program.labels[label]? = some index)
      (hvalue : condition.evaluate bindings = .ok value) (hnumber : value.toNumber = .ok x)
      (hnonzero : (x != 0) = true) :
      TakesJump program bindings (.jump condition label) label index

theorem TakesJump.labels_eq_some {index : Nat}
    (htakes : TakesJump program bindings statement label index) :
    program.labels[label]? = some index := by
  cases htakes with
  | intro hlabel => exact hlabel

theorem TakesJump.statement_eq {index : Nat}
    (htakes : TakesJump program bindings statement label index) :
    ∃ condition, statement = .jump condition label := by
  cases htakes
  exact ⟨_, rfl⟩

theorem isTrue_eq_true_iff : condition.isTrue bindings = .ok true ↔
    ∃ value x, condition.evaluate bindings = .ok value ∧ value.toNumber = .ok x ∧
      (x != 0) = true := by
  rw [Expression.isTrue]
  cases condition.evaluate bindings with
  | error error => simp
  | ok value =>
    cases hnumber : value.toNumber with
    | error error => simp [hnumber]
    | ok x => simp [hnumber]

theorem jumpIndex?_eq_some_iff {index : Nat} :
    jumpIndex? program bindings condition label = .ok (some index) ↔
      TakesJump program bindings (.jump condition label) label index := by
  have htakes : TakesJump program bindings (.jump condition label) label index ↔
      program.labels[label]? = some index ∧ condition.isTrue bindings = .ok true := by
    rw [isTrue_eq_true_iff]
    constructor
    · rintro ⟨hlabel, hvalue, hnumber, hnonzero⟩
      exact ⟨hlabel, _, _, hvalue, hnumber, hnonzero⟩
    · rintro ⟨hlabel, value, x, hvalue, hnumber, hnonzero⟩
      exact .intro hlabel hvalue hnumber hnonzero
  rw [htakes, jumpIndex?]
  cases program.labels[label]? with
  | none => simp
  | some target => rcases condition.isTrue bindings with error | _ | _ <;> simp

theorem takenJump?_eq_some_iff {shown : Bindings} :
    takenJump? program statement bindings = some (label, shown) ↔
      shown = bindings ∧ ∃ index, TakesJump program bindings statement label index := by
  constructor
  · intro htaken
    unfold takenJump? at htaken
    split at htaken
    · split at htaken
      · next hjump =>
        cases htaken
        exact ⟨rfl, _, jumpIndex?_eq_some_iff.mp hjump⟩
      · cases htaken
    · cases htaken
  · rintro ⟨rfl, index, htakes⟩
    have hjump := htakes
    cases htakes
    simp [takenJump?, jumpIndex?_eq_some_iff.mpr hjump]

theorem Executes.bindings_eq_replay {fault : Option Fault}
    (hexecutes : Executes program machine statement next fault) :
    next.bindings = machine.bindings.replay statement := by
  cases hexecutes with
  | printed | cut | printRefused | passed | jumped | jumpRefused => rfl
  | assigned hvalue | assignRefused hvalue => simp [Bindings.replay, hvalue]

/-- The machine behind a statement stands where the entry for the statement leads to. -/
theorem Executes.counter_eq_nextIndex
    (hexecutes : Executes program machine.next statement next none) :
    next.counter = (traceEntry program statement machine).nextIndex program := by
  cases hexecutes with
  | printed | assigned => rfl
  | passed hjump =>
    change jumpIndex? program machine.bindings _ _ = .ok none at hjump
    simp [traceEntry, takenJump?, TraceEntry.nextIndex, hjump, Machine.next]
  | jumped hjump =>
    change jumpIndex? program machine.bindings _ _ = .ok (some _) at hjump
    simp [traceEntry, takenJump?, TraceEntry.nextIndex, hjump, labels_of_jumpIndex? hjump]

/-! ## Paths -/

/-- The run on a machine has executed a number of statements when it comes to another one. -/
def Passes (program : Program) (start : Machine) (count : Nat) (machine : Machine) : Prop :=
  plainRun program count start = ⟨(), machine, .outOfSteps⟩

/-- An entry stands behind others as it has to. -/
structure Follows (program : Program) (start : Machine) (front : List TraceEntry)
    (entry : TraceEntry) : Prop where
  executed : ∃ machine, Passes program start front.length machine ∧ machine.counter = entry.index
  index : entry.index = nextIndexOf program front
  statement : program.statements[entry.index]? = some entry.statement
  jump : ∀ label bindings, entry.jump? = some (label, bindings) ↔
    bindings = replayed front ∧ ∃ index, TakesJump program bindings entry.statement label index

/-- Each entry stands behind those in front of it as it has to. -/
def IsPath (program : Program) (start : Machine) (entries : List TraceEntry) : Prop :=
  Each (Follows program start) entries

/-- The entries tell of a run of at most a number of statements how it ends: the path leads to the
end of the program, or its last entry is of the statement that fails, or there are as many entries
as statements were allowed. -/
inductive Tells (program : Program) (start : Machine) (steps : Nat) :
    List TraceEntry → Machine → Ending → Prop where
  | finished {entries : List TraceEntry} {after : Machine} (hpath : IsPath program start entries)
      (hpasses : Passes program start entries.length after)
      (hnext : nextIndexOf program entries = program.statements.size) :
      Tells program start steps entries after .finished
  | failed {front : List TraceEntry} {entry : TraceEntry} {machine after : Machine}
      {error : ExecutionError} (hpath : IsPath program start (front ++ [entry]))
      (hpasses : Passes program start front.length machine)
      (hstops : Stops program machine after (some error))
      (hindex : entry.index = error.index) (hstatement : entry.statement = error.statement) :
      Tells program start steps (front ++ [entry]) after (.failed error)
  | outOfSteps {entries : List TraceEntry} {after : Machine} (hpath : IsPath program start entries)
      (hpasses : Passes program start entries.length after) (hlength : entries.length = steps) :
      Tells program start steps entries after .outOfSteps

variable {start : Machine} {entries : List TraceEntry} {entry : TraceEntry}

theorem nextIndexOf_append_singleton (entries : List TraceEntry) (entry : TraceEntry) :
    nextIndexOf program (entries ++ [entry]) = entry.nextIndex program := by
  simp [nextIndexOf]

/-- A path does not leave the end of the program behind. -/
theorem IsPath.nextIndexOf_le (hlabels : program.LabelsInside)
    (hpath : IsPath program start entries) :
    nextIndexOf program entries ≤ program.statements.size := by
  obtain rfl | ⟨front, entry, rfl⟩ := entries.eq_nil_or_concat
  · exact Nat.zero_le _
  · rw [List.concat_eq_append] at hpath ⊢
    obtain ⟨-, hentry⟩ := Each.last hpath
    obtain ⟨hinside, -⟩ := Array.getElem?_eq_some_iff.mp hentry.statement
    rw [nextIndexOf_append_singleton, nextIndex]
    cases hjump : entry.jump? with
    | none => exact hinside
    | some jump =>
      obtain ⟨label, bindings⟩ := jump
      obtain ⟨-, index, htakes⟩ := (hentry.jump label bindings).mp hjump
      simpa [htakes.labels_eq_some] using hlabels label index htakes.labels_eq_some

theorem Follows.unique {other : TraceEntry} (hentry : Follows program start entries entry)
    (hother : Follows program start entries other) : entry = other := by
  have hindex := hentry.index.trans hother.index.symm
  have hstatement := hentry.statement
  rw [hindex, hother.statement] at hstatement
  have hjump : entry.jump? = other.jump? := by
    apply Option.ext
    rintro ⟨label, bindings⟩
    rw [hentry.jump, hother.jump, Option.some.inj hstatement]
  exact TraceEntry.ext hindex (Option.some.inj hstatement).symm hjump

/-- What is said along a path is true of the program. -/
theorem IsPath.areReports (hpath : IsPath program start entries) : AreReports program entries := by
  intro front entry back heq
  have hentry := hpath front entry back heq
  refine ⟨hentry.statement, fun label bindings hjump => ?_⟩
  obtain ⟨rfl, index, htakes⟩ := (hentry.jump label bindings).mp hjump
  exact ⟨rfl, htakes.statement_eq⟩

/-- The program determines a path of a number of entries. -/
theorem IsPath.unique {others : List TraceEntry} (hpath : IsPath program start entries)
    (hother : IsPath program start others) (hlength : entries.length = others.length) :
    entries = others := by
  induction entries using List.reverseRecOn generalizing others with
  | nil => exact (List.length_eq_zero_iff.mp hlength.symm).symm
  | append_singleton front entry ih =>
    obtain rfl | ⟨front', last, rfl⟩ := others.eq_nil_or_concat
    · simp at hlength
    · rw [List.concat_eq_append] at hother ⊢
      obtain ⟨hfront, hentry⟩ := Each.last hpath
      obtain ⟨hfront', hlast⟩ := Each.last hother
      obtain rfl := ih hfront hfront' (by simpa using hlength)
      rw [hentry.unique hlast]

/-! ## Runs -/

theorem runFor_add {α : Type} {observe : Statement → Machine → α → α} {count : Nat}
    {seen seen' : α} (hrun : runFor program observe count seen machine = ⟨seen', next, .outOfSteps⟩)
    (steps : Nat) : runFor program observe (count + steps) seen machine =
      runFor program observe steps seen' next := by
  induction count generalizing seen machine with
  | zero =>
    cases hrun
    rw [Nat.zero_add]
  | succ count ih =>
    rw [Nat.add_right_comm, runFor]
    rw [runFor] at hrun
    cases hstatement : program.statements[machine.counter]? with
    | none => simp [hstatement] at hrun
    | some statement =>
      simp only [hstatement] at hrun ⊢
      cases hstep : step program statement machine with
      | mk after error =>
        simp only [hstep] at hrun ⊢
        cases error with
        | none => exact ih hrun
        | some error => cases hrun

theorem Passes.succ {count : Nat} (hpasses : Passes program start count machine)
    (hstatement : program.statements[machine.counter]? = some statement)
    (hstep : step program statement machine = (next, none)) :
    Passes program start (count + 1) next := by
  rw [Passes, plainRun, runFor_add hpasses, runFor]
  simp only [hstatement, hstep, runFor]

/-- The run has collected the entries and goes on with the machine. -/
structure Underway (program : Program) (start : Machine) (entries : List TraceEntry)
    (machine : Machine) : Prop where
  path : IsPath program start entries
  passes : Passes program start entries.length machine
  counter : machine.counter = nextIndexOf program entries
  bindings : machine.bindings = replayed entries

theorem underway_nil (program : Program) (sink : Sink) :
    Underway program { sink := sink } [] { sink := sink } :=
  ⟨each_nil _, rfl, rfl, rfl⟩

/-- The entry for the next statement stands behind the others as it has to. -/
theorem Underway.isPath (hunderway : Underway program start entries machine)
    (hstatement : program.statements[machine.counter]? = some statement) :
    IsPath program start (entries ++ [traceEntry program statement machine]) := by
  apply Each.append_singleton hunderway.path
  refine ⟨⟨machine, hunderway.passes, rfl⟩, hunderway.counter, hstatement, ?_⟩
  intro label bindings
  rw [← hunderway.bindings]
  constructor
  · intro hjump
    obtain ⟨rfl, htakes⟩ := takenJump?_eq_some_iff.mp hjump
    exact ⟨rfl, htakes⟩
  · rintro ⟨rfl, htakes⟩
    exact takenJump?_eq_some_iff.mpr ⟨rfl, htakes⟩

/-- A statement that does not fail adds its entry. -/
theorem Underway.advance (hunderway : Underway program start entries machine)
    (hstatement : program.statements[machine.counter]? = some statement)
    (hstep : step program statement machine = (next, none)) :
    Underway program start (entries ++ [traceEntry program statement machine]) next := by
  have hexecutes := step_eq_none_iff.mp hstep
  refine ⟨hunderway.isPath hstatement, ?_, ?_, ?_⟩
  · rw [List.length_append]
    exact hunderway.passes.succ hstatement hstep
  · rw [nextIndexOf_append_singleton]
    exact hexecutes.counter_eq_nextIndex
  · rw [replayed_append_singleton, ← hunderway.bindings]
    exact hexecutes.bindings_eq_replay

/-- The entries tell of the run how it ends. -/
theorem Underway.tells (hlabels : program.LabelsInside)
    (hunderway : Underway program start entries machine) (steps : Nat) :
    Tells program start (entries.length + steps) (entriesRun program steps entries machine).seen
      (entriesRun program steps entries machine).machine
      (entriesRun program steps entries machine).ending := by
  induction steps generalizing entries machine with
  | zero => exact .outOfSteps hunderway.path hunderway.passes rfl
  | succ steps ih =>
    rw [entriesRun, runFor]
    cases hstatement : program.statements[machine.counter]? with
    | none =>
      have hle := hunderway.path.nextIndexOf_le hlabels
      rw [← hunderway.counter] at hle
      have hge := Array.getElem?_eq_none_iff.mp hstatement
      have hnext : nextIndexOf program entries = program.statements.size := by
        rw [← hunderway.counter]
        exact Nat.le_antisymm hle hge
      exact .finished hunderway.path hunderway.passes hnext
    | some statement =>
      cases hstep : step program statement machine with
      | mk after error =>
        simp only [hstep]
        cases error with
        | none =>
          have htells := ih (hunderway.advance hstatement hstep)
          rwa [List.length_append, Nat.add_assoc, List.length_singleton, Nat.add_comm 1] at htells
        | some error =>
          obtain ⟨fault, -, rfl⟩ := step_eq_some_iff.mp hstep
          exact .failed (hunderway.isPath hstatement) hunderway.passes (.failed hstatement hstep)
            rfl rfl

theorem Tells.isPath {steps : Nat} {after : Machine} {ending : Ending}
    (htells : Tells program start steps entries after ending) : IsPath program start entries := by
  cases htells with
  | finished hpath | failed hpath | outOfSteps hpath => exact hpath

end Machine

namespace Script

open Machine TraceEntry

theorem labelsInside_of_ofSource {source : String} {program : Program}
    (hread : Program.ofSource source = .ok program) : program.LabelsInside :=
  Grammar.labelsInside_of_ofTokens hread

/-- A script runs in the same way with the trace and without.  The trace of a script that is not
rejected is the listing of its program and then the lines of entries, which tell of the run how it
ends, whatever number of statements it is given, and which are the only path of their length.  The
text determines them: no other entries that report statements of the program have the same lines. -/
theorem trace_tells_run (source : String) (sink : Sink) :
    (runTraced source sink).map (·.map fun _ => ()) = run source sink ∧
    (∀ rejection, Program.ofSource source = .error rejection →
      runTraced source sink = .error rejection) ∧
    ∀ program, Program.ofSource source = .ok program →
      runTraced source sink = .ok (tracedRun program stepLimit { sink := sink }) ∧
      ∀ steps, (tracedRun program steps { sink := sink }).map (fun _ => ()) =
          plainRun program steps { sink := sink } ∧
        ∃ entries, (tracedRun program steps { sink := sink }).seen =
            program.listing ++ texts entries ∧
          Tells program { sink := sink } steps entries
            (plainRun program steps { sink := sink }).machine
            (plainRun program steps { sink := sink }).ending ∧
          (∀ others, IsPath program { sink := sink } others → others.length = entries.length →
            others = entries) ∧
          ∀ others, AreReports program others →
            (tracedRun program steps { sink := sink }).seen = program.listing ++ texts others →
            others = entries := by
  refine ⟨?_, ?_, ?_⟩
  · rw [runTraced, run]
    cases Program.ofSource source with
    | error rejection => rfl
    | ok program => exact congrArg Except.ok (forget_runFor program _ stepLimit _ { sink := sink })
  · intro rejection hread
    rw [runTraced, hread]
    rfl
  · intro program hread
    refine ⟨by rw [runTraced, hread]; rfl, fun steps => ⟨forget_runFor _ _ _ _ _, ?_⟩⟩
    have htells := (underway_nil program sink).tells (labelsInside_of_ofSource hread) steps
    rw [List.length_nil, Nat.zero_add] at htells
    have hplain : (entriesRun program steps [] { sink := sink }).map (fun _ => ()) =
        plainRun program steps { sink := sink } := forget_runFor _ _ _ _ _
    rw [← hplain, tracedRun_eq_map]
    refine ⟨_, rfl, htells, fun others hothers => hothers.unique htells.isPath, ?_⟩
    intro others hothers htext
    have htexts := (String.append_right_inj _).mp htext
    exact (htells.isPath.areReports.eq_of_texts_eq [] hothers htexts).symm

/-- A jump over a statement, to one that fails. -/
theorem trace_tells_run_jump_then_failure :
    let source := "x = \"a\"\nif x = x then end\nprint \"b\"\nend\nprint x - x"
    let jump : Statement := .jump (.chain (.var "x") [(.equal, .var "x")]) "end"
    let refused : Statement := .print (.chain (.var "x") [(.minus, .var "x")])
    let bindings := ({} : Bindings).assign "x" (.text "a")
    let entries : List TraceEntry := [⟨0, .assign "x" (.string "a"), none⟩,
      ⟨1, jump, some ("end", bindings)⟩, ⟨3, refused, none⟩]
    ∃ program, Program.ofSource source = .ok program ∧
      (tracedRun program 4 {}).ending = .failed ⟨3, refused, .notANumber ⟨"a"⟩⟩ ∧
      (tracedRun program 4 {}).seen = "x = \"a\"\nif (x = x) then end\nprint \"b\"\nend\n" ++
        "print (x - x)\n[   0] x = \"a\"\n[   1] if (x = x) then end\n" ++
        "       -> end \x7b\"x\": a\x7d\n[   3] print (x - x)\n" ∧
      AreReports program entries ∧ IsPath program {} entries := by
  intro source jump refused bindings entries
  let skipping : Program :=
    ((({} : Program).push (.assign "x" (.string "a"))).push jump).push (.print (.string "b"))
  let program : Program := (skipping.labelEnd "end").push refused
  have hscan : Token.scan source = [⟨.word, "x"⟩, ⟨.equals, "="⟩, ⟨.string, "a"⟩,
      ⟨.lineBreak, "\n"⟩, ⟨.word, "if"⟩, ⟨.word, "x"⟩, ⟨.equals, "="⟩, ⟨.word, "x"⟩,
      ⟨.word, "then"⟩, ⟨.word, "end"⟩, ⟨.lineBreak, "\n"⟩, ⟨.word, "print"⟩, ⟨.string, "b"⟩,
      ⟨.lineBreak, "\n"⟩, ⟨.word, "end"⟩, ⟨.lineBreak, "\n"⟩, ⟨.word, "print"⟩, ⟨.word, "x"⟩,
      ⟨.operator, "-"⟩, ⟨.word, "x"⟩] := by
    decide +kernel
  have hread : Program.ofSource source = .ok program := by
    rw [Program.ofSource, hscan]
    cbv
  have hseen : (tracedRun program 4 {}).seen = program.listing ++ texts entries := by
    rw [tracedRun_eq_map]
    rfl
  have hreports : AreReports program entries := by
    have hassign : Reports program [] entries[0] := ⟨rfl, fun _ _ htaken => by cases htaken⟩
    have hjump : Reports program [entries[0]] entries[1] := by
      refine ⟨rfl, fun label shown htaken => ?_⟩
      cases htaken
      exact ⟨rfl, _, rfl⟩
    have hrefused : Reports program [entries[0], entries[1]] entries[2] :=
      ⟨rfl, fun _ _ htaken => by cases htaken⟩
    exact (((each_nil _).append_singleton hassign).append_singleton hjump).append_singleton hrefused
  have hbindings : bindings.listing = "\x7b\"x\": a\x7d" := by
    have hvalues : bindings.values.toList = [("x", .text "a")] := rfl
    rw [Bindings.listing, hvalues]
    simp only [List.map_cons, List.map_nil, String.intercalate_singleton, Bindings.entryListing,
      Text.quoted, String.foldl_eq_foldl_toList]
    decide +kernel
  obtain ⟨-, -, hprograms⟩ := trace_tells_run source {}
  obtain ⟨-, hsteps⟩ := hprograms program hread
  obtain ⟨hsame, entries', -, htells, -, hunique⟩ := hsteps 4
  obtain rfl := hunique entries hreports hseen
  refine ⟨program, hread, ?_, ?_, hreports, htells.isPath⟩
  · have hending : (plainRun program 4 {}).ending = .failed ⟨3, refused, .notANumber ⟨"a"⟩⟩ := rfl
    rw [← hending, ← hsame, Run.map]
  · have hlisting : program.listing =
        "x = \"a\"\nif (x = x) then end\nprint \"b\"\nend\nprint (x - x)\n" := by
      decide +kernel
    rw [hseen, hlisting]
    simp only [entries, texts, List.map_cons, List.map_nil, text, jumpText, hbindings]
    decide +kernel

end Script

end LineBasic
