import LineBasic.Proofs.Run.Basic
import LineBasic.Proofs.Run.Sink
import LineBasic.Proofs.Run.Statement

/-!
# Runs into bounded sinks

A machine whose sink takes fewer bytes does the same as long as the bytes fit.  If they all fit,
its run ends in the same way, and otherwise it ends at the line that holds the first byte beyond
the bound.
-/

namespace LineBasic.Machine

variable {program : Program} {machine next after last : Machine} {failure : Option ExecutionError}
variable {bound : Nat}

/-! ## Sinks along runs -/

section Sinks

variable {property : Sink → Prop}

theorem Advances.sink (hwrite : ∀ sink bytes, property sink → property (sink.write bytes))
    (hnext : Advances program machine next) (hsink : property machine.sink) :
    property next.sink := by
  obtain ⟨-, hstep⟩ := hnext
  obtain heq | ⟨bytes, heq⟩ := (step_eq_none_iff.mp hstep).sink
  · rwa [heq]
  · rw [heq]
    exact hwrite _ _ hsink

theorem Stops.sink (hwrite : ∀ sink bytes, property sink → property (sink.write bytes))
    (hstops : Stops program machine after failure) (hsink : property machine.sink) :
    property after.sink := by
  cases hstops with
  | finished => exact hsink
  | failed _ hstep =>
    obtain ⟨fault, hexecutes, -⟩ := step_eq_some_iff.mp hstep
    obtain heq | ⟨bytes, heq⟩ := hexecutes.sink
    · rwa [heq]
    · rw [heq]
      exact hwrite _ _ hsink

theorem Reaches.sink (hwrite : ∀ sink bytes, property sink → property (sink.write bytes))
    (hreaches : Reaches program machine last) (hsink : property machine.sink) :
    property last.sink := by
  induction hreaches with
  | refl => exact hsink
  | head hnext _ ih => exact ih (hnext.sink hwrite hsink)

/-- What writing preserves is true of the sink that a run leaves. -/
theorem Ends.sink (hwrite : ∀ sink bytes, property sink → property (sink.write bytes))
    (hends : Ends program machine after failure) (hsink : property machine.sink) :
    property after.sink := by
  obtain ⟨hreaches, hstops⟩ := hends
  exact hstops.sink hwrite (hreaches.sink hwrite hsink)

end Sinks

/-! ## Lines beyond a bound -/

/-- From a machine on, a run comes to print the line of a value that goes beyond a bound. -/
structure Overruns (program : Program) (machine : Machine) (bound : Nat) (state : Machine)
    (e : Expression) (value : Value) : Prop where
  reaches : Reaches program machine state
  statement : program.statements[state.counter]? = some (.print e)
  evaluates : e.evaluate state.bindings = .ok value
  written_le : state.sink.written.size ≤ bound
  lt_written : bound < state.sink.written.size + (lineBytes value).size

theorem Overruns.head {state : Machine} {e : Expression} {value : Value}
    (hnext : Advances program machine next)
    (hoverruns : Overruns program next bound state e value) :
    Overruns program machine bound state e value :=
  { hoverruns with reaches := hoverruns.reaches.head hnext }

/-- A run that fails at a full sink does so at a line that goes beyond the bound of the sink. -/
theorem Ends.of_sinkFull {index : Nat} {statement : Statement}
    (hends : Ends program machine after (some ⟨index, statement, .sinkFull⟩)) :
    ∃ capacity state e value, machine.sink.capacity = some capacity ∧
      Overruns program machine capacity state e value ∧
      index = state.counter ∧ statement = .print e := by
  obtain ⟨hreaches, hstops⟩ := hends
  obtain _ | ⟨hstatement, hstep⟩ := hstops
  obtain ⟨fault, hexecutes, herror⟩ := step_eq_some_iff.mp hstep
  cases herror
  obtain ⟨e, value, rfl, hvalue, hfits, -⟩ := hexecutes.of_sinkFull
  obtain ⟨capacity, hcapacity, hlt⟩ := Sink.fits_eq_false_iff.mp hfits
  have hsame := hreaches.sink (fun sink bytes hsink => (Sink.capacity_write sink bytes).trans hsink)
    (Eq.refl machine.sink.capacity)
  have hstart : machine.sink.capacity = some capacity := hsame.symm.trans hcapacity
  exact ⟨capacity, _, e, value, hstart,
    ⟨hreaches, hstatement, hvalue, Sink.written_le_of_capacity hcapacity, hlt⟩, rfl, rfl⟩

/-! ## Cut runs -/

section Cut

variable {sink : Sink}

/-- A statement on a machine whose sink takes fewer bytes: it does the same up to the bound, and
beyond the bound it prints a line that does not fit. -/
theorem Executes.cut_cases {statement : Statement} {fault : Option Fault}
    (hexecutes : Executes program machine statement after fault)
    (htruncates : machine.sink.Truncates bound sink) (hsize : machine.sink.written.size ≤ bound) :
    ∃ cut, after.sink.Truncates bound cut ∧
      ((after.sink.written.size ≤ bound ∧
          Executes program { machine with sink := sink } statement
            { after with sink := cut } fault) ∨
        (bound < after.sink.written.size ∧ ∃ e value, statement = .print e ∧
          e.evaluate machine.bindings = .ok value ∧
          bound < machine.sink.written.size + (lineBytes value).size ∧
          Executes program { machine with sink := sink } statement
            { machine with sink := cut } (some .sinkFull))) := by
  cases hexecutes with
  | @printed e value hvalue hfits =>
    refine ⟨sink.write (lineBytes value), htruncates.write _, ?_⟩
    by_cases hline : machine.sink.written.size + (lineBytes value).size ≤ bound
    · have hcut := (htruncates.fits_iff hsize _).mpr hline
      refine .inl ⟨?_, .printed hvalue hcut⟩
      rw [Sink.written_write_of_fits hfits, ByteArray.size_append]
      exact hline
    · have hcut := mt (htruncates.fits_iff hsize _).mp hline
      rw [Bool.not_eq_true] at hcut
      refine .inr ⟨?_, e, value, rfl, hvalue, by omega, .cut hvalue hcut⟩
      rw [Sink.written_write_of_fits hfits, ByteArray.size_append]
      omega
  | @cut e value hvalue hfits =>
    refine ⟨sink.write (lineBytes value), htruncates.write _, ?_⟩
    have hline : ¬ machine.sink.written.size + (lineBytes value).size ≤ bound := by
      intro hline
      simp [htruncates.fits hline] at hfits
    have hcut := mt (htruncates.fits_iff hsize _).mp hline
    rw [Bool.not_eq_true] at hcut
    by_cases hafter : (machine.sink.write (lineBytes value)).written.size ≤ bound
    · exact .inl ⟨hafter, .cut hvalue hcut⟩
    · exact .inr ⟨by simpa using hafter, e, value, rfl, hvalue, by omega, .cut hvalue hcut⟩
  | printRefused herror => exact ⟨sink, htruncates, .inl ⟨hsize, .printRefused herror⟩⟩
  | assigned hvalue => exact ⟨sink, htruncates, .inl ⟨hsize, .assigned hvalue⟩⟩
  | assignRefused herror => exact ⟨sink, htruncates, .inl ⟨hsize, .assignRefused herror⟩⟩
  | passed hjump => exact ⟨sink, htruncates, .inl ⟨hsize, .passed hjump⟩⟩
  | jumped hjump => exact ⟨sink, htruncates, .inl ⟨hsize, .jumped hjump⟩⟩
  | jumpRefused herror => exact ⟨sink, htruncates, .inl ⟨hsize, .jumpRefused herror⟩⟩

/-- How a run ends on a sink that takes fewer bytes, given how it ends on another one. -/
structure EndsCut (program : Program) (machine : Machine) (bound : Nat) (after : Machine)
    (failure : Option ExecutionError) (cut : Machine) (cutFailure : Option ExecutionError) :
    Prop where
  truncates : after.sink.Truncates bound cut.sink
  unchanged : after.sink.written.size ≤ bound →
    cut = { after with sink := cut.sink } ∧ cutFailure = failure
  overruns : bound < after.sink.written.size →
    ∃ state e value, Overruns program machine bound state e value ∧
      cut.counter = state.counter + 1 ∧ cut.bindings = state.bindings ∧
      cutFailure = some ⟨state.counter, .print e, .sinkFull⟩

theorem EndsCut.head {cut : Machine} {cutFailure : Option ExecutionError}
    (hnext : Advances program machine next)
    (hends : EndsCut program next bound after failure cut cutFailure) :
    EndsCut program machine bound after failure cut cutFailure where
  truncates := hends.truncates
  unchanged := hends.unchanged
  overruns := by
    intro hbound
    obtain ⟨state, e, value, hoverruns, hcut⟩ := hends.overruns hbound
    exact ⟨state, e, value, hoverruns.head hnext, hcut⟩

/-- A run that has gone beyond the bound with a line is cut at that line, whatever it does
afterwards. -/
theorem endsCut_of_overruns {cut : Sink} {e : Expression} {value : Value}
    (hoverruns : Overruns program machine bound machine e value)
    (htruncates : after.sink.Truncates bound cut) (hsize : bound < after.sink.written.size) :
    EndsCut program machine bound after failure { machine.next with sink := cut }
      (some ⟨machine.counter, .print e, .sinkFull⟩) where
  truncates := htruncates
  unchanged hafter := absurd hsize (Nat.not_lt_of_le hafter)
  overruns _ := ⟨machine, e, value, hoverruns, rfl, rfl, rfl⟩

/-- Sinks that hold fewer bytes do not keep a run from ending. -/
theorem Ends.exists_endsCut (hends : Ends program machine after failure)
    (htruncates : machine.sink.Truncates bound sink) (hsize : machine.sink.written.size ≤ bound) :
    ∃ cut cutFailure, Ends program { machine with sink := sink } cut cutFailure ∧
      EndsCut program machine bound after failure cut cutFailure := by
  obtain ⟨hreaches, hstops⟩ := hends
  induction hreaches generalizing sink with
  | refl machine =>
    cases hstops with
    | finished hend =>
      refine ⟨_, _, .stop (.finished hend), htruncates, fun _ => ⟨rfl, rfl⟩, fun hlt => ?_⟩
      omega
    | @failed after statement _ hstatement hstep =>
      obtain ⟨fault, hexecutes, rfl⟩ := step_eq_some_iff.mp hstep
      obtain ⟨cut, hcut, ⟨hle, hsame⟩ | ⟨hlt, e, value, rfl, hvalue, hline, hfull⟩⟩ :=
        hexecutes.cut_cases htruncates hsize
      · have hstep : Machine.step program statement { machine with sink := sink } =
            ({ after with sink := cut }, some ⟨machine.counter, statement, fault⟩) :=
          step_eq_some_iff.mpr ⟨fault, hsame, rfl⟩
        refine ⟨_, _, .stop (.failed hstatement hstep), hcut, fun _ => ⟨rfl, rfl⟩, fun hlt => ?_⟩
        omega
      · have hstep : Machine.step program (.print e) { machine with sink := sink } =
            ({ machine.next with sink := cut }, some ⟨machine.counter, .print e, .sinkFull⟩) :=
          step_eq_some_iff.mpr ⟨.sinkFull, hfull, rfl⟩
        exact ⟨_, _, .stop (.failed hstatement hstep),
          endsCut_of_overruns ⟨.refl _, hstatement, hvalue, hsize, hline⟩ hcut hlt⟩
  | @head machine next last hnext hrest ih =>
    obtain ⟨hstatement, hstep⟩ := hnext
    obtain ⟨cut, hcut, ⟨hle, hsame⟩ | ⟨hlt, e, value, rfl, hvalue, hline, hfull⟩⟩ :=
      (step_eq_none_iff.mp hstep).cut_cases htruncates hsize
    · have hsame : Machine.step program _ { machine with sink := sink } =
          ({ next with sink := cut }, none) :=
        step_eq_none_iff.mpr hsame
      obtain ⟨cut', cutFailure, hends, hends'⟩ := ih hcut hle hstops
      exact ⟨cut', cutFailure, hends.step ⟨hstatement, hsame⟩, hends'.head ⟨hstatement, hstep⟩⟩
    · have hfull : Machine.step program (.print e) { machine with sink := sink } =
          ({ machine.next with sink := cut }, some ⟨machine.counter, .print e, .sinkFull⟩) :=
        step_eq_some_iff.mpr ⟨.sinkFull, hfull, rfl⟩
      -- whatever follows the line in the longer run is behind the bound
      obtain ⟨hafter, hbound⟩ := (Ends.intro hrest hstops).sink Sink.truncates_write ⟨hcut, hlt⟩
      exact ⟨_, _, .stop (.failed hstatement hfull),
        endsCut_of_overruns ⟨.refl _, hstatement, hvalue, hsize, hline⟩ hafter hbound⟩

end Cut

end LineBasic.Machine
