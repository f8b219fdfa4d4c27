import LineBasic.CommandLine.Answer
import LineBasic.Proofs.Run.Truncation

/-!
# Output into bounded sinks

Whatever goes to a sink, a run of a program or a listing of a script, a sink that takes fewer bytes
gets the first bytes of it.  Only a run or a listing that has more to write fails for that.
-/

namespace LineBasic.CommandLine

/-! ## Listings -/

section Listings

variable {bound : Nat} {full cut : Sink}

theorem writeAnswer_of_fits {output : Sink} {bytes : ByteArray} (hfits : output.fits bytes = true) :
    writeAnswer output bytes = ⟨.ok, output.write bytes, ""⟩ := by
  rw [writeAnswer, if_pos hfits]

theorem writeAnswer_of_not_fits {output : Sink} {bytes : ByteArray}
    (hfits : ¬ output.fits bytes = true) :
    writeAnswer output bytes = ⟨.unwritable, output.write bytes, Sink.fullMessage ++ "\n"⟩ := by
  rw [writeAnswer, if_neg hfits]

/-- What writing preserves is true of the sink that a listing of tokens leaves. -/
theorem listTokens_output {property : Sink → Prop}
    (hwrite : ∀ sink bytes, property sink → property (sink.write bytes)) (tokens : List Token)
    {output : Sink} (hsink : property output) : property (listTokens output tokens).output := by
  induction tokens generalizing output with
  | nil => exact hsink
  | cons token tokens ih =>
    rw [listTokens]
    by_cases hfits : output.fits (token.listing ++ "\n").toUTF8 = true
    · rw [if_pos hfits]
      exact ih (hwrite _ _ hsink)
    · rw [if_neg hfits, writeAnswer_of_not_fits hfits]
      exact hwrite _ _ hsink

/-- An answer that takes a sink with fewer bytes for its output: it is the same up to the bound, and
it says so if there is more. -/
structure Cuts (bound : Nat) (full cut : Answer) : Prop where
  truncates : full.output.Truncates bound cut.output
  unwritable_iff : cut.code = .unwritable ↔ bound < full.output.written.size

theorem cuts_writeAnswer (hunbounded : full.capacity = none)
    (htruncates : full.Truncates bound cut) (hsize : full.written.size ≤ bound)
    (bytes : ByteArray) : Cuts bound (writeAnswer full bytes) (writeAnswer cut bytes) := by
  have hfits : full.fits bytes = true := by simp [Sink.fits_iff, hunbounded]
  have hwritten : (full.write bytes).written.size = full.written.size + bytes.size := by
    rw [Sink.written_write_of_fits hfits, ByteArray.size_append]
  rw [writeAnswer_of_fits hfits]
  by_cases hcut : cut.fits bytes = true
  · rw [writeAnswer_of_fits hcut]
    rw [htruncates.fits_iff hsize] at hcut
    refine ⟨htruncates.write bytes, ?_⟩
    simp [hwritten, hcut]
  · rw [writeAnswer_of_not_fits hcut]
    rw [htruncates.fits_iff hsize] at hcut
    refine ⟨htruncates.write bytes, ?_⟩
    simpa [hwritten] using hcut

theorem cuts_listTokens (hunbounded : full.capacity = none)
    (htruncates : full.Truncates bound cut) (hsize : full.written.size ≤ bound)
    (tokens : List Token) : Cuts bound (listTokens full tokens) (listTokens cut tokens) := by
  induction tokens generalizing full cut with
  | nil => exact ⟨htruncates, by simpa [listTokens] using hsize⟩
  | cons token tokens ih =>
    have hfits : full.fits (token.listing ++ "\n").toUTF8 = true := by
      simp [Sink.fits_iff, hunbounded]
    have hwritten := Sink.written_write_of_fits hfits
    rw [listTokens, listTokens, if_pos hfits]
    by_cases hcut : cut.fits (token.listing ++ "\n").toUTF8 = true
    · rw [if_pos hcut]
      rw [htruncates.fits_iff hsize] at hcut
      refine ih (by rw [Sink.capacity_write, hunbounded]) (htruncates.write _) ?_
      rw [hwritten, ByteArray.size_append]
      exact hcut
    · rw [if_neg hcut, writeAnswer_of_not_fits hcut]
      rw [htruncates.fits_iff hsize] at hcut
      have hbound : bound < (full.write (token.listing ++ "\n").toUTF8).written.size := by
        rw [hwritten, ByteArray.size_append]
        exact Nat.lt_of_not_le hcut
      -- the tokens that follow are listed behind the bound
      obtain ⟨hrest, hlt⟩ := listTokens_output Sink.truncates_write tokens
        ⟨htruncates.write (token.listing ++ "\n").toUTF8, hbound⟩
      exact ⟨hrest, by simpa using hlt⟩

/-- A listing of a script goes to a bounded sink up to the bound. -/
theorem cuts_answer {request : Request} (hmode : request.mode ≠ .run)
    (content : Except ReadFailure ByteArray) (bound : Nat) :
    Cuts bound (request.answer content {}) (request.answer content { room := some bound }) := by
  have htruncates : Sink.Truncates bound {} { room := some bound } :=
    Sink.truncates_empty (by simp)
  have hsize : ({} : Sink).written.size ≤ bound := Nat.zero_le _
  simp only [Request.answer]
  cases content.bind scriptText with
  | error failure => exact ⟨htruncates, by simp⟩
  | ok source =>
    match hlist : request.mode with
    | .run => exact absurd hlist hmode
    | .listTokens => exact cuts_listTokens rfl htruncates hsize _
    | .listProgram =>
      simp only [answerScript, listProgram]
      cases Program.ofSource source with
      | error rejection => exact ⟨htruncates, by simp⟩
      | ok program => exact cuts_writeAnswer rfl htruncates hsize _

theorem ExitCode.number_eq_74_iff {code : ExitCode} : code.number = 74 ↔ code = .unwritable := by
  cases code <;> decide

end Listings

/-! ## Runs and listings -/

/-- If a run ends, then it ends on any smaller sink too, which gets the first bytes of its output:
in the same way if that is all of it, and otherwise at the line that goes beyond the bound.  A run
fails at a full sink only for such a line.  A listing goes up to the bound, and the exit code says
whether there is more. -/
theorem bounded_sinks_truncate :
    (∀ (program : Program) (machine after : Machine) (failure : Option ExecutionError)
        (room : Option Nat) (bound : Nat), (∀ most, room = some most → bound ≤ most) →
      Machine.Interprets program { machine with sink := { room := room } } after failure →
      ∃ cut cutFailure,
        Machine.Interprets program { machine with sink := { room := some bound } } cut cutFailure ∧
        cut.sink.written = after.sink.written.extract 0 bound ∧
        (after.sink.written.size ≤ bound →
          cut.counter = after.counter ∧ cut.bindings = after.bindings ∧ cutFailure = failure) ∧
        (bound < after.sink.written.size → ∃ state e value,
          Machine.Overruns program { machine with counter := 0, sink := { room := room } } bound
            state e value ∧
          cut.counter = state.counter + 1 ∧ cut.bindings = state.bindings ∧
          cutFailure = some ⟨state.counter, .print e, .sinkFull⟩)) ∧
    (∀ (program : Program) (machine after : Machine) (room : Option Nat) (index : Nat)
        (statement : Statement),
      Machine.Interprets program { machine with sink := { room := room } } after
        (some ⟨index, statement, .sinkFull⟩) →
      ∃ bound state e value, room = some bound ∧
        Machine.Overruns program { machine with counter := 0, sink := { room := room } } bound
          state e value ∧
        index = state.counter ∧ statement = .print e) ∧
    ∀ (request : Request) (content : Except ReadFailure ByteArray) (bound : Nat),
      request.mode ≠ .run →
      let full := request.answer content {}
      let cut := request.answer content { room := some bound }
      cut.output.written = full.output.written.extract 0 bound ∧
        (cut.code.number = 74 ↔ bound < full.output.written.size) := by
  refine ⟨?_, ?_, ?_⟩
  · intro program machine after failure room bound hbound hrun
    rw [Machine.interprets_iff_ends] at hrun
    obtain ⟨cut, cutFailure, hends, htruncates, hunchanged, hoverruns⟩ :=
      hrun.exists_endsCut (Sink.truncates_empty hbound) (Nat.zero_le _)
    refine ⟨cut, cutFailure, Machine.interprets_iff_ends.mpr hends, htruncates.written, ?_,
      hoverruns⟩
    intro hsize
    obtain ⟨hcut, hfailure⟩ := hunchanged hsize
    rw [hcut]
    exact ⟨rfl, rfl, hfailure⟩
  · intro program machine after room index statement hrun
    rw [Machine.interprets_iff_ends] at hrun
    obtain ⟨bound, state, e, value, hcapacity, hoverruns, hindex, hstatement⟩ := hrun.of_sinkFull
    have hroom : room = some bound := by
      simpa [Machine.rewind, Sink.capacity] using hcapacity
    exact ⟨bound, state, e, value, hroom, hoverruns, hindex, hstatement⟩
  · intro request content bound hmode
    obtain ⟨htruncates, hunwritable⟩ := cuts_answer hmode content bound
    exact ⟨htruncates.written, ExitCode.number_eq_74_iff.trans hunwritable⟩

/-- A sink of three bytes holds the first line and the first byte of the second one. -/
theorem bounded_sinks_truncate_two_lines :
    let program : Program := ⟨#[.print (.string "a"), .print (.string "bc")], ∅⟩
    ∃ cut, Machine.Interprets program { sink := { room := some 3 } } cut
      (some ⟨1, .print (.string "bc"), .sinkFull⟩) ∧ cut.sink.written = "a\nb".toUTF8 := by
  intro program
  have hrun : Machine.Interprets program {}
      { counter := 2, sink := { written := "a\nbc\n".toUTF8 } } none := ⟨3, rfl⟩
  obtain ⟨cut, cutFailure, hcut, hwritten, -, -⟩ :=
    bounded_sinks_truncate.1 program {} _ none none 3 (by simp) hrun
  have hcutRun : Machine.Interprets program { sink := { room := some 3 } }
      { counter := 2, sink := { written := "a\nb".toUTF8, room := some 0 } }
      (some ⟨1, .print (.string "bc"), .sinkFull⟩) := ⟨3, rfl⟩
  obtain ⟨-, rfl⟩ := hcut.unique hcutRun
  exact ⟨cut, hcut, hwritten⟩

end LineBasic.CommandLine
