import LineBasic.Proofs.CommandLine.LineBreak
import LineBasic.Proofs.CommandLine.Truncation

/-!
# The three modes of the command line

A script may be run, and its tokens or its program may be listed.  Each mode reads the script anew,
but all of them fail alike where the script cannot be read, and running it and listing its program
fail alike where it is rejected.  Only then do the modes go different ways: a statement fails, or a
listing does not fit.
-/

namespace LineBasic.CommandLine

/-- Running a script and listing its program or its tokens agree on what the script is. -/
structure ModesAgree (source : String) (output : Sink) (answer : Mode → Answer) : Prop where
  rejected_iff : (answer .listProgram).code.number = 65 ↔ (answer .run).code.number = 65
  rejected : (answer .run).code.number = 65 →
    (answer .listProgram).message = (answer .run).message ∧
    (answer .listProgram).output = output ∧ (answer .run).output = output ∧
    ∃ rejection, Program.ofSource source = .error rejection ∧
      Script.run source output = .error rejection
  listTokens : (answer .listTokens).code.number = 0 ∨ (answer .listTokens).code.number = 74
  listProgram : (answer .listProgram).code.number ≠ 65 →
    (answer .listProgram).code.number = 0 ∨ (answer .listProgram).code.number = 74
  run : (answer .run).code.number ≠ 65 →
    ((answer .run).code.number = 0 ∨ (answer .run).code.number = 70) ∧
    ∃ program run, Program.ofSource source = .ok program ∧ Script.run source output = .ok run ∧
      (answer .run).output = run.machine.sink ∧
      ((answer .run).code.number = 70 ↔ ∃ error, run.ending = .failed error) ∧
      ∀ failure, run.ending = .ofFailure failure →
        Machine.Interprets program { sink := output } run.machine failure

/-- A listing has been written, or did not fit. -/
inductive Answer.Lists (answer : Answer) : Prop where
  | written (hcode : answer.code = .ok) (hmessage : answer.message = "")
  | unwritable (hcode : answer.code = .unwritable)
      (hmessage : answer.message = Sink.fullMessage ++ "\n")

/-- The message is empty exactly when the code is zero. -/
def Answer.SaysFailure (answer : Answer) : Prop :=
  answer.message = "" ↔ answer.code = .ok

variable {answer : Answer} {content : Except ReadFailure ByteArray}

/-! ## Codes and messages -/

theorem Answer.saysFailure_of_line {code : ExitCode} (hcode : code ≠ .ok) (output : Sink)
    (line : String) : Answer.SaysFailure ⟨code, output, line ++ "\n"⟩ := by
  simp [SaysFailure, hcode]

theorem Answer.Lists.saysFailure (hlists : answer.Lists) : answer.SaysFailure := by
  cases hlists with
  | written hcode hmessage => simp [SaysFailure, hcode, hmessage]
  | unwritable hcode hmessage => simp [SaysFailure, hcode, hmessage]

theorem Answer.Lists.number_eq (hlists : answer.Lists) :
    answer.code.number = 0 ∨ answer.code.number = 74 := by
  cases hlists with
  | written hcode => exact .inl (congrArg ExitCode.number hcode)
  | unwritable hcode => exact .inr (congrArg ExitCode.number hcode)

theorem ExitCode.number_eq_zero_iff {code : ExitCode} : code.number = 0 ↔ code = .ok := by
  cases code <;> decide

theorem lists_writeAnswer (output : Sink) (bytes : ByteArray) :
    (writeAnswer output bytes).Lists := by
  by_cases hfits : output.fits bytes = true
  · rw [writeAnswer_of_fits hfits]
    exact .written rfl rfl
  · rw [writeAnswer_of_not_fits hfits]
    exact .unwritable rfl rfl

theorem lists_listTokens (output : Sink) (tokens : List Token) :
    (listTokens output tokens).Lists := by
  induction tokens generalizing output with
  | nil => exact .written rfl rfl
  | cons token tokens ih =>
    rw [listTokens]
    by_cases hfits : output.fits (token.listing ++ "\n").toUTF8 = true
    · rw [if_pos hfits]
      exact ih _
    · rw [if_neg hfits]
      exact lists_writeAnswer _ _

theorem saysFailure_answerScript (mode : Mode) (source : String) (output : Sink) :
    (answerScript mode source output).SaysFailure := by
  cases mode with
  | listTokens => exact (lists_listTokens output _).saysFailure
  | listProgram =>
    rw [answerScript, listProgram]
    cases Program.ofSource source with
    | error rejection => exact Answer.saysFailure_of_line (by decide) output _
    | ok program => exact (lists_writeAnswer output _).saysFailure
  | run =>
    rw [answerScript, runScript]
    cases Script.run source output with
    | error rejection => exact Answer.saysFailure_of_line (by decide) output _
    | ok run =>
      cases hending : run.ending with
      | finished | outOfSteps => simp [Answer.SaysFailure, hending]
      | failed error =>
        simp only [hending]
        exact Answer.saysFailure_of_line (by decide) run.machine.sink _

/-! ## Scripts -/

/-- The answer for a script that is run gives the sink of the run, and its code says whether a
statement has failed. -/
theorem code_runScript_of_run {source : String} {output : Sink} {run : Run Unit}
    (hrun : Script.run source output = .ok run) :
    ((runScript source output).code.number = 0 ∨ (runScript source output).code.number = 70) ∧
      (runScript source output).output = run.machine.sink ∧
      ((runScript source output).code.number = 70 ↔ ∃ error, run.ending = .failed error) := by
  obtain ⟨seen, machine, ending⟩ := run
  rw [runScript, hrun]
  cases ending <;> simp [ExitCode.number]

theorem modesAgree_answerScript (source : String) (output : Sink) :
    ModesAgree source output fun mode => answerScript mode source output := by
  have htokens := (lists_listTokens output (Token.scan source)).number_eq
  cases hread : Program.ofSource source with
  | error rejection =>
    have hrun : Script.run source output = .error rejection := by
      rw [Script.run, hread]
      rfl
    have hrejected : ∀ mode, mode ≠ .listTokens → answerScript mode source output =
        ⟨.rejected, output, rejection.message ++ "\n"⟩ := by
      intro mode hmode
      cases mode with
      | run => simp only [answerScript, runScript, hrun]
      | listTokens => exact absurd rfl hmode
      | listProgram => simp only [answerScript, listProgram, hread]
    have hboth : answerScript .listProgram source output = answerScript .run source output := by
      rw [hrejected .run (by decide), hrejected .listProgram (by decide)]
    have hcode : (answerScript .run source output).code.number = 65 := by
      rw [hrejected .run (by decide)]
      rfl
    have houtput : (answerScript .run source output).output = output := by
      rw [hrejected .run (by decide)]
    refine ⟨by rw [hboth], fun _ => ?_, htokens, ?_, fun hne => absurd hcode hne⟩
    · rw [hboth]
      exact ⟨rfl, houtput, houtput, rejection, hread, hrun⟩
    · rw [hboth]
      exact fun hne => absurd hcode hne
  | ok program =>
    have hlists : (answerScript .listProgram source output).Lists := by
      simp only [answerScript, listProgram, hread]
      exact lists_writeAnswer output _
    have hrun : Script.run source output = .ok (Machine.run program { sink := output }) := by
      rw [Script.run, hread]
      rfl
    have hlisted : (answerScript .listProgram source output).code.number ≠ 65 := by
      rcases hlists.number_eq with hcode | hcode <;> rw [hcode] <;> decide
    obtain ⟨hcode, hsink, hfailed⟩ := code_runScript_of_run hrun
    have hran : (answerScript .run source output).code.number ≠ 65 := by
      rcases hcode with hcode | hcode <;> rw [answerScript, hcode] <;> decide
    refine ⟨iff_of_false hlisted hran, fun hrejected => absurd hrejected hran, htokens,
      fun _ => hlists.number_eq, fun _ => ⟨hcode, program, _, hread, hrun, hsink, hfailed, ?_⟩⟩
    intro failure hending
    exact ⟨Machine.stepLimit, by rw [← hending]; rfl⟩

/-! ## Files -/

theorem toUTF8_of_fromUTF8? {bytes : ByteArray} {text : String}
    (htext : String.fromUTF8? bytes = some text) : bytes = text.toUTF8 := by
  unfold String.fromUTF8? at htext
  split at htext
  · cases htext
    rfl
  · cases htext

/-- What is no text cannot be read. -/
theorem exists_bind_scriptText_eq_error (hcontent : ∀ text : String, content ≠ .ok text.toUTF8) :
    ∃ failure, content.bind scriptText = .error failure := by
  cases content with
  | error failure => exact ⟨failure, rfl⟩
  | ok bytes =>
    cases htext : String.fromUTF8? bytes with
    | none => exact ⟨.notText, by simp [Except.bind, scriptText, htext]⟩
    | some text =>
      obtain rfl := toUTF8_of_fromUTF8? htext
      exact absurd rfl (hcontent text)

theorem answer_of_eq_ok {request : Request} {source : String} {output : Sink}
    (hcontent : content.bind scriptText = .ok source) :
    request.answer content output = answerScript request.mode source output := by
  rw [Request.answer, hcontent]

theorem answer_of_eq_error {request : Request} {failure : ReadFailure} {output : Sink}
    (hcontent : content.bind scriptText = .error failure) : request.answer content output =
      ⟨.unreadable, output,
        "Failed to read " ++ request.file ++ ": " ++ failure.message ++ "\n"⟩ := by
  rw [Request.answer, hcontent]

theorem saysFailure_answer (request : Request) (content : Except ReadFailure ByteArray)
    (output : Sink) : (request.answer content output).SaysFailure := by
  cases hcontent : content.bind scriptText with
  | error failure =>
    rw [answer_of_eq_error hcontent]
    exact Answer.saysFailure_of_line (by decide) output _
  | ok source =>
    rw [answer_of_eq_ok hcontent]
    exact saysFailure_answerScript request.mode source output

/-- The modes agree on every file.  A file that cannot be read is unreadable to all of them, and a
script that is rejected is rejected by the run and by the listing of its program, before anything
of it is printed.  Otherwise the run gives what the library gives for the text of the file with a
line break behind it, and only a sink that is full keeps a listing from success.  The message is
empty exactly when the code is zero. -/
theorem modes_agree (file : String) (content : Except ReadFailure ByteArray) (room : Option Nat) :
    let output : Sink := { room := room }
    let answer (mode : Mode) := (⟨file, mode⟩ : Request).answer content output
    ((∀ text : String, content ≠ .ok text.toUTF8) → ∃ message, ∀ mode,
      (answer mode).code.number = 66 ∧ (answer mode).output = output ∧
        (answer mode).message = message) ∧
    (∀ text : String, content = .ok text.toUTF8 → ModesAgree (text ++ "\n") output answer) ∧
    ∀ mode, (answer mode).message = "" ↔ (answer mode).code.number = 0 := by
  refine ⟨fun hcontent => ?_, ?_, fun mode => ?_⟩
  · obtain ⟨failure, hfailure⟩ := exists_bind_scriptText_eq_error hcontent
    refine ⟨"Failed to read " ++ file ++ ": " ++ failure.message ++ "\n", fun mode => ?_⟩
    simp only [answer_of_eq_error hfailure, ExitCode.number, and_self]
  · rintro text rfl
    have hsource : (Except.ok text.toUTF8 : Except ReadFailure ByteArray).bind scriptText =
        .ok (text ++ "\n") := scriptText_toUTF8 text
    simp only [answer_of_eq_ok hsource]
    exact modesAgree_answerScript (text ++ "\n") { room := room }
  · rw [ExitCode.number_eq_zero_iff]
    exact saysFailure_answer ⟨file, mode⟩ content { room := room }

/-- A script that prints a line before a line that is rejected prints nothing, and is rejected by
the run and the listing of its program alike; a directory is unreadable to all modes. -/
theorem modes_agree_rejected_behind_print :
    let text := "print \"a\"\nprint ("
    let output : Sink := { room := some 1 }
    let answer (mode : Mode) := (⟨"script", mode⟩ : Request).answer (.ok text.toUTF8) output
    let directory (mode : Mode) :=
      (⟨"script", mode⟩ : Request).answer (.error .isDirectory) output
    (answer .run).code.number = 65 ∧ (answer .listProgram).code.number = 65 ∧
      (answer .listProgram).message = (answer .run).message ∧ (answer .run).message ≠ "" ∧
      (answer .run).output = output ∧ ∀ mode, (directory mode).code.number = 66 := by
  intro text output answer directory
  obtain ⟨-, hscript, hmessage⟩ := modes_agree "script" (.ok text.toUTF8) (some 1)
  obtain ⟨hunreadable, -⟩ := modes_agree "script" (.error .isDirectory) (some 1)
  obtain ⟨message, hdirectory⟩ := hunreadable (by simp)
  have hagree := hscript text rfl
  have hscan : Token.scan (text ++ "\n") = [⟨.word, "print"⟩, ⟨.string, "a"⟩, ⟨.lineBreak, "\n"⟩,
      ⟨.word, "print"⟩, ⟨.leftParen, "("⟩, ⟨.lineBreak, "\n"⟩] := by
    decide +kernel
  obtain ⟨rejection, hread⟩ : ∃ rejection, Program.ofSource (text ++ "\n") = .error rejection := by
    rw [Program.ofSource, hscan]
    exact ⟨⟨.noOperand,
      ⟨[.atomic, .expression, .atomic, .expression, .print, .statement, .program]⟩,
      ⟨[⟨.leftParen, "("⟩, ⟨.word, "print"⟩, ⟨.lineBreak, "\n"⟩, ⟨.string, "a"⟩,
        ⟨.word, "print"⟩], [⟨.lineBreak, "\n"⟩]⟩⟩, by cbv⟩
  have hrejected : (answer .run).code.number = 65 := by
    by_contra hne
    obtain ⟨-, program, -, hprogram, -⟩ := hagree.run hne
    simp [hread] at hprogram
  obtain ⟨hsame, -, houtput, -⟩ := hagree.rejected hrejected
  refine ⟨hrejected, hagree.rejected_iff.mpr hrejected, hsame, ?_, houtput,
    fun mode => (hdirectory mode).1⟩
  rw [Ne, hmessage .run, hrejected]
  decide

end LineBasic.CommandLine
