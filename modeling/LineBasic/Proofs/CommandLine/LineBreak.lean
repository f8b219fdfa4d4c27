import LineBasic.CommandLine.Answer
import LineBasic.Proofs.Grammar.LineBreak
import LineBasic.Proofs.Grammar.Rejection
import LineBasic.Proofs.Token.Piece

/-!
# The line break behind a script

The command line puts a line break behind the text of a script before it reads it.  That adds one
token, or none inside a string that is not closed, and either way the script spells the program that
it spells without the line break, or is rejected for the same cause at the same place.
-/

namespace LineBasic

/-- Two rejections of one list of tokens, the second one with one more token behind the last one:
they differ in the token that is found where no token was left. -/
structure Rejection.Corresponds (tokens : List Token) (token : Token)
    (rejection other : Rejection) : Prop where
  cause : other.cause = rejection.cause
  path : other.path = rejection.path
  position : other.place.position = rejection.place.position
  position_le : rejection.place.position ≤ tokens.length
  inside : rejection.place.position < tokens.length → other.token = rejection.token
  atEnd : rejection.place.position = tokens.length →
    rejection.token = Token.atEnd ∧ other.token = token

theorem Rejection.corresponds_push {tokens : List Token} {rejection : Rejection}
    (hplace : rejection.place.tokens = tokens) (token : Token) :
    rejection.Corresponds tokens token (rejection.push token) := by
  obtain ⟨cause, rules, behind, ahead⟩ := rejection
  obtain rfl : behind.reverse ++ ahead = tokens := hplace
  refine ⟨rfl, rfl, rfl, by simp [Cursor.position], ?_, ?_⟩
  · intro hinside
    cases ahead with
    | nil => simp [Cursor.position] at hinside
    | cons next ahead => rfl
  · intro hend
    obtain rfl : ahead = [] := by simpa [Cursor.position] using hend
    exact ⟨rfl, rfl⟩

namespace CommandLine

/-- An answer tells how the run of a script went: what has been written, and whether and why the
script is rejected or a statement has failed. -/
def Answer.Reports (answer : Answer) (output : Sink) : Except Rejection (Run Unit) → Prop
  | .error _ => answer.code = .rejected ∧ answer.output = output
  | .ok run => answer.output = run.machine.sink ∧
    match run.ending with
    | .failed error => answer.code = .failed ∧ answer.message = error.message ++ "\n"
    | .finished | .outOfSteps => answer.code = .ok ∧ answer.message = ""

theorem reports_runScript (source : String) (output : Sink) :
    (runScript source output).Reports output (Script.run source output) := by
  rw [runScript]
  cases Script.run source output with
  | error rejection => exact ⟨rfl, rfl⟩
  | ok run =>
    obtain ⟨-, machine, ending⟩ := run
    cases ending <;> exact ⟨rfl, rfl, rfl⟩

theorem scriptText_toUTF8 (source : String) :
    scriptText source.toUTF8 = .ok (source ++ "\n") := by
  have htext : String.fromUTF8? source.toUTF8 = some source := by
    rw [String.fromUTF8?, String.toUTF8, dif_pos source.isValidUTF8]
    rfl
  rw [scriptText, htext]

theorem exists_eq_error_of_eq_ok_iff {ε α : Type} {one other : Except ε α} {error : ε}
    (hsame : ∀ value, one = .ok value ↔ other = .ok value) (hother : other = .error error) :
    ∃ error, one = .error error := by
  cases one with
  | error error => exact ⟨error, rfl⟩
  | ok value => simp [hother] at hsame

theorem ofSource_append_lineBreak_eq_ok_iff (source : String) (program : Program) :
    Program.ofSource (source ++ "\n") = .ok program ↔ Program.ofSource source = .ok program := by
  obtain ⟨hunclosed, hclosed⟩ := Token.scan_append_lineBreak source
  rw [Program.ofSource, Program.ofSource]
  by_cases hends : Token.EndsUnclosed source
  · rw [hunclosed hends]
  · rw [hclosed hends, Grammar.ofTokens_append_lineBreak_eq_ok_iff]

/-- A script runs with a line break behind it as it runs without one. -/
theorem run_append_lineBreak_eq_ok_iff (source : String) (output : Sink) (run : Run Unit) :
    Script.run (source ++ "\n") output = .ok run ↔ Script.run source output = .ok run := by
  rw [Script.run, Script.run]
  have hsame := ofSource_append_lineBreak_eq_ok_iff source
  cases hsource : Program.ofSource source with
  | ok program => rw [(hsame program).mpr hsource]
  | error rejection =>
    obtain ⟨other, hother⟩ := exists_eq_error_of_eq_ok_iff hsame hsource
    simp [hother, Except.map]

/-- The answer for a file tells of its text what happens without the line break behind it. -/
theorem reports_answer (file source : String) (output : Sink) :
    ((⟨file, .run⟩ : Request).answer (.ok source.toUTF8) output).Reports output
      (Script.run source output) := by
  have hanswer : (⟨file, .run⟩ : Request).answer (.ok source.toUTF8) output =
      runScript (source ++ "\n") output := by
    rw [Request.answer, Except.bind, scriptText_toUTF8]
    rfl
  have hreports := reports_runScript (source ++ "\n") output
  have hsame := run_append_lineBreak_eq_ok_iff source output
  rw [hanswer]
  cases hrun : Script.run source output with
  | ok run => rwa [(hsame run).mpr hrun] at hreports
  | error rejection =>
    obtain ⟨other, hother⟩ := exists_eq_error_of_eq_ok_iff hsame hrun
    rwa [hother] at hreports

/-- The line break that the command line puts behind a script is one more token, unless it belongs
to a string that is not closed.  A list of tokens spells the same program with it, or is rejected
for the same cause at the same place.  So the command line tells what the script does by itself. -/
theorem lineBreak_behind_script :
    (∀ source, (Token.EndsUnclosed source → Token.scan (source ++ "\n") = Token.scan source) ∧
      (¬ Token.EndsUnclosed source →
        Token.scan (source ++ "\n") = Token.scan source ++ [⟨.lineBreak, "\n"⟩])) ∧
    (∀ (tokens : List Token) (text : String),
      (∀ program, Program.ofTokens (tokens ++ [⟨.lineBreak, text⟩]) = .ok program ↔
        Program.ofTokens tokens = .ok program) ∧
      ∀ rejection, Program.ofTokens tokens = .error rejection →
        ∃ other, Program.ofTokens (tokens ++ [⟨.lineBreak, text⟩]) = .error other ∧
          rejection.Corresponds tokens ⟨.lineBreak, text⟩ other) ∧
    ∀ (file source : String) (output : Sink),
      (∀ run, Script.run (source ++ "\n") output = .ok run ↔ Script.run source output = .ok run) ∧
      ((⟨file, .run⟩ : Request).answer (.ok source.toUTF8) output).Reports output
        (Script.run source output) := by
  refine ⟨Token.scan_append_lineBreak, fun tokens text => ⟨fun program => ?_, ?_⟩,
    fun file source output =>
      ⟨run_append_lineBreak_eq_ok_iff source output, reports_answer file source output⟩⟩
  · exact Grammar.ofTokens_append_lineBreak_eq_ok_iff
  · intro rejection hread
    have hpush : Program.ofTokens (tokens ++ [⟨.lineBreak, text⟩]) =
        .error (rejection.push ⟨.lineBreak, text⟩) := by
      rw [Grammar.ofTokens_push _ rfl, hread, Grammar.pushResult]
    have hplace : rejection.place.tokens = tokens :=
      Grammar.tokens_of_reads (Reading.reads_rejected_of_ofTokens hread)
    exact ⟨_, hpush, Rejection.corresponds_push hplace _⟩

/-- The line break behind a quote and behind a word, and in place of the operand that is missing
behind a parenthesis. -/
theorem lineBreak_behind_open_parenthesis :
    let tokens : List Token := [⟨.word, "print"⟩, ⟨.leftParen, "("⟩]
    let lineBreak : Token := ⟨.lineBreak, "\n"⟩
    Token.scan ("\"" ++ "\n") = Token.scan "\"" ∧
    Token.scan ("x" ++ "\n") = Token.scan "x" ++ [lineBreak] ∧
    ∃ rejection other, Program.ofTokens tokens = .error rejection ∧
      Program.ofTokens (tokens ++ [lineBreak]) = .error other ∧
      rejection.cause = .noOperand ∧ rejection.place.position = 2 ∧
      rejection.token = Token.atEnd ∧ other.token = lineBreak ∧
      rejection.Corresponds tokens lineBreak other := by
  intro tokens lineBreak
  obtain ⟨hscan, htokens, -⟩ := lineBreak_behind_script
  have hunclosed : Token.EndsUnclosed "\"" :=
    ⟨[], [], .cons (.unclosed (by simp)) .nil⟩
  have hclosed : ¬ Token.EndsUnclosed "x" := by
    rintro ⟨front, kept, hcuts⟩
    have hword : Token.Cuts [⟨['x'], some ⟨.word, "x"⟩⟩] ['x'] :=
      .cons (@Token.IsPiece.word 'x' [] [] (by decide) (by simp) (by simp [Token.Stops])) .nil
    have heq := congrArg List.getLast? (hcuts.unique hword)
    simp [Token.Piece.unclosed] at heq
  have hread : Program.ofTokens tokens =
      .error ⟨.noOperand,
        ⟨[.atomic, .expression, .atomic, .expression, .print, .statement, .program]⟩,
        ⟨tokens.reverse, []⟩⟩ := by
    cbv
  obtain ⟨other, hother, hcorresponds⟩ := (htokens tokens "\n").2 _ hread
  obtain ⟨hatEnd, hlineBreak⟩ := hcorresponds.atEnd rfl
  exact ⟨(hscan "\"").1 hunclosed, (hscan "x").2 hclosed, _, other, hread, hother, rfl, rfl,
    hatEnd, hlineBreak, hcorresponds⟩

end CommandLine

end LineBasic
