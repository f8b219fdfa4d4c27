import LineBasic.Proofs.CommandLine.Modes

/-!
# Scripts in a directory

A path leads from entry to entry, one step for each of its names, and back up to those that it has
come through.  Looking for the file follows these steps and no others, so a script can be read
exactly if its path leads to a file that holds a text.
-/

namespace LineBasic.CommandLine

/-- Names lead from an entry to another one.  The entries passed through come with the latest
first, and what lies above them is an empty directory. -/
inductive Leads : List Entry → Entry → List String → Entry → Prop where
  | here (above : List Entry) (entry : Entry) : Leads above entry [] entry
  | stay {above : List Entry} {entries : List (String × Entry)} {name : String}
      {names : List String} {found : Entry} (hname : name = "" ∨ name = ".")
      (hrest : Leads above (.directory entries) names found) :
      Leads above (.directory entries) (name :: names) found
  | leave {entries : List (String × Entry)} {names : List String} {found : Entry}
      (hrest : Leads [] (.directory []) names found) :
      Leads [] (.directory entries) (".." :: names) found
  | up {above : List Entry} {parent : Entry} {entries : List (String × Entry)}
      {names : List String} {found : Entry} (hrest : Leads above parent names found) :
      Leads (parent :: above) (.directory entries) (".." :: names) found
  | down {above : List Entry} {entries : List (String × Entry)} {next : Entry} {name : String}
      {names : List String} {found : Entry} (hname : name ∉ ["", ".", ".."])
      (hnext : entries.lookup name = some next)
      (hrest : Leads (.directory entries :: above) next names found) :
      Leads above (.directory entries) (name :: names) found

/-- A path leads to a file with a content.  A path that starts with a slash starts from outside the
directory. -/
def LeadsToFile (entries : List (String × Entry)) (path : String) (content : ByteArray) : Prop :=
  path ≠ "" ∧ Leads [] (if path.startsWith "/" then .directory [] else .directory entries)
    (path.splitOn "/") (.file content)

variable {above : List Entry} {entry found : Entry} {entries : List (String × Entry)}
variable {name path : String} {names : List String} {content : ByteArray}

theorem leads_of_follow (hfollow : entry.follow above names = .ok found) :
    Leads above entry names found := by
  induction names generalizing above entry with
  | nil =>
    cases hfollow
    exact .here above _
  | cons name names ih =>
    cases entry with
    | file content => cases hfollow
    | directory entries =>
      simp only [Entry.follow] at hfollow
      split at hfollow
      · next hname => exact .stay hname (ih hfollow)
      · next hstay =>
        split at hfollow
        · next hup =>
          subst hup
          cases above with
          | nil => exact .leave (ih hfollow)
          | cons parent above => exact .up (ih hfollow)
        · next hup =>
          cases hnext : entries.lookup name with
          | none => simp [hnext] at hfollow
          | some next =>
            rw [hnext] at hfollow
            exact .down (by simpa [hup] using hstay) hnext (ih hfollow)

theorem Leads.follow_eq (hleads : Leads above entry names found) :
    entry.follow above names = .ok found := by
  induction hleads with
  | here above entry => rfl
  | stay hname hrest ih => simp [Entry.follow, hname, ih]
  | leave hrest ih => exact ih
  | up hrest ih => exact ih
  | down hname hnext hrest ih =>
    simp only [List.mem_cons, List.not_mem_nil, or_false, not_or, ← or_assoc] at hname
    simp [Entry.follow, hname, hnext, ih]

/-- Following names comes to the entry that they lead to. -/
theorem follow_eq_ok_iff : entry.follow above names = .ok found ↔ Leads above entry names found :=
  ⟨leads_of_follow, Leads.follow_eq⟩

theorem fileAt_eq_ok_iff :
    fileAt entries path = .ok content ↔ LeadsToFile entries path content := by
  rw [LeadsToFile, ← follow_eq_ok_iff, fileAt]
  by_cases hpath : path = ""
  · simp [hpath]
  · simp only [ne_eq, hpath, if_false, not_false_eq_true, true_and]
    generalize Entry.follow [] _ (path.splitOn "/") = result
    rcases result with failure | (content' | entries') <;> simp

theorem code_answerScript_ne_unreadable (mode : Mode) (source : String) (output : Sink) :
    (answerScript mode source output).code.number ≠ 66 := by
  have hagree := modesAgree_answerScript source output
  intro hcode
  cases mode with
  | listTokens => rcases hagree.listTokens with h | h <;> simp [hcode] at h
  | listProgram =>
    rcases hagree.listProgram (by simp [hcode]) with h | h <;> simp [hcode] at h
  | run =>
    obtain ⟨h | h, -⟩ := hagree.run (by simp [hcode]) <;> simp [hcode] at h

/-- A script is unreadable, whatever is to be done with it, exactly if its path leads to no file
that holds a text. -/
theorem code_answerIn_eq_unreadable_iff (request : Request) (entries : List (String × Entry))
    (output : Sink) : (request.answerIn entries output).code = .unreadable ↔
      ∀ text : String, ¬ LeadsToFile entries request.file text.toUTF8 := by
  simp only [← fileAt_eq_ok_iff, Request.answerIn]
  constructor
  · intro hcode text hfile
    have hsource : (fileAt entries request.file).bind scriptText = .ok (text ++ "\n") := by
      rw [hfile]
      exact scriptText_toUTF8 text
    rw [answer_of_eq_ok hsource] at hcode
    exact code_answerScript_ne_unreadable request.mode _ output (congrArg ExitCode.number hcode)
  · intro hnone
    obtain ⟨failure, hfailure⟩ := exists_bind_scriptText_eq_error hnone
    rw [answer_of_eq_error hfailure]

end LineBasic.CommandLine
