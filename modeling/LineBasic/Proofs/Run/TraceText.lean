import Mathlib.Data.List.TakeWhile
import LineBasic.Machine.Trace

/-!
# The text of a trace

An entry of a trace is written as a line that starts with the index of the statement, in decimal
digits at the right end of a column, and a second line for a jump that is taken.  Statements and
values may have line breaks and brackets in them, so the text is not cut at its lines.  It is read
from the front: the digits tell the index, the program tells the statement, and what comes behind
the statement is a jump if it starts with a blank.  So entries that report statements of one
program have different texts if they are different.
-/

namespace LineBasic

/-- An entry of a trace: the index of a statement that is executed, the statement, and the label
and the bindings if it is a jump that is taken. -/
@[ext]
structure TraceEntry where
  index : Nat
  statement : Statement
  jump? : Option (String × Bindings)

/-- The bindings behind a statement.  Only an assignment of a value changes them. -/
def Bindings.replay (bindings : Bindings) : Statement → Bindings
  | .assign name e =>
    match e.evaluate bindings with
    | .error _ => bindings
    | .ok value => bindings.assign name value
  | .print _ | .jump _ _ => bindings

namespace TraceEntry

variable {program : Program} {entry other : TraceEntry} {entries others front : List TraceEntry}

/-- The bindings that the assignments among entries make up. -/
def replayed (entries : List TraceEntry) : Bindings :=
  entries.foldl (fun bindings entry => bindings.replay entry.statement) {}

theorem replayed_append_singleton (entries : List TraceEntry) (entry : TraceEntry) :
    replayed (entries ++ [entry]) = (replayed entries).replay entry.statement := by
  simp [replayed]

/-- Each entry is related to the entries in front of it. -/
def Each (related : List TraceEntry → TraceEntry → Prop) (entries : List TraceEntry) : Prop :=
  ∀ front entry back, entries = front ++ entry :: back → related front entry

theorem each_nil (related : List TraceEntry → TraceEntry → Prop) : Each related [] := by
  intro front entry back heq
  simp at heq

theorem Each.append_singleton {related : List TraceEntry → TraceEntry → Prop}
    (heach : Each related entries) (hentry : related entries entry) :
    Each related (entries ++ [entry]) := by
  intro front other back heq
  obtain rfl | ⟨back, last, rfl⟩ := back.eq_nil_or_concat
  · obtain ⟨rfl, hlast⟩ := List.append_inj' heq rfl
    obtain rfl : entry = other := by simpa using hlast
    exact hentry
  · have heq' : entries ++ [entry] = (front ++ other :: back) ++ [last] := by simpa using heq
    obtain ⟨hfront, -⟩ := List.append_inj' heq' rfl
    exact heach front other back hfront

theorem Each.last {related : List TraceEntry → TraceEntry → Prop}
    (heach : Each related (entries ++ [entry])) : Each related entries ∧ related entries entry := by
  refine ⟨?_, heach entries entry [] rfl⟩
  rintro front other back rfl
  exact heach front other (back ++ [entry]) (by simp)

/-! ## Indices -/

/-- The decimal digits of a number, with blanks in front up to four characters. -/
def indexText (index : Nat) : String :=
  String.ofList ((Nat.toDigits 10 index).leftpad 4 ' ')

theorem indexColumn_eq_indexText (index : Nat) : Machine.indexColumn index = indexText index := by
  rw [Machine.indexColumn, indexText, List.leftpad, String.ofList_append]
  simp [Nat.repr]

example : Machine.indexColumn 13 = "  13" ∧ Machine.indexColumn 12345 = "12345" := by
  decide +kernel

theorem ne_of_mem_toDigits {index : Nat} {c separator : Char} (hc : c ∈ Nat.toDigits 10 index)
    (hseparator : separator.isDigit = false) : c ≠ separator := by
  rintro rfl
  have hdigit : c.isDigit = true := Nat.isDigit_of_mem_toDigits (by decide) (by decide) hc
  rw [hseparator] at hdigit
  cases hdigit

/-- Without the blanks in front, what is left are the digits. -/
theorem dropWhile_indexText (index : Nat) :
    (indexText index).toList.dropWhile (· == ' ') = Nat.toDigits 10 index := by
  rw [indexText, String.toList_ofList, List.leftpad, List.dropWhile_append_of_pos]
  · rw [List.dropWhile_eq_self_iff]
    intro hlength
    simpa using ne_of_mem_toDigits (List.getElem_mem hlength) (by decide)
  · intro c hc
    simpa using List.eq_of_mem_replicate hc

theorem indexText_injective : Function.Injective indexText := by
  intro index index' heq
  have hdigits : Nat.toDigits 10 index = Nat.toDigits 10 index' := by
    rw [← dropWhile_indexText, heq, dropWhile_indexText]
  calc index
    _ = Nat.ofDigitChars 10 (Nat.toDigits 10 index) 0 := Nat.ofDigitChars_ten_toDigits.symm
    _ = index' := by rw [hdigits, Nat.ofDigitChars_ten_toDigits]

/-- No index ends its own brackets. -/
theorem ne_bracket_of_mem_indexText {index : Nat} {c : Char}
    (hc : c ∈ (indexText index).toList) : c ≠ ']' := by
  rw [indexText, String.toList_ofList, List.leftpad, List.mem_append] at hc
  rcases hc with hblank | hdigit
  · rw [List.eq_of_mem_replicate hblank]
    decide
  · exact ne_of_mem_toDigits hdigit (by decide)

/-- What stands in front of the first bracket is the index. -/
theorem takeWhile_indexText_append (index : Nat) (rest : List Char) :
    ((indexText index).toList ++ ']' :: rest).takeWhile (· != ']') = (indexText index).toList := by
  rw [List.takeWhile_append_of_pos]
  · simp
  · intro c hc
    simpa using ne_bracket_of_mem_indexText hc

theorem eq_of_indexText_append_eq {index index' : Nat} {rest rest' : List Char}
    (heq : (indexText index).toList ++ ']' :: rest = (indexText index').toList ++ ']' :: rest') :
    index = index' ∧ rest = rest' := by
  have hchars := congrArg (List.takeWhile (· != ']')) heq
  rw [takeWhile_indexText_append, takeWhile_indexText_append] at hchars
  obtain rfl := indexText_injective (String.toList_inj.mp hchars)
  simpa using heq

/-! ## Entries -/

/-- The line of a jump that is taken. -/
def jumpText : Option (String × Bindings) → String
  | none => ""
  | some (label, bindings) => "       -> " ++ label ++ " " ++ bindings.listing ++ "\n"

/-- The lines of an entry. -/
def text (entry : TraceEntry) : String :=
  "[" ++ indexText entry.index ++ "] " ++ entry.statement.listing ++ "\n" ++ jumpText entry.jump?

/-- The lines of entries. -/
def texts (entries : List TraceEntry) : String :=
  String.join (entries.map text)

/-- An entry reports a statement of the program.  If it tells of a jump, then the statement is a
jump to the label, and the bindings are those that the entries in front of it make up. -/
structure Reports (program : Program) (front : List TraceEntry) (entry : TraceEntry) : Prop where
  statement : program.statements[entry.index]? = some entry.statement
  jump : ∀ label bindings, entry.jump? = some (label, bindings) →
    bindings = replayed front ∧ ∃ condition, entry.statement = .jump condition label

/-- Each entry reports a statement of the program behind the entries in front of it. -/
def AreReports (program : Program) (entries : List TraceEntry) : Prop :=
  Each (Reports program) entries

theorem texts_cons (entry : TraceEntry) (entries : List TraceEntry) :
    texts (entry :: entries) = entry.text ++ texts entries := by
  simp [texts]

theorem toList_texts_cons (entry : TraceEntry) (entries : List TraceEntry) :
    (texts (entry :: entries)).toList =
      '[' :: ((indexText entry.index).toList ++ ']' :: ' ' :: (entry.statement.listing.toList ++
        '\n' :: ((jumpText entry.jump?).toList ++ (texts entries).toList))) := by
  simp [texts_cons, text]

theorem texts_cons_ne_nil (entry : TraceEntry) (entries : List TraceEntry) :
    texts (entry :: entries) ≠ texts [] := by
  intro heq
  have hchars := congrArg String.toList heq
  rw [toList_texts_cons] at hchars
  cases hchars

/-- The text of entries does not start as the line of a jump does. -/
theorem head?_texts_ne_blank (entries : List TraceEntry) :
    (texts entries).toList.head? ≠ some ' ' := by
  cases entries with
  | nil => simp [texts]
  | cons entry entries => simp [toList_texts_cons]

theorem head?_jumpText_append (jump : String × Bindings) (rest : List Char) :
    ((jumpText (some jump)).toList ++ rest).head? = some ' ' := by
  simp [jumpText]

/-- Behind the statement, the text tells whether a jump is taken, and the entries in front tell
what is said of it. -/
theorem Reports.jump?_eq (hentry : Reports program front entry)
    (hother : Reports program front other) (hstatement : entry.statement = other.statement)
    (htext : (jumpText entry.jump?).toList ++ (texts entries).toList =
      (jumpText other.jump?).toList ++ (texts others).toList) : entry.jump? = other.jump? := by
  cases hjump : entry.jump? with
  | none =>
    cases hjump' : other.jump? with
    | none => rfl
    | some jump' =>
      rw [hjump, hjump'] at htext
      have hhead := congrArg List.head? htext
      rw [head?_jumpText_append] at hhead
      exact absurd (by simpa [jumpText] using hhead) (head?_texts_ne_blank entries)
  | some jump =>
    cases hjump' : other.jump? with
    | none =>
      rw [hjump, hjump'] at htext
      have hhead := congrArg List.head? htext
      rw [head?_jumpText_append] at hhead
      exact absurd (by simpa [jumpText] using hhead.symm) (head?_texts_ne_blank others)
    | some jump' =>
      obtain ⟨label, bindings⟩ := jump
      obtain ⟨label', bindings'⟩ := jump'
      obtain ⟨rfl, condition, hlabel⟩ := hentry.jump label bindings hjump
      obtain ⟨rfl, condition', hlabel'⟩ := hother.jump label' bindings' hjump'
      rw [hstatement, hlabel'] at hlabel
      cases hlabel
      rfl

/-- One entry is read from the front of the text. -/
theorem Reports.eq_of_texts_cons_eq (hentry : Reports program front entry)
    (hother : Reports program front other)
    (htexts : texts (entry :: entries) = texts (other :: others)) :
    entry = other ∧ texts entries = texts others := by
  have hchars := congrArg String.toList htexts
  rw [toList_texts_cons, toList_texts_cons, List.cons.injEq] at hchars
  obtain ⟨hindex, hrest⟩ := eq_of_indexText_append_eq hchars.2
  have hstatement : entry.statement = other.statement := by
    rw [← Option.some_inj, ← hentry.statement, hindex, hother.statement]
  rw [hstatement, List.cons.injEq, List.append_cancel_left_eq, List.cons.injEq] at hrest
  have hjump := hentry.jump?_eq hother hstatement hrest.2.2
  rw [hjump, List.append_cancel_left_eq] at hrest
  exact ⟨TraceEntry.ext hindex hstatement hjump, String.toList_inj.mp hrest.2.2⟩

/-- Entries that report statements of one program are told by their text. -/
theorem AreReports.eq_of_texts_eq (front : List TraceEntry)
    (hentries : AreReports program (front ++ entries))
    (hothers : AreReports program (front ++ others)) (htexts : texts entries = texts others) :
    entries = others := by
  induction entries generalizing front others with
  | nil =>
    cases others with
    | nil => rfl
    | cons other others => exact absurd htexts.symm (texts_cons_ne_nil other others)
  | cons entry entries ih =>
    cases others with
    | nil => exact absurd htexts (texts_cons_ne_nil entry entries)
    | cons other others =>
      obtain ⟨rfl, hrest⟩ := (hentries front entry entries rfl).eq_of_texts_cons_eq
        (hothers front other others rfl) htexts
      rw [List.append_cons] at hentries hothers
      rw [ih (front ++ [entry]) hentries hothers hrest]

end TraceEntry

end LineBasic
