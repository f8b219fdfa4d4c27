import Mathlib.Data.List.Induction
import Mathlib.Tactic.IntervalCases
import LineBasic.Proofs.Token.Scan
import LineBasic.Proofs.Token.Scanner

/-!
# Seams of a program text

A text may be cut in two at a seam: a place where no piece goes on from the one part to the other.
What a scanner is inside of at the end of the first part says which second parts do not go on with
the piece.  At a seam the tokens of the two parts, one behind the other, are those of the text.

No second part without a double quote ends a string.  A text that ends inside a string has the
tokens of what is in front of the opening quote, and so has the text with such a second part.
-/

namespace LineBasic.Token

/-! ## The scanner behind a text -/

namespace Scanner

/-- The scanner that has met a text. -/
def after (chars : List Char) : Scanner :=
  chars.foldl meet {}

/-- Between the pieces and inside a comment, no characters are kept. -/
def IsTidy (scanner : Scanner) : Prop :=
  scanner.mode = .between ∨ scanner.mode = .comment → scanner.kept = []

/-- The rest of a text does not go on with what the scanner is inside of. -/
def IsSeam : Mode → List Char → Prop
  | .between, _ => True
  | .word, rest => Stops Text.isAlphanumeric rest
  | .number, rest => Stops Char.isDigit rest
  | .comment, rest => Stops (· ≠ '\n') rest
  | .string, _ => False

variable {scanner : Scanner} {chars rest : List Char} {c : Char}

theorem after_append (front rest : List Char) :
    after (front ++ rest) = rest.foldl meet (after front) :=
  List.foldl_append

theorem after_concat (chars : List Char) (c : Char) : after (chars ++ [c]) = (after chars).meet c :=
  after_append chars [c]

theorem finish_after (chars : List Char) : (after chars).finish = scanFrom [] chars :=
  scanOn_between [] chars

theorem scanFrom_append (front rest : List Char) :
    scanFrom [] (front ++ rest) = (after front).scanOn rest := by
  rw [← finish_after, after_append]
  rfl

theorem isTidy_start (hkept : scanner.kept = []) (c : Char) : (scanner.start c).IsTidy := by
  rw [start]
  cases Kind.ofChar? c with
  | some kind => exact fun _ => hkept
  | none =>
    by_cases hletter : Text.isAlphabetic c = true
    · simp [hletter, IsTidy]
    by_cases hdigit : c.isDigit = true
    · simp [hletter, hdigit, IsTidy]
    simp only [if_neg hletter, if_neg hdigit]
    -- whatever else the character is, it is not kept
    split_ifs <;> exact fun _ => hkept

theorem isTidy_meet (htidy : scanner.IsTidy) (c : Char) : (scanner.meet c).IsTidy := by
  obtain ⟨found, kept, mode⟩ := scanner
  cases mode with
  | between => exact isTidy_start (htidy (.inl rfl)) c
  | word =>
    by_cases hc : Text.isAlphanumeric c = true
    · simp [meet, hc, IsTidy, keep]
    · simpa only [meet, if_neg hc] using isTidy_start rfl c
  | number =>
    by_cases hc : c.isDigit = true
    · simp [meet, hc, IsTidy, keep]
    · simpa only [meet, if_neg hc] using isTidy_start rfl c
  | string =>
    by_cases hc : c = '"'
    · simp [meet, hc, IsTidy, emit]
    · simp [meet, hc, IsTidy, keep]
  | comment =>
    obtain rfl : kept = [] := htidy (.inr rfl)
    by_cases hc : c = '\n'
    · simpa only [meet, if_pos hc] using isTidy_start rfl c
    · simp [meet, hc, IsTidy]

theorem isTidy_after (chars : List Char) : (after chars).IsTidy := by
  induction chars using List.reverseRecOn with
  | nil => exact fun _ => rfl
  | append_singleton chars c ih =>
    rw [after_concat]
    exact isTidy_meet ih c

/-- At a seam the scanner finishes what it is inside of and starts anew. -/
theorem IsTidy.scanOn_of_isSeam (htidy : scanner.IsTidy) (hseam : IsSeam scanner.mode rest) :
    scanner.scanOn rest = scanner.finish ++ scanFrom [] rest := by
  obtain ⟨found, kept, mode⟩ := scanner
  cases mode with
  | between =>
    obtain rfl : kept = [] := htidy (.inl rfl)
    rw [scanOn_between, scanFrom_eq]
    rfl
  | word =>
    rw [scanOn_word, hseam.takeWhile_eq_nil, hseam.dropWhile_eq_self, scanOn_between, scanFrom_eq,
      List.append_nil]
    rfl
  | number =>
    rw [scanOn_number, hseam.takeWhile_eq_nil, hseam.dropWhile_eq_self, scanOn_between, scanFrom_eq,
      List.append_nil]
    rfl
  | string => exact hseam.elim
  | comment =>
    obtain rfl : kept = [] := htidy (.inr rfl)
    rw [scanOn_comment, hseam.dropWhile_eq_self, scanOn_between, scanFrom_eq]
    rfl

/-! ## Strings that are not closed -/

theorem start_eq_of_mode_eq_string (houtside : scanner.mode ≠ .string)
    (hinside : (scanner.start c).mode = .string) :
    c = '"' ∧ scanner.start c = { scanner with mode := .string } := by
  rw [start] at hinside ⊢
  cases hkind : Kind.ofChar? c with
  | some kind => exact absurd (by simpa [hkind] using hinside) houtside
  | none =>
    simp only [hkind] at hinside ⊢
    by_cases hletter : Text.isAlphabetic c = true
    · simp [hletter] at hinside
    by_cases hdigit : c.isDigit = true
    · simp [hletter, hdigit] at hinside
    by_cases hquote : c = '"'
    · exact ⟨hquote, by simp only [if_neg hletter, if_neg hdigit, if_pos hquote]⟩
    by_cases hcomment : c = '\''
    · rw [if_neg hletter, if_neg hdigit, if_neg hquote, if_pos hcomment] at hinside
      cases hinside
    · rw [if_neg hletter, if_neg hdigit, if_neg hquote, if_neg hcomment] at hinside
      exact absurd hinside houtside

/-- A scanner comes to be inside a string at a double quote, in front of which it finishes what it
was inside of. -/
theorem IsTidy.meet_eq_of_mode_eq_string (htidy : scanner.IsTidy)
    (houtside : scanner.mode ≠ .string) (hinside : (scanner.meet c).mode = .string) :
    c = '"' ∧ scanner.meet c = ⟨scanner.finish.reverse, [], .string⟩ := by
  obtain ⟨found, kept, mode⟩ := scanner
  rw [Scanner.meet] at hinside ⊢
  cases mode with
  | between =>
    obtain rfl : kept = [] := htidy (.inl rfl)
    obtain ⟨hc, hstart⟩ := start_eq_of_mode_eq_string houtside hinside
    exact ⟨hc, by simp [hstart, finish]⟩
  | word =>
    by_cases hc : Text.isAlphanumeric c = true
    · simp [hc, keep] at hinside
    simp only [if_neg hc] at hinside ⊢
    obtain ⟨hc, hstart⟩ := start_eq_of_mode_eq_string (by simp [emit]) hinside
    exact ⟨hc, hstart.trans (by simp [finish, emit])⟩
  | number =>
    by_cases hc : c.isDigit = true
    · simp [hc, keep] at hinside
    simp only [if_neg hc] at hinside ⊢
    obtain ⟨hc, hstart⟩ := start_eq_of_mode_eq_string (by simp [emit]) hinside
    exact ⟨hc, hstart.trans (by simp [finish, emit])⟩
  | string => exact absurd rfl houtside
  | comment =>
    by_cases hc : c = '\n'
    · simp only [if_pos hc] at hinside
      have hquote := (start_eq_of_mode_eq_string (by simp) hinside).1
      exact absurd (hc.symm.trans hquote) (by decide)
    · simp [hc] at hinside

/-- A scanner that stays inside a string meets no double quote. -/
theorem quote_not_mem_of_stays
    (hstays : ∀ length ≤ chars.length, ((chars.take length).foldl meet scanner).mode = .string) :
    '"' ∉ chars := by
  induction chars generalizing scanner with
  | nil => exact List.not_mem_nil
  | cons c chars ih =>
    have hmode : scanner.mode = .string := hstays 0 (Nat.zero_le _)
    have hmeet : (scanner.meet c).mode = .string := by
      simpa using hstays 1 (Nat.succ_le_succ (Nat.zero_le _))
    have hchars : '"' ∉ chars := ih fun length hle => hstays (length + 1) (Nat.succ_le_succ hle)
    have hc : '"' ≠ c := by
      rintro rfl
      simp [meet, hmode, emit] at hmeet
    exact List.not_mem_cons_of_ne_of_not_mem hc hchars

end Scanner

/-- The double quote at the index opens a string that a text ends inside of. -/
structure OpensAt (chars : List Char) (index : ℕ) : Prop where
  quote : chars[index]? = some '"'
  outside : (Scanner.after (chars.take index)).mode ≠ .string
  inside : ∀ length, index < length → length ≤ chars.length →
    (Scanner.after (chars.take length)).mode = .string

section OpensAt

variable {chars rest : List Char} {index other : ℕ}

theorem OpensAt.lt_length (hopens : OpensAt chars index) : index < chars.length :=
  (List.getElem?_eq_some_iff.mp hopens.quote).1

theorem OpensAt.take_append (hopens : OpensAt chars index) :
    chars.take index ++ '"' :: chars.drop (index + 1) = chars := by
  obtain ⟨hlt, hquote⟩ := List.getElem?_eq_some_iff.mp hopens.quote
  rw [← hquote, List.getElem_cons_drop, List.take_append_drop]

theorem OpensAt.le (hopens : OpensAt chars index) (hother : OpensAt chars other) :
    index ≤ other := by
  apply Nat.le_of_not_lt
  intro hlt
  exact hopens.outside (hother.inside index hlt hopens.lt_length.le)

/-- The scanner has finished what is in front of the opening quote. -/
theorem OpensAt.after_quote (hopens : OpensAt chars index) :
    (Scanner.after (chars.take index)).meet '"' =
      ⟨(scanFrom [] (chars.take index)).reverse, [], .string⟩ := by
  have hnext := hopens.inside (index + 1) (Nat.lt_succ_self index) hopens.lt_length
  rw [List.take_add_one, hopens.quote, Option.toList_some, Scanner.after_concat] at hnext
  rw [((Scanner.isTidy_after _).meet_eq_of_mode_eq_string hopens.outside hnext).2,
    Scanner.finish_after]

theorem OpensAt.quote_not_mem (hopens : OpensAt chars index) : '"' ∉ chars.drop (index + 1) := by
  have hstays : ∀ length ≤ (chars.drop (index + 1)).length,
      (((chars.drop (index + 1)).take length).foldl Scanner.meet
        (Scanner.after (chars.take (index + 1)))).mode = .string := by
    intro length hle
    rw [← Scanner.after_append, ← List.take_add]
    apply hopens.inside
    · omega
    · rw [List.length_drop] at hle
      have hlt := hopens.lt_length
      omega
  exact Scanner.quote_not_mem_of_stays hstays

/-- Behind the opening quote only a double quote makes a difference. -/
theorem OpensAt.scanFrom_append (hopens : OpensAt chars index) (hrest : '"' ∉ rest) :
    scanFrom [] (chars ++ rest) = scanFrom [] (chars.take index) := by
  have hmem : '"' ∉ chars.drop (index + 1) ++ rest := by
    simp [hopens.quote_not_mem, hrest]
  have hdrop : (chars.drop (index + 1) ++ rest).dropWhile (· ≠ '"') = [] :=
    List.dropWhile_eq_nil_iff.mpr (ne_of_not_mem hmem)
  calc scanFrom [] (chars ++ rest)
      = scanFrom [] (chars.take index ++ '"' :: (chars.drop (index + 1) ++ rest)) := by
        rw [← List.cons_append, ← List.append_assoc, hopens.take_append]
    _ = ((Scanner.after (chars.take index)).meet '"').scanOn (chars.drop (index + 1) ++ rest) :=
        Scanner.scanFrom_append _ _
    _ = scanFrom [] (chars.take index) := by
        rw [hopens.after_quote, Scanner.scanOn_string]
        simp only [hdrop, List.reverse_reverse]

theorem OpensAt.concat (hopens : OpensAt chars index) {c : Char}
    (hinside : (Scanner.after (chars ++ [c])).mode = .string) :
    OpensAt (chars ++ [c]) index := by
  have hlt := hopens.lt_length
  refine ⟨?_, ?_, ?_⟩
  · rw [List.getElem?_append_left hlt]
    exact hopens.quote
  · rw [List.take_append_of_le_length hlt.le]
    exact hopens.outside
  · intro length hindex hle
    by_cases hlength : length ≤ chars.length
    · rw [List.take_append_of_le_length hlength]
      exact hopens.inside length hindex hlength
    · rw [List.take_of_length_le (by simp; omega)]
      exact hinside

theorem opensAt_concat_of_outside {c : Char} (houtside : (Scanner.after chars).mode ≠ .string)
    (hinside : (Scanner.after (chars ++ [c])).mode = .string) :
    OpensAt (chars ++ [c]) chars.length := by
  have hmeet := Scanner.after_concat chars c ▸ hinside
  obtain ⟨rfl, -⟩ := (Scanner.isTidy_after chars).meet_eq_of_mode_eq_string houtside hmeet
  refine ⟨by simp, ?_, ?_⟩
  · rw [List.take_left]
    exact houtside
  · intro length hlt hle
    rw [List.take_of_length_le (by simp; omega)]
    exact hinside

/-- A text that ends inside a string has the double quote that opens it. -/
theorem exists_opensAt (hinside : (Scanner.after chars).mode = .string) :
    ∃ index, OpensAt chars index := by
  induction chars using List.reverseRecOn with
  | nil => cases hinside
  | append_singleton chars c ih =>
    by_cases hmode : (Scanner.after chars).mode = .string
    · obtain ⟨index, hopens⟩ := ih hmode
      exact ⟨index, hopens.concat hinside⟩
    · exact ⟨chars.length, opensAt_concat_of_outside hmode hinside⟩

end OpensAt

/-! ## Two texts, one behind the other -/

/-- The tokens of two texts, one behind the other, are those of the first and then those of the
second, if the second does not go on with what the scanner is inside of behind the first.  If that
is a string, then there is one double quote that opens it, and as long as the second text has no
double quote the tokens are those in front of the opening quote. -/
theorem scan_append_at_seam (front rest : String) :
    (Scanner.after front.toList).finish = scan front ∧
      (Scanner.IsSeam (Scanner.after front.toList).mode rest.toList →
        scan (front ++ rest) = scan front ++ scan rest) ∧
      ((Scanner.after front.toList).mode = .string → ∃! index, OpensAt front.toList index) ∧
      ∀ index, OpensAt front.toList index → '"' ∉ rest.toList →
        scan (front ++ rest) = scan front ∧
          scan front = scan (String.ofList (front.toList.take index)) := by
  have happend : (front ++ rest).toList = front.toList ++ rest.toList := String.toList_append
  refine ⟨Scanner.finish_after front.toList, ?_, ?_, ?_⟩
  · intro hseam
    rw [scan, happend, Scanner.scanFrom_append,
      (Scanner.isTidy_after front.toList).scanOn_of_isSeam hseam, Scanner.finish_after]
    rfl
  · intro hmode
    obtain ⟨index, hopens⟩ := exists_opensAt hmode
    exact ⟨index, hopens, fun other hother => (hother.le hopens).antisymm (hopens.le hother)⟩
  · intro index hopens hrest
    have hfront : scan front = scan (String.ofList (front.toList.take index)) := by
      simpa [scan] using hopens.scanFrom_append List.not_mem_nil
    have hboth : scan (front ++ rest) = scan (String.ofList (front.toList.take index)) := by
      rw [scan, happend, hopens.scanFrom_append hrest, scan, String.toList_ofList]
    exact ⟨hboth.trans hfront.symm, hfront⟩

/-- A comment goes up to the line break that the second text starts with, and a string takes an
apostrophe and all of the second text. -/
theorem scan_append_at_seam_comment_and_string :
    let word : Token := ⟨.word, "x1"⟩
    scan ("x1 'it" ++ "\n7") = [word, ⟨.lineBreak, "\n"⟩, ⟨.number, "7"⟩] ∧
      scan ("x1\"it'" ++ "s\n7") = [word] := by
  have hcomment : Scanner.IsSeam (Scanner.after "x1 'it".toList).mode "\n7".toList := by
    have hmode : (Scanner.after "x1 'it".toList).mode = .comment := by decide
    rw [hmode]
    exact by simp [Scanner.IsSeam, Stops]
  have hstring : OpensAt "x1\"it'".toList 2 := by
    refine ⟨by decide, by decide, ?_⟩
    intro length hindex hle
    have hlength : "x1\"it'".toList.length = 6 := by decide
    rw [hlength] at hle
    interval_cases length <;> decide
  refine ⟨?_, ?_⟩
  · rw [(scan_append_at_seam "x1 'it" "\n7").2.1 hcomment, ← finish_foldl_meet, ← finish_foldl_meet]
    decide
  · obtain ⟨hboth, hfront⟩ :=
      (scan_append_at_seam "x1\"it'" "s\n7").2.2.2 2 hstring (by decide)
    rw [hboth, hfront, ← finish_foldl_meet]
    decide

end LineBasic.Token
