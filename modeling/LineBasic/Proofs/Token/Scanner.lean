import LineBasic.Token.Scan

/-!
# Scanning one character at a time

A scanner meets the characters of a text one after the other and never looks ahead.  What it has to
remember is the tokens found so far, the kind of the piece that it is inside of, and the characters
of that piece.  A character that does not continue a word or a number, or that ends a comment, is
met once more as the start of what follows.  At the end of the text a word or a number is complete,
and a string is not.

The tokens that a scanner finds are those of the text cut into its pieces.
-/

namespace LineBasic.Token

/-- What a scanner is inside of. -/
inductive Scanner.Mode where
  | between
  | word
  | number
  | string
  | comment
deriving DecidableEq, Repr, Inhabited

/-- How far a text has been scanned. -/
structure Scanner where
  /-- The tokens found so far, the latest first. -/
  found : List Token := []
  /-- The characters of the piece that is being met, the latest first. -/
  kept : List Char := []
  mode : Scanner.Mode := .between
deriving DecidableEq, Repr, Inhabited

namespace Scanner

/-- The character goes on with the piece. -/
def keep (scanner : Scanner) (c : Char) : Scanner :=
  { scanner with kept := c :: scanner.kept }

/-- The piece is complete. -/
def emit (scanner : Scanner) (kind : Kind) : Scanner :=
  ⟨⟨kind, String.ofList scanner.kept.reverse⟩ :: scanner.found, [], .between⟩

/-- Meets a character outside of any piece. -/
def start (scanner : Scanner) (c : Char) : Scanner :=
  match Kind.ofChar? c with
  | some kind => { scanner with found := ⟨kind, String.singleton c⟩ :: scanner.found }
  | none =>
    if Text.isAlphabetic c then { scanner.keep c with mode := .word }
    else if c.isDigit then { scanner.keep c with mode := .number }
    else if c = '"' then { scanner with mode := .string }
    else if c = '\'' then { scanner with mode := .comment }
    else scanner

/-- Meets the next character of the text. -/
def meet (scanner : Scanner) (c : Char) : Scanner :=
  match scanner.mode with
  | .between => scanner.start c
  | .word => if Text.isAlphanumeric c then scanner.keep c else (scanner.emit .word).start c
  | .number => if c.isDigit then scanner.keep c else (scanner.emit .number).start c
  | .string => if c = '"' then scanner.emit .string else scanner.keep c
  | .comment => if c = '\n' then { scanner with mode := .between }.start c else scanner

/-- The tokens at the end of the text. -/
def finish (scanner : Scanner) : List Token :=
  match scanner.mode with
  | .word => (scanner.emit .word).found.reverse
  | .number => (scanner.emit .number).found.reverse
  | .between | .string | .comment => scanner.found.reverse

/-- The tokens of a text of which the scanner is about to meet the rest. -/
def scanOn (scanner : Scanner) (chars : List Char) : List Token :=
  (chars.foldl meet scanner).finish

variable (found : List Token) (kept : List Char)

@[simp]
theorem scanOn_nil (scanner : Scanner) : scanner.scanOn [] = scanner.finish := rfl

@[simp]
theorem scanOn_cons (scanner : Scanner) (c : Char) (chars : List Char) :
    scanner.scanOn (c :: chars) = (scanner.meet c).scanOn chars := rfl

/-- Inside a word, the scanner keeps all that continues the word. -/
theorem scanOn_word (chars : List Char) :
    scanOn ⟨found, kept, .word⟩ chars =
      scanOn
        ⟨⟨.word, String.ofList (kept.reverse ++ chars.takeWhile Text.isAlphanumeric)⟩ :: found, [],
          .between⟩
        (chars.dropWhile Text.isAlphanumeric) := by
  induction chars generalizing kept with
  | nil => simp [finish, emit]
  | cons c chars ih =>
    by_cases hc : Text.isAlphanumeric c = true
    · simpa [meet, keep, hc] using ih (c :: kept)
    · simp [meet, emit, hc]

/-- Inside a number, the scanner keeps all that continues the number. -/
theorem scanOn_number (chars : List Char) :
    scanOn ⟨found, kept, .number⟩ chars =
      scanOn
        ⟨⟨.number, String.ofList (kept.reverse ++ chars.takeWhile Char.isDigit)⟩ :: found, [],
          .between⟩
        (chars.dropWhile Char.isDigit) := by
  induction chars generalizing kept with
  | nil => simp [finish, emit]
  | cons c chars ih =>
    by_cases hc : c.isDigit = true
    · simpa [meet, keep, hc] using ih (c :: kept)
    · simp [meet, emit, hc]

/-- Inside a string, the scanner keeps all up to the closing quote, if there is one. -/
theorem scanOn_string (chars : List Char) :
    scanOn ⟨found, kept, .string⟩ chars =
      match chars.dropWhile (· ≠ '"') with
      | [] => found.reverse
      | _ :: rest =>
        scanOn
          ⟨⟨.string, String.ofList (kept.reverse ++ chars.takeWhile (· ≠ '"'))⟩ :: found, [],
            .between⟩
          rest := by
  induction chars generalizing kept with
  | nil => simp [finish]
  | cons c chars ih =>
    by_cases hc : c = '"'
    · simp [meet, emit, hc]
    · simpa [meet, keep, hc] using ih (c :: kept)

/-- Inside a comment, the scanner passes over all up to the end of the line. -/
theorem scanOn_comment (chars : List Char) :
    scanOn ⟨found, kept, .comment⟩ chars =
      scanOn ⟨found, kept, .between⟩ (chars.dropWhile (· ≠ '\n')) := by
  induction chars with
  | nil => simp [finish]
  | cons c chars ih =>
    by_cases hc : c = '\n'
    · simp [meet, hc]
    · simpa [meet, hc] using ih

/-- From one piece to the next, the scanner does what cutting off the piece does. -/
theorem scanOn_between_cons (c : Char) (chars : List Char) :
    scanOn ⟨found, [], .between⟩ (c :: chars) =
      scanOn ⟨(cut c chars).1.toList ++ found, [], .between⟩ (cut c chars).2 := by
  rw [scanOn_cons, meet, start, cut]
  cases Kind.ofChar? c with
  | some kind => rfl
  | none =>
    by_cases hletter : Text.isAlphabetic c = true
    · simp [hletter, keep, scanOn_word]
    by_cases hdigit : c.isDigit = true
    · simp [hletter, hdigit, keep, scanOn_number]
    simp only [if_neg hletter, if_neg hdigit]
    by_cases hquote : c = '"'
    · simp only [if_pos hquote, scanOn_string]
      cases chars.dropWhile (· ≠ '"') with
      | nil => simp [finish]
      | cons quote rest => simp
    by_cases hcomment : c = '\''
    · simp [hcomment, scanOn_comment]
    · simp [hquote, hcomment]

theorem scanOn_between (chars : List Char) :
    scanOn ⟨found, [], .between⟩ chars = scanFrom found chars := by
  induction chars using cut_induction generalizing found with
  | nil => simp [scanFrom, finish]
  | cons c chars ih =>
    rw [scanOn_between_cons, ih, scanFrom]
    cases (cut c chars).1 <;> rfl

end Scanner

/-- The tokens of a text are those that a scanner finds. -/
theorem finish_foldl_meet (source : String) :
    (source.toList.foldl Scanner.meet {}).finish = scan source :=
  Scanner.scanOn_between [] source.toList

end LineBasic.Token
