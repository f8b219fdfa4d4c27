import Mathlib.Data.List.TakeWhile
import LineBasic.Token.Scan

/-!
# Pieces of a program text

What each kind of token looks like, and how it is found again: a text that starts with a piece, and
goes on with what does not continue the piece, has the token of the piece in front of the tokens of
the rest.
-/

namespace LineBasic.Token

/-- A word starts with a letter and goes on with letters and digits. -/
def IsWord (text : String) : Prop :=
  ∃ c chars, text.toList = c :: chars ∧ Text.isAlphabetic c = true ∧
    ∀ d ∈ chars, Text.isAlphanumeric d = true

/-- A run of one or more digits. -/
def IsDigits (text : String) : Prop :=
  text.toList ≠ [] ∧ ∀ c ∈ text.toList, c.isDigit = true

/-- A string has no double quote inside. -/
def IsQuotable (text : String) : Prop :=
  '"' ∉ text.toList

/-- A token looks like its kind: a program text may have it. -/
def IsSpelled (token : Token) : Prop :=
  match token.kind with
  | .word => IsWord token.text
  | .number => IsDigits token.text
  | .string => IsQuotable token.text
  | kind => ∃ c, Kind.ofChar? c = some kind ∧ token.text = String.singleton c

/-- The text does not continue a word or a number. -/
def Separates (rest : List Char) : Prop :=
  ∀ c ∈ rest.head?, Text.isAlphanumeric c = false

/-! ## Characters -/

section Characters

variable {c : Char}

theorem ofChar?_of_isAlphabetic (halpha : Text.isAlphabetic c = true) :
    Kind.ofChar? c = none := by
  simp only [Kind.ofChar?]
  split <;> first | rfl | (revert halpha; decide)

theorem ofChar?_of_isDigit (hdigit : c.isDigit = true) : Kind.ofChar? c = none := by
  simp only [Kind.ofChar?]
  split <;> first | rfl | (revert hdigit; decide)

theorem toNat_lt_of_isDigit (hdigit : c.isDigit = true) : c.toNat < 128 := by
  obtain ⟨-, hle⟩ := Char.isDigit_iff_toNat.mp hdigit
  exact Nat.lt_of_le_of_lt hle (by decide)

theorem isAlphabetic_of_isDigit (hdigit : c.isDigit = true) : Text.isAlphabetic c = false := by
  obtain ⟨hge, hle⟩ := Char.isDigit_iff_toNat.mp hdigit
  have halpha : c.isAlpha = (decide ('A'.val ≤ c.val ∧ c.val ≤ 'Z'.val) ||
      decide ('a'.val ≤ c.val) && decide (c.val ≤ 'z'.val)) := rfl
  rw [Text.isAlphabetic_of_ascii (toNat_lt_of_isDigit hdigit), halpha]
  simp only [UInt32.le_iff_toNat_le]
  simp at *
  omega

theorem isAlphanumeric_of_isDigit (hdigit : c.isDigit = true) :
    Text.isAlphanumeric c = true := by
  rw [Text.isAlphanumeric, Text.isNumeric_of_ascii (toNat_lt_of_isDigit hdigit), hdigit,
    Bool.or_true]

end Characters

theorem separates_cons {c : Char} (hc : Text.isAlphanumeric c = false) (rest : List Char) :
    Separates (c :: rest) := by
  rintro d ⟨⟩
  exact hc

theorem separates_blank (rest : List Char) : Separates (' ' :: rest) :=
  separates_cons (by decide) rest

theorem separates_rightParen (rest : List Char) : Separates (')' :: rest) :=
  separates_cons (by decide) rest

theorem separates_lineBreak (rest : List Char) : Separates ('\n' :: rest) :=
  separates_cons (by decide) rest

theorem isWord_of_all {text : String} {c : Char} {chars : List Char}
    (hchars : text.toList = c :: chars) (hletter : Text.isAlphabetic c = true)
    (hrun : chars.all Text.isAlphanumeric = true) : IsWord text :=
  ⟨c, chars, hchars, hletter, List.all_eq_true.mp hrun⟩

/-! ## Pieces that are found again -/

theorem scanFrom_cons (c : Char) (chars : List Char) :
    scanFrom [] (c :: chars) = (cut c chars).1.toList ++ scanFrom [] (cut c chars).2 := by
  rw [scanFrom]
  split
  · next heq => rw [scanFrom_eq, heq]; rfl
  · next heq => rw [heq]; rfl

theorem scanFrom_of_ofChar? {c : Char} {kind : Kind} (hkind : Kind.ofChar? c = some kind)
    (rest : List Char) :
    scanFrom [] (c :: rest) = ⟨kind, String.singleton c⟩ :: scanFrom [] rest := by
  rw [scanFrom_cons]
  simp [cut, hkind]

theorem scanFrom_blank (rest : List Char) : scanFrom [] (' ' :: rest) = scanFrom [] rest := by
  have hcut : cut ' ' rest = (none, rest) := by
    simp [cut, Kind.ofChar?, Text.isAlphabetic]
  rw [scanFrom_cons, hcut]
  rfl

/-! ### Runs -/

/-- A run of characters does not go on with the text. -/
def Stops (p : Char → Bool) (rest : List Char) : Prop :=
  ∀ c ∈ rest.head?, p c = false

section Runs

variable {p : Char → Bool} {c : Char} {chars rest : List Char}

theorem Separates.stops (hrest : Separates rest)
    (hp : ∀ c, p c = true → Text.isAlphanumeric c = true) : Stops p rest := by
  intro c hc
  have hseparates := hrest c hc
  cases hpc : p c with
  | false => rfl
  | true => simp [hp c hpc] at hseparates

theorem stops_nil : Stops p [] := by
  rintro c ⟨⟩

theorem stops_cons (hc : p c = false) (rest : List Char) : Stops p (c :: rest) := by
  rintro d ⟨⟩
  exact hc

theorem Stops.takeWhile_eq_nil (hrest : Stops p rest) : rest.takeWhile p = [] := by
  cases rest with
  | nil => rfl
  | cons c rest => simp [hrest c rfl]

theorem Stops.dropWhile_eq_self (hrest : Stops p rest) : rest.dropWhile p = rest := by
  cases rest with
  | nil => rfl
  | cons c rest => simp [hrest c rfl]

theorem Stops.takeWhile_append (hrest : Stops p rest) (hrun : ∀ c ∈ chars, p c = true) :
    (chars ++ rest).takeWhile p = chars := by
  rw [List.takeWhile_append_of_pos hrun, hrest.takeWhile_eq_nil, List.append_nil]

theorem Stops.dropWhile_append (hrest : Stops p rest) (hrun : ∀ c ∈ chars, p c = true) :
    (chars ++ rest).dropWhile p = rest := by
  rw [List.dropWhile_append_of_pos hrun, hrest.dropWhile_eq_self]

/-- A word is cut off in front of what does not continue it. -/
theorem cut_word (hletter : Text.isAlphabetic c = true)
    (hrun : ∀ d ∈ chars, Text.isAlphanumeric d = true) (hrest : Stops Text.isAlphanumeric rest) :
    cut c (chars ++ rest) = (some ⟨.word, String.ofList (c :: chars)⟩, rest) := by
  simp only [cut, ofChar?_of_isAlphabetic hletter, if_pos hletter, hrest.takeWhile_append hrun,
    hrest.dropWhile_append hrun]

/-- A number is cut off in front of what does not continue it. -/
theorem cut_number (hdigit : c.isDigit = true) (hrun : ∀ d ∈ chars, d.isDigit = true)
    (hrest : Stops Char.isDigit rest) :
    cut c (chars ++ rest) = (some ⟨.number, String.ofList (c :: chars)⟩, rest) := by
  simp only [cut, ofChar?_of_isDigit hdigit, isAlphabetic_of_isDigit hdigit, if_pos hdigit,
    Bool.false_eq_true, if_false, hrest.takeWhile_append hrun, hrest.dropWhile_append hrun]

theorem cut_quote (chars : List Char) :
    cut '"' chars = match chars.dropWhile (· ≠ '"') with
      | [] => (none, [])
      | _ :: rest => (some ⟨.string, String.ofList (chars.takeWhile (· ≠ '"'))⟩, rest) := by
  have hkind : Kind.ofChar? '"' = none := rfl
  have hletter : ¬ Text.isAlphabetic '"' = true := by decide
  have hdigit : ¬ '"'.isDigit = true := by decide
  rw [cut, hkind]
  exact (if_neg hletter).trans ((if_neg hdigit).trans (if_pos rfl))

theorem ne_of_not_mem {d : Char} (hd : d ∉ chars) : ∀ c ∈ chars, decide (c ≠ d) = true := by
  intro c hc
  rw [decide_eq_true_eq]
  rintro rfl
  exact hd hc

theorem not_mem_takeWhile (d : Char) (chars : List Char) : d ∉ chars.takeWhile (· ≠ d) := by
  intro hmem
  simpa using List.mem_takeWhile_imp hmem

/-- A string is cut off behind its closing quote. -/
theorem cut_string (hchars : '"' ∉ chars) (rest : List Char) :
    cut '"' (chars ++ '"' :: rest) = (some ⟨.string, String.ofList chars⟩, rest) := by
  have hstops : Stops (· ≠ '"') ('"' :: rest) := stops_cons (by simp) rest
  simp only [cut_quote, hstops.dropWhile_append (ne_of_not_mem hchars),
    hstops.takeWhile_append (ne_of_not_mem hchars)]

/-- A string without a closing quote takes all that is left of the text. -/
theorem cut_unclosed (hchars : '"' ∉ chars) : cut '"' chars = (none, []) := by
  have hdrop : chars.dropWhile (· ≠ '"') = [] :=
    List.dropWhile_eq_nil_iff.mpr (ne_of_not_mem hchars)
  simp only [cut_quote, hdrop]

/-- A comment is cut off in front of the end of its line. -/
theorem cut_comment (hchars : '\n' ∉ chars) (hrest : Stops (· ≠ '\n') rest) :
    cut '\'' (chars ++ rest) = (none, rest) := by
  have hkind : Kind.ofChar? '\'' = none := rfl
  have hletter : ¬ Text.isAlphabetic '\'' = true := by decide
  have hdigit : ¬ '\''.isDigit = true := by decide
  have hquote : ¬ '\'' = '"' := by decide
  simp only [cut, hkind, if_neg hletter, if_neg hdigit, if_neg hquote, if_true,
    hrest.dropWhile_append (ne_of_not_mem hchars)]

/-- A word ends in front of what does not continue it. -/
theorem scanFrom_word {text : String} (hword : IsWord text) (hrest : Separates rest) :
    scanFrom [] (text.toList ++ rest) = ⟨.word, text⟩ :: scanFrom [] rest := by
  obtain ⟨c, chars, hchars, hletter, hrun⟩ := hword
  rw [hchars, List.cons_append, scanFrom_cons, cut_word hletter hrun hrest, ← hchars,
    String.ofList_toList]
  rfl

/-- A number ends in front of what does not continue it. -/
theorem scanFrom_number {text : String} (hdigits : IsDigits text) (hrest : Separates rest) :
    scanFrom [] (text.toList ++ rest) = ⟨.number, text⟩ :: scanFrom [] rest := by
  obtain ⟨hne, hall⟩ := hdigits
  obtain ⟨c, chars, hchars⟩ := List.exists_cons_of_ne_nil hne
  rw [hchars, List.forall_mem_cons] at hall
  obtain ⟨hdigit, hrun⟩ := hall
  have hstops : Stops Char.isDigit rest := hrest.stops fun _ => isAlphanumeric_of_isDigit
  rw [hchars, List.cons_append, scanFrom_cons, cut_number hdigit hrun hstops, ← hchars,
    String.ofList_toList]
  rfl

/-- A string ends at its closing quote. -/
theorem scanFrom_string {text : String} (hquotable : IsQuotable text) (rest : List Char) :
    scanFrom [] ('"' :: (text.toList ++ '"' :: rest)) =
      ⟨.string, text⟩ :: scanFrom [] rest := by
  rw [scanFrom_cons, cut_string hquotable, String.ofList_toList]
  rfl

end Runs

/-! ## The tokens of a text -/

theorem isSpelled_of_ofChar? {c : Char} {kind : Kind} (hkind : Kind.ofChar? c = some kind) :
    IsSpelled ⟨kind, String.singleton c⟩ := by
  have hsingle : ∃ d, Kind.ofChar? d = some kind ∧ String.singleton c = String.singleton d :=
    ⟨c, hkind, rfl⟩
  cases kind with
  | word | number | string =>
    simp only [Kind.ofChar?] at hkind
    split at hkind <;> cases hkind
  | lineBreak | equals | operator | leftParen | rightParen | endOfInput => exact hsingle

theorem isWord_takeWhile {c : Char} (hletter : Text.isAlphabetic c = true) (chars : List Char) :
    IsWord (String.ofList (c :: chars.takeWhile Text.isAlphanumeric)) :=
  ⟨c, chars.takeWhile Text.isAlphanumeric, String.toList_ofList, hletter,
    List.all_eq_true.mp List.all_takeWhile⟩

theorem isDigits_takeWhile {c : Char} (hdigit : c.isDigit = true) (chars : List Char) :
    IsDigits (String.ofList (c :: chars.takeWhile Char.isDigit)) := by
  rw [IsDigits, String.toList_ofList]
  exact ⟨List.cons_ne_nil _ _,
    List.forall_mem_cons.mpr ⟨hdigit, List.all_eq_true.mp List.all_takeWhile⟩⟩

theorem isQuotable_takeWhile (chars : List Char) :
    IsQuotable (String.ofList (chars.takeWhile (· ≠ '"'))) := by
  rw [IsQuotable, String.toList_ofList]
  exact not_mem_takeWhile '"' chars

/-- What is cut off looks like its kind. -/
theorem isSpelled_of_cut {c : Char} {chars : List Char} {token : Token}
    (hcut : (cut c chars).1 = some token) : token.IsSpelled := by
  simp only [cut] at hcut
  split at hcut
  · next hkind =>
    cases hcut
    exact isSpelled_of_ofChar? hkind
  · split at hcut
    · next hletter =>
      cases hcut
      exact isWord_takeWhile hletter chars
    · split at hcut
      · next hdigit =>
        cases hcut
        exact isDigits_takeWhile hdigit chars
      · split at hcut
        · split at hcut
          · cases hcut
          · cases hcut
            exact isQuotable_takeWhile chars
        · split at hcut <;> cases hcut

/-- Every token of a text looks like its kind. -/
theorem isSpelled_of_mem_scanFrom {chars : List Char} {token : Token}
    (hmem : token ∈ scanFrom [] chars) : token.IsSpelled := by
  induction chars using cut_induction with
  | nil => simp [scanFrom] at hmem
  | cons c chars ih =>
    rw [scanFrom_cons, List.mem_append, Option.mem_toList] at hmem
    obtain hcut | hmem := hmem
    · exact isSpelled_of_cut hcut
    · exact ih hmem

theorem isSpelled_of_mem_scan {source : String} {token : Token} (hmem : token ∈ scan source) :
    token.IsSpelled :=
  isSpelled_of_mem_scanFrom hmem

end LineBasic.Token
