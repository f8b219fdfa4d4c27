import LineBasic.Text.Numeric
import LineBasic.Token.Basic

/-!
# Tokens of a program text

A program text is cut into pieces from left to right, each as long as it can be: single characters
that are tokens by themselves, words, numbers, strings between double quotes, comments from an
apostrophe to the end of the line, and characters that mean nothing.  The last two leave no token,
nor does a string without a closing quote, which takes all that is left of the text.

Every text has a list of tokens, since every piece takes at least one character.
-/

namespace LineBasic.Token

/-- The kind of a token of one character. -/
def Kind.ofChar? : Char → Option Kind
  | '\n' => some .lineBreak
  | '=' => some .equals
  | '+' | '-' | '*' | '/' | '<' | '>' => some .operator
  | '(' => some .leftParen
  | ')' => some .rightParen
  | _ => none

/-- The piece at the front of a text whose first character is `c`: its token, if it has one, and
what is left of the text. -/
def cut (c : Char) (chars : List Char) : Option Token × List Char :=
  match Kind.ofChar? c with
  | some kind => (some ⟨kind, String.singleton c⟩, chars)
  | none =>
    if Text.isAlphabetic c then
      (some ⟨.word, String.ofList (c :: chars.takeWhile Text.isAlphanumeric)⟩,
        chars.dropWhile Text.isAlphanumeric)
    else if c.isDigit then
      (some ⟨.number, String.ofList (c :: chars.takeWhile Char.isDigit)⟩,
        chars.dropWhile Char.isDigit)
    else if c = '"' then
      match chars.dropWhile (· ≠ '"') with
      | [] => (none, [])
      | _ :: rest => (some ⟨.string, String.ofList (chars.takeWhile (· ≠ '"'))⟩, rest)
    else if c = '\'' then (none, chars.dropWhile (· ≠ '\n'))
    else (none, chars)

/-- A piece takes at least the character it starts with. -/
theorem length_cut_le (c : Char) (chars : List Char) :
    (cut c chars).2.length ≤ chars.length := by
  unfold cut
  split
  · exact Nat.le_refl _
  · split
    · exact (List.dropWhile_sublist _).length_le
    · split
      · exact (List.dropWhile_sublist _).length_le
      · split
        · have hdrop : (chars.dropWhile (· ≠ '"')).length ≤ chars.length :=
            (List.dropWhile_sublist _).length_le
          split
          · exact Nat.zero_le _
          · next heq =>
            rw [heq, List.length_cons] at hdrop
            exact Nat.le_of_succ_le hdrop
        · split
          · exact (List.dropWhile_sublist _).length_le
          · exact Nat.le_refl _

/-- Induction on a text from one piece to the next. -/
@[elab_as_elim]
theorem cut_induction {motive : List Char → Prop} (nil : motive [])
    (cons : ∀ c chars, motive (cut c chars).2 → motive (c :: chars)) (chars : List Char) :
    motive chars := by
  induction hlength : chars.length using Nat.strongRecOn generalizing chars with
  | ind length ih =>
    cases chars with
    | nil => exact nil
    | cons c chars =>
      have hlt : (cut c chars).2.length < length := by
        rw [← hlength]
        exact Nat.lt_succ_of_le (length_cut_le c chars)
      exact cons c chars (ih _ hlt _ rfl)

/-- The tokens found so far, the latest first, followed by those of a text. -/
def scanFrom (found : List Token) : List Char → List Token
  | [] => found.reverse
  | c :: chars =>
    match (cut c chars).1 with
    | some token => scanFrom (token :: found) (cut c chars).2
    | none => scanFrom found (cut c chars).2
termination_by chars => chars.length
decreasing_by all_goals exact Nat.lt_succ_of_le (length_cut_le c chars)

/-- The tokens of a program text, in their order. -/
def scan (source : String) : List Token :=
  scanFrom [] source.toList

/-- What has been found stays in front of what the rest of the text holds. -/
theorem scanFrom_eq (found : List Token) (chars : List Char) :
    scanFrom found chars = found.reverse ++ scanFrom [] chars := by
  induction chars using cut_induction generalizing found with
  | nil => simp [scanFrom]
  | cons c chars ih =>
    rw [scanFrom, scanFrom]
    split
    · next token _ =>
      rw [ih (token :: found), ih [token]]
      simp
    · exact ih found

end LineBasic.Token
