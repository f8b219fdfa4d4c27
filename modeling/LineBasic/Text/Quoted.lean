import LineBasic.Text.Extending
import LineBasic.Text.Printable

/-!
# Quoted text

A quoted text stands between double quotes on one line and shows every character: quotes,
backslashes and the common control characters get a backslash, and characters that cannot be shown
on their own are written by their code point.
-/

namespace LineBasic.Text

/-- A character by its code point in lower-case hexadecimal digits, as in `\u{301}`. -/
def codePointEscape (c : Char) : String :=
  "\\u\x7b" ++ String.ofList (Nat.toDigits 16 c.toNat) ++ "\x7d"

/-- One character of a quoted text. -/
def quotedChar (c : Char) : String :=
  match c with
  | '"' => "\\\""
  | '\\' => "\\\\"
  | '\n' => "\\n"
  | '\r' => "\\r"
  | '\t' => "\\t"
  | '\x00' => "\\0"
  | c => if !isExtending c && isPrintable c then c.toString else codePointEscape c

/-- The text between double quotes, all its characters shown. -/
def quoted (text : String) : String :=
  text.foldl (fun shown c => shown ++ quotedChar c) "\"" ++ "\""

end LineBasic.Text
