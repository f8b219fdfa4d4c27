/-!
# Tokens

A token is a piece of program text with its kind.  Any text may go with any kind; the tokens of a
program text are those that `Token.scan` finds.
-/

namespace LineBasic

/-- The kinds of tokens.  `endOfInput` stands for what follows the last token. -/
inductive Token.Kind where
  | word
  | number
  | string
  | lineBreak
  | equals
  | operator
  | leftParen
  | rightParen
  | endOfInput
deriving DecidableEq, Repr, Inhabited

/-- A piece of program text with its kind.  The text of a string is without its quotes. -/
structure Token where
  kind : Token.Kind
  text : String
deriving DecidableEq, Repr, Inhabited

namespace Token

/-- The name of a kind in listings and messages. -/
def Kind.name : Kind → String
  | .word => "word"
  | .number => "number"
  | .string => "string"
  | .lineBreak => "line break"
  | .equals => "="
  | .operator => "operator"
  | .leftParen => "("
  | .rightParen => ")"
  | .endOfInput => "end of input"

/-- The token found where no token is left. -/
def atEnd : Token :=
  ⟨.endOfInput, ""⟩

/-- The name of a kind in a column of twelve characters. -/
def Kind.column (kind : Kind) : String :=
  kind.name ++ String.ofList (List.replicate (12 - kind.name.length) ' ')

/-- The line of a token in a listing: the column of its kind and its text.  A line break shows no
text. -/
def listing (token : Token) : String :=
  match token.kind with
  | .lineBreak => token.kind.name
  | kind => kind.column ++ " " ++ token.text

end Token

end LineBasic
