import LineBasic.Reading.Item
import LineBasic.Token.Scan

/-!
# Reading programs

The items of a list of tokens make up a program: statements in their order, and for each label the
index of the statement that follows it.  The program ends where no item starts; the tokens from
there on do not matter.
-/

namespace LineBasic

namespace Reading

/-- The program with one more item. -/
def addItem (program : Program) : Item → Program
  | .lineBreak => program
  | .label name => program.labelEnd name
  | .statement statement => program.push statement

/-- Reads the items from the cursor on and adds them to a program. -/
def readItems (program : Program) (state : State) : Except Rejection (Program × State) :=
  match _hread : readItem state with
  | .error rejection => .error rejection
  | .ok (none, after) => .ok (program, after)
  | .ok (some item, after) => readItems (addItem program item) after
termination_by state.cursor.ahead.length
decreasing_by exact length_ahead_readItem _hread

end Reading

namespace Program

/-- The program that a list of tokens spells. -/
def ofTokens (tokens : List Token) : Except Rejection Program :=
  (Reading.following .program (Reading.readItems {}) ⟨Cursor.ofList tokens, {}⟩).map Prod.fst

/-- The program that a text spells. -/
def ofSource (source : String) : Except Rejection Program :=
  ofTokens (Token.scan source)

end Program

end LineBasic
