import LineBasic.Program.Operator
import LineBasic.Number.Style

/-!
# Expressions

An expression is a literal, the name of a variable, or a chain: a first operand followed by links,
each an operator and an operand.  The operators of a chain are applied from left to right, and
parentheses make a chain an operand of another one.
-/

namespace LineBasic

/-- An expression. -/
inductive Expression where
  | number (value : Float)
  | string (text : String)
  | var (name : String)
  | chain (first : Expression) (links : List (Operator × Expression))
deriving Inhabited

namespace Expression

/-- A number as it is listed. -/
def numberListing (value : Float) : String :=
  Number.literalStyle.write value

/-- A string as it is listed: between double quotes, each character as it is. -/
def stringListing (text : String) : String :=
  "\"" ++ text ++ "\""

mutual

/-- A text with the listing of an expression behind it.  Chains stand in parentheses. -/
def listingAfter (shown : String) : Expression → String
  | .number value => shown ++ numberListing value
  | .string text => shown ++ stringListing text
  | .var name => shown ++ name
  | .chain first links => linksListingAfter (listingAfter (shown ++ "(") first) links ++ ")"

/-- A text with the listing of the links of a chain behind it. -/
def linksListingAfter (shown : String) : List (Operator × Expression) → String
  | [] => shown
  | (op, operand) :: links =>
    linksListingAfter (listingAfter (shown ++ " " ++ op.symbol ++ " ") operand) links

end

/-- The listing of an expression. -/
def listing (e : Expression) : String :=
  listingAfter "" e

mutual

/-- The text in front of a listing stays as it is. -/
theorem listingAfter_eq (shown : String) (e : Expression) :
    listingAfter shown e = shown ++ listing e := by
  cases e with
  | number value => simp [listing, listingAfter]
  | string text => simp [listing, listingAfter]
  | var name => simp [listing, listingAfter]
  | chain first links =>
    rw [listing, listingAfter, listingAfter, listingAfter_eq (shown ++ "(") first,
      listingAfter_eq ("" ++ "(") first, linksListingAfter_eq (shown ++ "(" ++ first.listing) links,
      linksListingAfter_eq ("" ++ "(" ++ first.listing) links]
    simp [String.append_assoc]

/-- The text in front of the links of a chain stays as it is. -/
theorem linksListingAfter_eq (shown : String) (links : List (Operator × Expression)) :
    linksListingAfter shown links = shown ++ linksListingAfter "" links := by
  match links with
  | [] => simp [linksListingAfter]
  | (op, operand) :: rest =>
    rw [linksListingAfter, linksListingAfter, listingAfter_eq (shown ++ _ ++ _ ++ _) operand,
      listingAfter_eq ("" ++ _ ++ _ ++ _) operand, linksListingAfter_eq (_ ++ operand.listing) rest,
      linksListingAfter_eq ("" ++ _ ++ _ ++ _ ++ operand.listing) rest]
    simp [String.append_assoc]

end

end Expression

end LineBasic
