import LineBasic.Token.Basic

/-!
# Cursors

A cursor is a place in a list of tokens.  It keeps the tokens behind it, the latest first, and
those ahead, so both what has been read and what is next are at hand.  No operation changes the
list that a cursor stands in, and a cursor only moves forward.
-/

namespace LineBasic

/-- A place between the tokens of a list. -/
structure Cursor where
  /-- The tokens behind the cursor, the latest first. -/
  behind : List Token
  /-- The tokens ahead of the cursor. -/
  ahead : List Token
deriving DecidableEq, Repr, Inhabited

namespace Cursor

/-- The cursor in front of the first token. -/
def ofList (tokens : List Token) : Cursor :=
  ⟨[], tokens⟩

/-- The list of tokens that the cursor stands in. -/
def tokens (cursor : Cursor) : List Token :=
  cursor.behind.reverse ++ cursor.ahead

/-- The number of tokens behind the cursor. -/
def position (cursor : Cursor) : Nat :=
  cursor.behind.length

/-- The next token, or the end of the input. -/
def current (cursor : Cursor) : Token :=
  cursor.ahead.head?.getD Token.atEnd

/-- The token at a distance from the cursor, or the end of the input.  Distances and places are
machine words, and so is their sum: beyond the largest word it starts over at zero. -/
def peek (cursor : Cursor) (distance : UInt64) : Token :=
  cursor.tokens[(UInt64.ofNat cursor.position + distance).toNat]?.getD Token.atEnd

/-- The cursor behind the next token.  It stays where it is when no token is left. -/
def advance (cursor : Cursor) : Cursor :=
  match cursor.ahead with
  | [] => cursor
  | token :: rest => ⟨token :: cursor.behind, rest⟩

/-- No token, or a line break, is right behind the cursor. -/
def atLineStart (cursor : Cursor) : Bool :=
  match cursor.behind with
  | [] => true
  | token :: _ => token.kind = .lineBreak

/-- The next token and the cursor behind it, if the token is of the kind. -/
def matchKind? (cursor : Cursor) (kind : Token.Kind) : Option (Token × Cursor) :=
  match cursor.ahead with
  | token :: _ => if token.kind = kind then some (token, cursor.advance) else none
  | [] => none

/-- The next two tokens and the cursor behind them, if both are of the kinds. -/
def matchKinds? (cursor : Cursor) (first second : Token.Kind) :
    Option ((Token × Token) × Cursor) :=
  match cursor.ahead with
  | one :: two :: _ =>
    if one.kind = first ∧ two.kind = second then some ((one, two), cursor.advance.advance)
    else none
  | _ => none

/-- The next token and the cursor behind it, if the token is the word. -/
def matchWord? (cursor : Cursor) (word : String) : Option (Token × Cursor) :=
  match cursor.ahead with
  | token :: _ =>
    if token.kind = .word ∧ token.text = word then some (token, cursor.advance) else none
  | [] => none

@[simp]
theorem ahead_advance (cursor : Cursor) : cursor.advance.ahead = cursor.ahead.tail := by
  unfold advance
  split
  · next heq => simp [heq]
  · next heq => simp [heq]

theorem matchKind?_eq_some {cursor next : Cursor} {kind : Token.Kind} {token : Token}
    (hmatch : cursor.matchKind? kind = some (token, next)) :
    token.kind = kind ∧ next = cursor.advance ∧ cursor.ahead = token :: next.ahead := by
  unfold matchKind? at hmatch
  split at hmatch
  · next heq =>
    split at hmatch
    · next hkind =>
      cases hmatch
      exact ⟨hkind, rfl, by simp [heq]⟩
    · cases hmatch
  · cases hmatch

theorem matchKinds?_eq_some {cursor next : Cursor} {first second : Token.Kind}
    {one two : Token} (hmatch : cursor.matchKinds? first second = some ((one, two), next)) :
    one.kind = first ∧ two.kind = second ∧ next = cursor.advance.advance ∧
      cursor.ahead = one :: two :: next.ahead := by
  unfold matchKinds? at hmatch
  split at hmatch
  · next heq =>
    split at hmatch
    · next hkinds =>
      cases hmatch
      exact ⟨hkinds.1, hkinds.2, rfl, by simp [heq]⟩
    · cases hmatch
  · cases hmatch

theorem matchWord?_eq_some {cursor next : Cursor} {word : String} {token : Token}
    (hmatch : cursor.matchWord? word = some (token, next)) :
    token = ⟨.word, word⟩ ∧ next = cursor.advance ∧ cursor.ahead = token :: next.ahead := by
  unfold matchWord? at hmatch
  split at hmatch
  · next found rest heq =>
    split at hmatch
    · next hword =>
      cases hmatch
      refine ⟨?_, rfl, by simp [heq]⟩
      rw [← hword.1, ← hword.2]
    · cases hmatch
  · cases hmatch

end Cursor

end LineBasic
