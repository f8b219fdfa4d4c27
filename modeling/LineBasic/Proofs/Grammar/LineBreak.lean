import LineBasic.Proofs.Grammar.Embedding

/-!
# A line break behind the last token

A line break behind the last token changes nothing of a program: all items are read in front of it
as they are read at the end of the input, and behind it no item is left.  What is rejected is
rejected at the same place.
-/

namespace LineBasic

/-- The cursor with one more token behind the last one. -/
def Cursor.push (cursor : Cursor) (token : Token) : Cursor :=
  { cursor with ahead := cursor.ahead ++ [token] }

/-- The rejection with one more token behind the last one. -/
def Rejection.push (rejection : Rejection) (token : Token) : Rejection :=
  { rejection with place := rejection.place.push token }

namespace Grammar

open Reading Cursor

variable {token : Token}

/-- The program that a list spells, or its rejection, with one more token behind the last one. -/
def pushResult (token : Token) : Except Rejection Program → Except Rejection Program
  | .ok program => .ok program
  | .error rejection => .error (rejection.push token)

theorem push_eq_embed (cursor : Cursor) (token : Token) :
    cursor.push token = cursor.embed [] [token] := by
  simp [Cursor.push, embed]

theorem pushResult_eq_embedProgram (token : Token) (result : Except Rejection Program) :
    pushResult token result = embedProgram [] [token] id result := by
  cases result with
  | ok program => rfl
  | error rejection =>
    simp [pushResult, embedProgram, Rejection.push, Rejection.embed, push_eq_embed]

theorem readItems_lineBreak (program : Program) (behind : List Token) (rules : RuleStack)
    (hbreak : token.kind = .lineBreak) :
    (readItems program ⟨⟨behind, [token]⟩, rules⟩).map Prod.fst = .ok program := by
  obtain ⟨kind, text⟩ := token
  obtain rfl : kind = .lineBreak := hbreak
  have hitem : readItem ⟨⟨behind, [⟨.lineBreak, text⟩]⟩, rules⟩ =
      .ok (some .lineBreak, ⟨⟨⟨.lineBreak, text⟩ :: behind, []⟩, rules⟩) := rfl
  rw [readItems_of_eq_some hitem, addItem, readItems_atEnd]

/-- A line break behind the last token leaves a program as it is, and a rejection where it is. -/
theorem ofTokens_push (tokens : List Token) (hbreak : token.kind = .lineBreak) :
    Program.ofTokens (tokens ++ [token]) = pushResult token (Program.ofTokens tokens) := by
  have hbefore : StartsLine [] := by simp [StartsLine]
  have hafter : EndsLine [token] := by simp [EndsLine, hbreak]
  have hextend : ∀ program item, addItem (id program) item = id (addItem program item) :=
    fun _ _ => rfl
  have hread := readItems_embed hbefore hafter hextend
    (fun program behind rules => readItems_lineBreak program behind rules hbreak) {}
    ⟨between [] tokens, outset⟩
  rw [pushResult_eq_embedProgram, ofTokens_eq_map_readItems, ofTokens_eq_map_readItems, ← hread]
  rfl

theorem ofTokens_append_lineBreak_eq_ok_iff {tokens : List Token} {text : String}
    {program : Program} : Program.ofTokens (tokens ++ [⟨.lineBreak, text⟩]) = .ok program ↔
      Program.ofTokens tokens = .ok program := by
  rw [ofTokens_push _ rfl]
  cases Program.ofTokens tokens <;> simp [pushResult]

end Grammar

end LineBasic
