import LineBasic.Proofs.Grammar.Rejection
import LineBasic.Proofs.Number.Literal
import LineBasic.Proofs.Token.Scan

/-!
# Rejections of program texts

The tokens of a program text look like their kinds: what stands for an operator is the symbol of
one, and what stands for a number is a run of digits, which spells a number.  None stands for the
end of the input.  So a text is never rejected for an operator or a number that does not exist, and
the end of the input is found only where all of its tokens have been read.
-/

namespace LineBasic

namespace Token

variable {token : Token}

/-! ## Tokens that look like their kinds -/

theorem isSome_ofSymbol?_of_ofChar? {c : Char} {kind : Kind} (hchar : Kind.ofChar? c = some kind)
    (hkind : Grammar.IsOperatorKind kind) :
    (Operator.ofSymbol? (String.singleton c)).isSome = true := by
  simp only [Kind.ofChar?] at hchar
  split at hchar
  all_goals cases hchar
  all_goals first | rfl | simp [Grammar.IsOperatorKind] at hkind

theorem IsSpelled.ofSymbol?_ne_none (hspelled : token.IsSpelled)
    (hkind : Grammar.IsOperatorKind token.kind) : Operator.ofSymbol? token.text ≠ none := by
  obtain ⟨kind, text⟩ := token
  obtain ⟨c, hchar, rfl⟩ : ∃ c, Kind.ofChar? c = some kind ∧ text = String.singleton c := by
    obtain rfl | rfl : kind = .operator ∨ kind = .equals := hkind
    · exact hspelled
    · exact hspelled
  exact Option.isSome_iff_ne_none.mp (isSome_ofSymbol?_of_ofChar? hchar hkind)

theorem IsSpelled.read?_ne_none (hspelled : token.IsSpelled) (hkind : token.kind = .number) :
    Number.read? token.text.toList ≠ none := by
  obtain ⟨kind, text⟩ := token
  obtain rfl : kind = .number := hkind
  obtain ⟨hne, hdigits⟩ : IsDigits text := hspelled
  rw [Number.read?_digits hdigits hne]
  exact Option.some_ne_none _

theorem IsSpelled.kind_ne_endOfInput (hspelled : token.IsSpelled) : token.kind ≠ .endOfInput := by
  obtain ⟨kind, text⟩ := token
  rintro rfl
  obtain ⟨c, hchar, -⟩ : ∃ c, Kind.ofChar? c = some .endOfInput ∧ text = String.singleton c :=
    hspelled
  simp only [Kind.ofChar?] at hchar
  split at hchar <;> cases hchar

end Token

namespace Grammar

open Reading Cursor

/-! ## Rejections -/

/-- Neither a token that looks like its kind nor the end of the input is an operator or a number
that does not exist. -/
theorem Refuses.ne_of_isSpelled {form : Form} {count : Nat} {token : Token} {cause : Cause}
    {rules : List Rule} (hrefuses : Refuses form count token cause rules)
    (htoken : token.IsSpelled ∨ token = Token.atEnd) (text : String) :
    cause ≠ .unknownOperator text ∧ cause ≠ .invalidNumber text := by
  cases hrefuses with
  | noOperand | tooDeeplyNested | unclosed | noThen | noLabel =>
    exact ⟨Cause.noConfusion, Cause.noConfusion⟩
  | invalidNumber hkind hread =>
    obtain hspelled | rfl := htoken
    · exact absurd hread (hspelled.read?_ne_none hkind)
    · cases hkind
  | unknownOperator hkind hop =>
    obtain hspelled | rfl := htoken
    · exact absurd hop (hspelled.ofSymbol?_ne_none hkind)
    · simp [IsOperatorKind, Token.atEnd] at hkind

/-- A program text is never rejected for an operator that does not exist, nor for a number that
does not, and the end of the input is the offending token exactly if all tokens have been read. -/
theorem causes_of_ofSource_eq_error {source : String} {rejection : Rejection}
    (hread : Program.ofSource source = .error rejection) :
    (∀ text, rejection.cause ≠ .unknownOperator text ∧ rejection.cause ≠ .invalidNumber text) ∧
      (rejection.token.kind = .endOfInput ↔
        rejection.place = between (Token.scan source) []) := by
  obtain @⟨items, front, own, after, form, count, rules, htokens, -, hplace, -, -, hrefuses, -⟩ :=
    breaksOff_of_ofTokens hread
  have htoken : rejection.token = after.head?.getD Token.atEnd := by
    rw [Rejection.token, hplace, current_between]
  cases after with
  | nil =>
    have hend : rejection.token = Token.atEnd := htoken
    refine ⟨fun text => hrefuses.ne_of_isSpelled (.inr hend) text, ?_⟩
    rw [hend, hplace, htokens]
    simp [Token.atEnd]
  | cons token after =>
    have hoffending : rejection.token = token := htoken
    have hmem : token ∈ Token.scan source := by
      rw [htokens]
      simp
    have hspelled : token.IsSpelled := Token.isSpelled_of_mem_scan hmem
    rw [hoffending] at hrefuses
    refine ⟨fun text => hrefuses.ne_of_isSpelled (.inl hspelled) text, ?_⟩
    rw [hoffending, hplace]
    simp [hspelled.kind_ne_endOfInput, between]

/-- A text that ends inside a parenthesis, behind an operator. -/
theorem causes_of_ofSource_eq_error_open_parenthesis :
    let source := "print x * (y +"
    ∃ rejection, Program.ofSource source = .error rejection ∧
      (∀ text, rejection.cause ≠ .unknownOperator text ∧
        rejection.cause ≠ .invalidNumber text) ∧
      rejection.place = between (Token.scan source) [] := by
  intro source
  have hscan : Token.scan source = [⟨.word, "print"⟩, ⟨.word, "x"⟩, ⟨.operator, "*"⟩,
      ⟨.leftParen, "("⟩, ⟨.word, "y"⟩, ⟨.operator, "+"⟩] := by
    decide +kernel
  have hread : Program.ofSource source =
      .error ⟨.noOperand,
        ⟨[.atomic, .expression, .atomic, .expression, .print, .statement, .program]⟩,
        between (Token.scan source) []⟩ := by
    rw [Program.ofSource, hscan]
    cbv
  obtain ⟨hcauses, hend⟩ := causes_of_ofSource_eq_error hread
  exact ⟨_, hread, hcauses, hend.mp rfl⟩

end Grammar

end LineBasic
