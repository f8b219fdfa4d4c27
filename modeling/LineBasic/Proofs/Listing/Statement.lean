import LineBasic.Program.Statement
import LineBasic.Proofs.Grammar.Item
import LineBasic.Proofs.Listing.Expression

/-!
# Listings of statements

The listing of a statement has its words and the tokens of its expression.  It is read as the
statement, or rejected because the chains of the expression are too deep inside each other.
-/

namespace LineBasic.Statement

open Grammar Reading Cursor

/-- The expression of a statement. -/
def expression : Statement → Expression
  | print e => e
  | assign _ e => e
  | jump condition _ => condition

/-- The tokens of the listing of a statement. -/
def tokens : Statement → List Token
  | print e => ⟨.word, "print"⟩ :: e.tokens
  | assign name e => ⟨.word, name⟩ :: ⟨.equals, "="⟩ :: e.tokens
  | jump condition label =>
    ⟨.word, "if"⟩ :: (condition.tokens ++ [⟨.word, "then"⟩, ⟨.word, label⟩])

/-- The listing of the statement can be read: its names are words, and its expression is legible. -/
inductive Legible : Statement → Prop where
  | print {e : Expression} (he : e.Legible) : Legible (.print e)
  | assign {name : String} {e : Expression} (hname : Token.IsWord name) (he : e.Legible) :
      Legible (.assign name e)
  | jump {condition : Expression} {label : String} (hcondition : condition.Legible)
      (hlabel : Token.IsWord label) : Legible (.jump condition label)

variable {statement : Statement}

theorem Legible.expression (hlegible : statement.Legible) : statement.expression.Legible := by
  cases hlegible <;> assumption

/-! ## Tokens of listings -/

section Scan

open Token

theorem isWord_print : IsWord "print" :=
  isWord_of_all rfl (by decide) (by decide)

theorem isWord_if : IsWord "if" :=
  isWord_of_all rfl (by decide) (by decide)

theorem isWord_then : IsWord "then" :=
  isWord_of_all rfl (by decide) (by decide)

/-- A legible statement is listed with its tokens. -/
theorem Legible.scanFrom (hlegible : statement.Legible) {rest : List Char}
    (hrest : Separates rest) :
    scanFrom [] (statement.listing.toList ++ rest) =
      statement.tokens ++ Token.scanFrom [] rest := by
  cases hlegible with
  | @print e he =>
    have hchars : (Statement.print e).listing.toList ++ rest =
        "print".toList ++ ' ' :: (e.listing.toList ++ rest) := by
      simp [listing, Expression.listingAfter_eq]
    rw [hchars, scanFrom_word isWord_print (separates_blank _), scanFrom_blank,
      he.scanFrom hrest]
    rfl
  | @assign name e hname he =>
    have hequals : Kind.ofChar? '=' = some .equals := rfl
    have hchars : (Statement.assign name e).listing.toList ++ rest =
        name.toList ++ ' ' :: '=' :: ' ' :: (e.listing.toList ++ rest) := by
      simp [listing, Expression.listingAfter_eq]
    rw [hchars, scanFrom_word hname (separates_blank _), scanFrom_blank,
      scanFrom_of_ofChar? hequals, scanFrom_blank, he.scanFrom hrest]
    rfl
  | @jump condition label hcondition hlabel =>
    have hchars : (Statement.jump condition label).listing.toList ++ rest =
        "if".toList ++ ' ' :: (condition.listing.toList ++
          ' ' :: ("then".toList ++ ' ' :: (label.toList ++ rest))) := by
      simp [listing, Expression.listingAfter_eq]
    rw [hchars, scanFrom_word isWord_if (separates_blank _), scanFrom_blank,
      hcondition.scanFrom (separates_blank _), scanFrom_blank,
      scanFrom_word isWord_then (separates_blank _), scanFrom_blank, scanFrom_word hlabel hrest,
      tokens]
    simp

end Scan

/-! ## Statements that have been read -/

/-- What the tokens of a text spell is legible, if its numbers are finite. -/
theorem legible_of_spellsStatement {spelling after : List Token}
    (hspells : SpellsStatement statement spelling after)
    (htokens : ∀ token ∈ spelling, token.IsSpelled)
    (hfinite : ∀ value ∈ statement.expression.numbers, Number.IsFinite value) :
    statement.Legible := by
  cases hspells with
  | assign text hvalue hend =>
    rw [List.forall_mem_cons, List.forall_mem_cons] at htokens
    obtain ⟨hname, -, htokens⟩ := htokens
    exact .assign hname (Expression.legible_of_spellsExpression hvalue htokens hfinite)
  | print hvalue hend =>
    rw [List.forall_mem_cons] at htokens
    exact .print (Expression.legible_of_spellsExpression hvalue htokens.2 hfinite)
  | jump label _ hcondition =>
    rw [List.forall_mem_cons, List.forall_mem_append] at htokens
    obtain ⟨-, htokens, hend⟩ := htokens
    exact .jump (Expression.legible_of_spellsExpression hcondition htokens hfinite)
      (hend ⟨.word, label⟩ (by simp))

theorem chainDepth_le_of_spellsStatement {spelling after : List Token}
    (hspells : SpellsStatement statement spelling after) :
    statement.expression.chainDepth ≤ maxDepth + 1 := by
  cases hspells with
  | assign text hvalue hend => exact Expression.chainDepth_le_of_spellsExpression hvalue
  | print hvalue hend => exact Expression.chainDepth_le_of_spellsExpression hvalue
  | jump label _ hcondition => exact Expression.chainDepth_le_of_spellsExpression hcondition

/-! ## Listings that are read -/

/-- The tokens of a legible statement spell it, if its chains are not too deep inside each other. -/
theorem Legible.spells (hlegible : statement.Legible)
    (hdepth : statement.expression.chainDepth ≤ maxDepth) {after : List Token}
    (hend : EndsExpression after) : SpellsStatement statement statement.tokens after := by
  have hspells := hlegible.expression.spells (by omega : 0 + statement.expression.chainDepth ≤ _)
  have hvalue := Expression.spellsExpression_of_spellsOperand hspells
  cases statement with
  | print e => exact .print hvalue hend
  | assign name e => exact .assign "=" hvalue hend
  | jump condition label => exact .jump label after hvalue

theorem startsOperand_tokens (e : Expression) (rest : List Token) :
    StartsOperand (e.tokens ++ rest) := by
  cases e <;> exact ⟨_, rfl, by simp [IsOperandKind]⟩

/-- The tokens of a statement tell its form in front of its expression. -/
theorem exists_tokens_eq (statement : Statement) :
    ∃ form head ending, statement.tokens = head ++ (statement.expression.tokens ++ ending) ∧
      ∀ after, TellsForm form head (statement.expression.tokens ++ after) := by
  have hnext := fun (e : Expression) (after : List Token) =>
    (startsOperand_tokens e after).ne_equals
  cases statement with
  | print e => exact ⟨_, _, [], by simp [tokens, expression], fun after => .print (hnext e after)⟩
  | assign name e =>
    exact ⟨_, _, [], by simp [tokens, expression], fun after => .assignment name "=" _⟩
  | jump condition label =>
    exact ⟨_, _, _, rfl, fun after => .conditional (hnext condition after)⟩

/-- The listing of a legible statement is rejected if its chains are too deep inside each other. -/
theorem Legible.tooDeep (hlegible : statement.Legible)
    (hdepth : maxDepth < statement.expression.chainDepth) (before after : List Token) :
    Expression.TooDeep (readItem ⟨between before (statement.tokens ++ after), outset⟩) := by
  obtain ⟨form, head, ending, htokens, htells⟩ := exists_tokens_eq statement
  have hrules : (((outset.push .statement).push form.rule).push .expression).depth = 2 * 0 + 4 :=
    rfl
  have hdeep : Expression.TooDeep (readExpression
      ⟨between (before ++ head) (statement.expression.tokens ++ (ending ++ after)),
        (outset.push .statement).push form.rule⟩) :=
    hlegible.expression.tooDeep hrules (Nat.zero_le _) (by simpa using hdepth) _ _
  obtain ⟨rejection, hread, hcause⟩ := hdeep
  have hform : readForm form
      ⟨between (before ++ head) (statement.expression.tokens ++ (ending ++ after)),
        outset.push .statement⟩ = .error rejection :=
    following_eq_error_iff.mpr (bind_eq_error_iff.mpr (.inl hread))
  have hlabel := (htells (ending ++ after)).label?_eq_none (startsOperand_tokens _ _) before
  refine ⟨rejection, ?_, hcause⟩
  rw [htokens, List.append_assoc, List.append_assoc, (htells _).readItem hlabel, hform]
  rfl

end LineBasic.Statement
