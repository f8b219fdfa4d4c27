import LineBasic.Program.Expression
import LineBasic.Proofs.Grammar.Expression
import LineBasic.Proofs.Number.Literal
import LineBasic.Proofs.Token.Scan

/-!
# Listings of expressions

The listing of an expression has the tokens of the expression, with each chain in parentheses.  They
spell the expression as long as no more parentheses are open at a time than may be; one chain too
many inside each other, and the listing is rejected for that.
-/

namespace LineBasic

/-- The kind of the token of an operator. -/
def Operator.kind : Operator → Token.Kind
  | equal => .equals
  | plus | minus | multiply | divide | lessThan | greaterThan => .operator

namespace Expression

mutual

/-- The numbers in an expression. -/
def numbers : Expression → List Float
  | .number value => [value]
  | .string _ => []
  | .var _ => []
  | .chain first links => numbers first ++ linkNumbers links

/-- The numbers in the links of a chain. -/
def linkNumbers : List (Operator × Expression) → List Float
  | [] => []
  | (_, operand) :: links => numbers operand ++ linkNumbers links

end

mutual

/-- How many chains of an expression are inside each other. -/
def chainDepth : Expression → Nat
  | .number _ => 0
  | .string _ => 0
  | .var _ => 0
  | .chain first links => max (chainDepth first) (linksDepth links) + 1

/-- How many chains are inside each other in the links of a chain. -/
def linksDepth : List (Operator × Expression) → Nat
  | [] => 0
  | (_, operand) :: links => max (chainDepth operand) (linksDepth links)

end

mutual

/-- The tokens of an expression, with chains in parentheses. -/
def tokens : Expression → List Token
  | .number value => [⟨.number, numberListing value⟩]
  | .string text => [⟨.string, text⟩]
  | .var name => [⟨.word, name⟩]
  | .chain first links =>
    ⟨.leftParen, "("⟩ :: (tokens first ++ linkTokens links ++ [⟨.rightParen, ")"⟩])

/-- The tokens of the links of a chain. -/
def linkTokens : List (Operator × Expression) → List Token
  | [] => []
  | (op, operand) :: links => ⟨op.kind, op.symbol⟩ :: (tokens operand ++ linkTokens links)

end

/-- The tokens of an expression, without parentheses around all of it. -/
def openTokens : Expression → List Token
  | .chain first links => tokens first ++ linkTokens links
  | e => tokens e

mutual

/-- The listing of the expression can be read: its parts have a spelling, and no chain is without
operators. -/
inductive Legible : Expression → Prop where
  | number {value : Float} (hnatural : Number.IsNatural value) : Legible (.number value)
  | string {text : String} (hquotable : Token.IsQuotable text) : Legible (.string text)
  | var {name : String} (hword : Token.IsWord name) : Legible (.var name)
  | chain {first : Expression} {link : Operator × Expression}
      {links : List (Operator × Expression)} (hfirst : Legible first)
      (hlinks : LegibleLinks (link :: links)) : Legible (.chain first (link :: links))

/-- The operands of the links of a chain can be read. -/
inductive LegibleLinks : List (Operator × Expression) → Prop where
  | nil : LegibleLinks []
  | cons {op : Operator} {operand : Expression} {links : List (Operator × Expression)}
      (hoperand : Legible operand) (hlinks : LegibleLinks links) :
      LegibleLinks ((op, operand) :: links)

end

/-! ## Listings -/

/-- The listing of the links of a chain. -/
def linksListing (links : List (Operator × Expression)) : String :=
  linksListingAfter "" links

/-- The listing of an expression, without parentheses around all of it. -/
def openListing : Expression → String
  | .chain first links => first.listing ++ linksListing links
  | e => e.listing

@[simp]
theorem listing_number (value : Float) : listing (.number value) = numberListing value := by
  simp [listing, listingAfter]

@[simp]
theorem listing_string (text : String) : listing (.string text) = stringListing text := by
  simp [listing, listingAfter]

@[simp]
theorem listing_var (name : String) : listing (.var name) = name := by
  simp [listing, listingAfter]

@[simp]
theorem listing_chain (first : Expression) (links : List (Operator × Expression)) :
    listing (.chain first links) = "(" ++ first.listing ++ linksListing links ++ ")" := by
  rw [listing, listingAfter, listingAfter_eq, linksListingAfter_eq, linksListing]
  simp

@[simp]
theorem linksListing_nil : linksListing [] = "" := rfl

@[simp]
theorem linksListing_cons (op : Operator) (operand : Expression)
    (links : List (Operator × Expression)) :
    linksListing ((op, operand) :: links) =
      " " ++ op.symbol ++ " " ++ operand.listing ++ linksListing links := by
  rw [linksListing, linksListingAfter, listingAfter_eq, linksListingAfter_eq, linksListing]
  simp

/-! ## Tokens of listings -/

section Scan

open Token

theorem scanFrom_symbol (op : Operator) (rest : List Char) :
    scanFrom [] (op.symbol.toList ++ rest) = ⟨op.kind, op.symbol⟩ :: scanFrom [] rest := by
  cases op <;> exact scanFrom_of_ofChar? rfl rest

/-- The links of a chain are listed apart from the operand in front of them. -/
theorem separates_linksListing (links : List (Operator × Expression)) {rest : List Char}
    (hrest : Separates rest) :
    Separates ((linksListing links).toList ++ rest) := by
  cases links with
  | nil => simpa using hrest
  | cons link links =>
    obtain ⟨op, operand⟩ := link
    simpa using separates_blank _

theorem isDigits_numberListing {value : Float} (hnatural : Number.IsNatural value) :
    IsDigits (numberListing value) := by
  simp only [IsDigits, numberListing, Number.Style.write, String.toList_ofList]
  exact ⟨hnatural.chars_ne_nil, fun c => hnatural.isDigit_of_mem⟩

mutual

/-- A legible expression is listed with its tokens. -/
theorem Legible.scanFrom {e : Expression} (hlegible : Legible e) {rest : List Char}
    (hrest : Separates rest) :
    scanFrom [] (e.listing.toList ++ rest) = e.tokens ++ Token.scanFrom [] rest := by
  match hlegible with
  | .number hnatural =>
    rw [listing_number, scanFrom_number (isDigits_numberListing hnatural) hrest]
    rfl
  | @Legible.string text hquotable =>
    rw [listing_string]
    simpa [stringListing, tokens] using scanFrom_string hquotable rest
  | .var hword =>
    rw [listing_var, scanFrom_word hword hrest]
    rfl
  | @Legible.chain first link links hfirst hlinks =>
    have hopen : Kind.ofChar? '(' = some .leftParen := rfl
    have hclose : Kind.ofChar? ')' = some .rightParen := rfl
    have hparen := separates_rightParen rest
    have hchars : (listing (.chain first (link :: links))).toList ++ rest =
        '(' :: (first.listing.toList ++
          ((linksListing (link :: links)).toList ++ ')' :: rest)) := by
      simp
    rw [hchars, scanFrom_of_ofChar? hopen, hfirst.scanFrom (separates_linksListing _ hparen),
      hlinks.scanFrom hparen, scanFrom_of_ofChar? hclose, tokens]
    simp

/-- Legible links are listed with their tokens. -/
theorem LegibleLinks.scanFrom {links : List (Operator × Expression)}
    (hlegible : LegibleLinks links) {rest : List Char} (hrest : Separates rest) :
    scanFrom [] ((linksListing links).toList ++ rest) =
      linkTokens links ++ Token.scanFrom [] rest := by
  match hlegible with
  | .nil => rfl
  | @LegibleLinks.cons op operand links hoperand hlinks =>
    have hchars : (linksListing ((op, operand) :: links)).toList ++ rest =
        ' ' :: (op.symbol.toList ++ ' ' :: (operand.listing.toList ++
          ((linksListing links).toList ++ rest))) := by
      simp
    rw [hchars, scanFrom_blank, scanFrom_symbol, scanFrom_blank,
      hoperand.scanFrom (separates_linksListing _ hrest), hlinks.scanFrom hrest, linkTokens]
    simp

end

theorem Legible.scanFrom_openListing {e : Expression} (hlegible : Legible e) {rest : List Char}
    (hrest : Separates rest) :
    Token.scanFrom [] (e.openListing.toList ++ rest) = e.openTokens ++ Token.scanFrom [] rest := by
  cases hlegible with
  | number hnatural => exact Legible.scanFrom (.number hnatural) hrest
  | string hquotable => exact Legible.scanFrom (.string hquotable) hrest
  | var hword => exact Legible.scanFrom (.var hword) hrest
  | chain hfirst hlinks =>
    rw [openListing, String.toList_append, List.append_assoc,
      hfirst.scanFrom (separates_linksListing _ hrest), hlinks.scanFrom hrest, openTokens,
      List.append_assoc]

end Scan

/-! ## Expressions that have been read -/

section Read

open Grammar

theorem numbers_ofLinks (first : Expression) (links : List (Operator × Expression)) :
    (ofLinks first links).numbers = first.numbers ++ linkNumbers links := by
  cases links with
  | nil => simp [ofLinks, linkNumbers]
  | cons link links => rw [ofLinks, numbers]

theorem LegibleLinks.ofLinks {first : Expression} {links : List (Operator × Expression)}
    (hfirst : Legible first) (hlinks : LegibleLinks links) : Legible (.ofLinks first links) := by
  cases links with
  | nil => exact hfirst
  | cons link links => exact .chain hfirst hlinks

mutual

/-- What the tokens of a text spell is legible, if its numbers are finite. -/
theorem legible_of_spellsOperand {depth : Nat} {e : Expression} {spelling : List Token}
    (hspells : SpellsOperand depth e spelling) (htokens : ∀ token ∈ spelling, token.IsSpelled)
    (hfinite : ∀ value ∈ e.numbers, Number.IsFinite value) : Legible e := by
  match hspells with
  | .var _ name => exact .var (htokens _ (List.mem_singleton_self _))
  | .string _ text => exact .string (htokens _ (List.mem_singleton_self _))
  | .number _ hread =>
    obtain ⟨hne, hdigits⟩ := htokens _ (List.mem_singleton_self _)
    have hvalue := hfinite _ (List.mem_singleton_self _)
    exact .number (Number.isNatural_of_read?_digits hdigits hne hread hvalue)
  | .group openText closeText hdepth hfirst hlinks =>
    rw [numbers_ofLinks, List.forall_mem_append] at hfinite
    rw [List.forall_mem_cons, List.forall_mem_append, List.forall_mem_append] at htokens
    obtain ⟨-, ⟨hfirstTokens, hlinkTokens⟩, -⟩ := htokens
    exact LegibleLinks.ofLinks (legible_of_spellsOperand hfirst hfirstTokens hfinite.1)
      (legibleLinks_of_spellsLinks hlinks hlinkTokens hfinite.2)

theorem legibleLinks_of_spellsLinks {depth : Nat} {links : List (Operator × Expression)}
    {spelling : List Token} (hspells : SpellsLinks depth links spelling)
    (htokens : ∀ token ∈ spelling, token.IsSpelled)
    (hfinite : ∀ value ∈ linkNumbers links, Number.IsFinite value) : LegibleLinks links := by
  match hspells with
  | .nil _ => exact .nil
  | .cons hkind hop hoperand hlinks =>
    rw [linkNumbers, List.forall_mem_append] at hfinite
    rw [List.forall_mem_cons, List.forall_mem_append] at htokens
    obtain ⟨-, hoperandTokens, hlinkTokens⟩ := htokens
    exact .cons (legible_of_spellsOperand hoperand hoperandTokens hfinite.1)
      (legibleLinks_of_spellsLinks hlinks hlinkTokens hfinite.2)

end

theorem legible_of_spellsExpression {depth : Nat} {e : Expression} {spelling : List Token}
    (hspells : SpellsExpression depth e spelling) (htokens : ∀ token ∈ spelling, token.IsSpelled)
    (hfinite : ∀ value ∈ e.numbers, Number.IsFinite value) : Legible e := by
  obtain ⟨hfirst, hlinks⟩ := hspells
  rw [numbers_ofLinks, List.forall_mem_append] at hfinite
  rw [List.forall_mem_append] at htokens
  exact LegibleLinks.ofLinks (legible_of_spellsOperand hfirst htokens.1 hfinite.1)
    (legibleLinks_of_spellsLinks hlinks htokens.2 hfinite.2)

theorem chainDepth_ofLinks_le (first : Expression) (links : List (Operator × Expression)) :
    (ofLinks first links).chainDepth ≤ max first.chainDepth (linksDepth links) + 1 := by
  cases links with
  | nil => exact Nat.le_succ_of_le (Nat.le_max_left _ _)
  | cons link links => exact Nat.le_of_eq (by rw [ofLinks, chainDepth])

mutual

/-- Each chain in an operand has parentheses of its own. -/
theorem chainDepth_le_of_spellsOperand {depth : Nat} {e : Expression} {spelling : List Token}
    (hspells : SpellsOperand depth e spelling) (hdepth : depth ≤ Grammar.maxDepth) :
    depth + e.chainDepth ≤ Grammar.maxDepth := by
  match hspells with
  | .var _ _ | .string _ _ | .number _ _ => simpa [chainDepth] using hdepth
  | @SpellsOperand.group _ first links _ _ openText closeText hlt hfirst hlinks =>
    have hle := chainDepth_ofLinks_le first links
    have hfirst := chainDepth_le_of_spellsOperand hfirst hlt
    have hlinks := linksDepth_le_of_spellsLinks hlinks hlt
    omega

theorem linksDepth_le_of_spellsLinks {depth : Nat} {links : List (Operator × Expression)}
    {spelling : List Token} (hspells : SpellsLinks depth links spelling)
    (hdepth : depth ≤ Grammar.maxDepth) : depth + linksDepth links ≤ Grammar.maxDepth := by
  match hspells with
  | .nil _ => simpa [linksDepth] using hdepth
  | .cons _ _ hoperand hlinks =>
    have hoperand := chainDepth_le_of_spellsOperand hoperand hdepth
    have hlinks := linksDepth_le_of_spellsLinks hlinks hdepth
    rw [linksDepth]
    omega

end

/-- A whole expression may be one more chain, without parentheses. -/
theorem chainDepth_le_of_spellsExpression {e : Expression} {spelling : List Token}
    (hspells : SpellsExpression 0 e spelling) : e.chainDepth ≤ Grammar.maxDepth + 1 := by
  obtain ⟨hfirst, hlinks⟩ := hspells
  have hfirst := chainDepth_le_of_spellsOperand hfirst (Nat.zero_le _)
  have hlinks := linksDepth_le_of_spellsLinks hlinks (Nat.zero_le _)
  exact Nat.le_trans (chainDepth_ofLinks_le _ _) (by omega)

end Read

/-! ## Listings that are read -/

section Spell

open Grammar Reading

theorem isOperatorKind_kind (op : Operator) : IsOperatorKind op.kind := by
  cases op <;> decide

mutual

/-- The tokens of a legible expression spell it, if its chains are not too deep in each other. -/
theorem Legible.spells {e : Expression} (hlegible : Legible e) {depth : Nat}
    (hdepth : depth + e.chainDepth ≤ maxDepth) : SpellsOperand depth e e.tokens := by
  match hlegible with
  | @Legible.number value hnatural =>
    refine .number depth ?_
    rw [numberListing, Number.Style.write, String.toList_ofList]
    exact hnatural.read?_chars
  | .string _ => exact .string depth _
  | .var _ => exact .var depth _
  | @Legible.chain first link links hfirst hlinks =>
    rw [chainDepth] at hdepth
    exact .group "(" ")" (by omega) (hfirst.spells (by omega)) (hlinks.spells (by omega))

/-- The tokens of legible links spell them. -/
theorem LegibleLinks.spells {links : List (Operator × Expression)} (hlegible : LegibleLinks links)
    {depth : Nat} (hdepth : depth + linksDepth links ≤ maxDepth) :
    SpellsLinks depth links (linkTokens links) := by
  match hlegible with
  | .nil => exact .nil depth
  | @LegibleLinks.cons op operand links hoperand hlinks =>
    rw [linksDepth] at hdepth
    exact .cons (isOperatorKind_kind op) op.ofSymbol?_symbol (hoperand.spells (by omega))
      (hlinks.spells (by omega))

end

theorem spellsExpression_of_spellsOperand {depth : Nat} {e : Expression} {spelling : List Token}
    (hspells : SpellsOperand depth e spelling) : SpellsExpression depth e spelling := by
  have hvalue := SpellsExpression.intro hspells (.nil depth)
  rwa [List.append_nil] at hvalue

/-- Without parentheses around all of it, an expression may have one more chain. -/
theorem Legible.spells_openTokens {e : Expression} (hlegible : Legible e)
    (hdepth : e.chainDepth ≤ maxDepth + 1) : SpellsExpression 0 e e.openTokens := by
  cases hlegible with
  | number hnatural =>
    exact spellsExpression_of_spellsOperand (Legible.spells (.number hnatural) (Nat.zero_le _))
  | string hquotable => exact spellsExpression_of_spellsOperand (.string 0 _)
  | var hword => exact spellsExpression_of_spellsOperand (.var 0 _)
  | chain hfirst hlinks =>
    rw [chainDepth] at hdepth
    exact .intro (hfirst.spells (by omega)) (hlinks.spells (by omega))

/-- Reading is given up because of too many open parentheses. -/
def TooDeep {α : Type} (result : Except Rejection α) : Prop :=
  ∃ rejection, result = .error rejection ∧ rejection.cause = .tooDeeplyNested

mutual

/-- Reading comes to one parenthesis too many in an expression with too many chains inside each
other. -/
theorem Legible.tooDeep {e : Expression} (hlegible : Legible e) {depth : Nat}
    {rules : RuleStack} {opened : List Left} {left : Left}
    (hrules : rules.depth = 2 * depth + 4) (hopened : depth ≤ maxDepth)
    (hdepth : maxDepth < depth + e.chainDepth) (behind ahead : List Token) :
    TooDeep (continueExpression ⟨opened, .operand left⟩ (rules.push .atomic) behind
      (e.tokens ++ ahead)) := by
  match hlegible with
  | .number _ | .string _ | .var _ =>
    rw [chainDepth] at hdepth
    omega
  | @Legible.chain first link links hfirst hlinks =>
    rw [chainDepth] at hdepth
    rw [tokens, List.cons_append]
    by_cases hfull : maxDepth ≤ depth
    · have hnext : Progress.next ⟨opened, .operand left⟩ (rules.push .atomic) ⟨.leftParen, "("⟩ =
          .error .tooDeeplyNested := by
        simp only [Progress.next, Progress.nextOperand,
          if_pos ((isFull_push_atomic_iff hrules).mpr hfull)]
      rw [continueExpression, hnext]
      exact ⟨_, rfl, rfl⟩
    · have hroom : depth < maxDepth := Nat.lt_of_not_le hfull
      have hinner : ((rules.push .atomic).push .expression).depth = 2 * (depth + 1) + 4 := by
        rw [RuleStack.depth_push, RuleStack.depth_push, hrules]
        omega
      rw [continueExpression_cons _ _ (next_leftParen hrules hroom "("), List.append_assoc,
        List.append_assoc]
      by_cases hdeep : maxDepth < depth + 1 + first.chainDepth
      · exact hfirst.tooDeep hinner hroom hdeep _ _
      · rw [((hfirst.spells (by omega)).leads hinner).continueExpression]
        exact hlinks.tooDeep hinner hroom (by omega) _ _

/-- Reading comes to one parenthesis too many in links with too many chains inside each other. -/
theorem LegibleLinks.tooDeep {links : List (Operator × Expression)} (hlegible : LegibleLinks links)
    {depth : Nat} {rules : RuleStack} {opened : List Left} {chain : OpenChain}
    (hrules : rules.depth = 2 * depth + 4) (hopened : depth ≤ maxDepth)
    (hdepth : maxDepth < depth + linksDepth links) (behind ahead : List Token) :
    TooDeep (continueExpression ⟨opened, .operator chain⟩ rules behind
      (linkTokens links ++ ahead)) := by
  match hlegible with
  | .nil =>
    rw [linksDepth] at hdepth
    omega
  | @LegibleLinks.cons op operand links hoperand hlinks =>
    rw [linksDepth] at hdepth
    rw [linkTokens, List.cons_append, List.append_assoc,
      continueExpression_cons _ _ (next_operator (isOperatorKind_kind op) op.ofSymbol?_symbol)]
    by_cases hdeep : maxDepth < depth + operand.chainDepth
    · exact hoperand.tooDeep hrules hopened hdeep _ _
    · rw [((hoperand.spells (by omega)).leads hrules).continueExpression]
      exact hlinks.tooDeep hrules hopened (by omega) _ _

end

end Spell

/-! ## Expressions of any depth -/

/-- Sums inside each other, each the right operand of the one around it. -/
def nestedSum : Nat → Expression
  | 0 => .var "x"
  | count + 1 => .chain (.var "x") [(.plus, nestedSum count)]

theorem isWord_x : Token.IsWord "x" :=
  Token.isWord_of_all rfl (by decide) rfl

theorem legible_nestedSum (count : Nat) : Legible (nestedSum count) := by
  induction count with
  | zero => exact .var isWord_x
  | succ count ih => exact .chain (.var isWord_x) (.cons ih .nil)

theorem numbers_nestedSum (count : Nat) : (nestedSum count).numbers = [] := by
  induction count with
  | zero => rfl
  | succ count ih => simp [nestedSum, numbers, linkNumbers, ih]

theorem chainDepth_nestedSum (count : Nat) : (nestedSum count).chainDepth = count := by
  induction count with
  | zero => rfl
  | succ count ih => simp [nestedSum, chainDepth, linksDepth, ih]

end Expression

end LineBasic
