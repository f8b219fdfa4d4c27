import LineBasic.Proofs.Grammar.Expression
import LineBasic.Proofs.Token.Cursor
import LineBasic.Reading.Item

/-!
# The grammar of items

An item is a line break, a label or a statement.  Which tokens spell an item depends on what
stands around them: a label stands alone on its line, and an expression at the end of a statement
has to be as long as it can be.  Reading an item accepts exactly this grammar, and finds no item
exactly where none starts.
-/

namespace LineBasic.Grammar

open Reading Cursor

/-- The rules that are being followed between the items of a program. -/
def outset : RuleStack :=
  RuleStack.push {} .program

/-- No token, or a line break, stands right before. -/
def StartsLine (before : List Token) : Prop :=
  ∀ token ∈ before.getLast?, token.kind = .lineBreak

/-- No token is left on the line. -/
def EndsLine (after : List Token) : Prop :=
  ∀ token ∈ after.head?, token.kind = .lineBreak ∨ token.kind = .endOfInput

theorem endsLine_nil : EndsLine [] := by
  intro token hmem
  cases hmem

/-- The tokens spell a statement in front of others. -/
inductive SpellsStatement : Statement → List Token → List Token → Prop where
  | assign {name : String} {e : Expression} {tokens after : List Token} (text : String)
      (hvalue : SpellsExpression 0 e tokens) (hend : EndsExpression after) :
      SpellsStatement (.assign name e) (⟨.word, name⟩ :: ⟨.equals, text⟩ :: tokens) after
  | print {e : Expression} {tokens after : List Token}
      (hvalue : SpellsExpression 0 e tokens) (hend : EndsExpression after) :
      SpellsStatement (.print e) (⟨.word, "print"⟩ :: tokens) after
  | jump {condition : Expression} {tokens : List Token} (label : String) (after : List Token)
      (hcondition : SpellsExpression 0 condition tokens) :
      SpellsStatement (.jump condition label)
        (⟨.word, "if"⟩ :: (tokens ++ [⟨.word, "then"⟩, ⟨.word, label⟩])) after

/-- The tokens spell an item between others. -/
inductive SpellsItem (before : List Token) : Item → List Token → List Token → Prop where
  | lineBreak (text : String) (after : List Token) :
      SpellsItem before .lineBreak [⟨.lineBreak, text⟩] after
  | label {after : List Token} (name : String) (hstart : StartsLine before)
      (hend : EndsLine after) : SpellsItem before (.label name) [⟨.word, name⟩] after
  | statement {statement : Statement} {tokens after : List Token}
      (hspells : SpellsStatement statement tokens after) :
      SpellsItem before (.statement statement) tokens after

/-- A statement starts with these tokens. -/
def StartsStatement (rest : List Token) : Prop :=
  (∃ name text after, rest = ⟨.word, name⟩ :: ⟨.equals, text⟩ :: after) ∨
    rest.head? = some ⟨.word, "print"⟩ ∨ rest.head? = some ⟨.word, "if"⟩

/-- An item starts with these tokens, behind others. -/
def StartsItem (before rest : List Token) : Prop :=
  (∃ text after, rest = ⟨.lineBreak, text⟩ :: after) ∨
    (StartsLine before ∧ ∃ name after, rest = ⟨.word, name⟩ :: after ∧ EndsLine after) ∨
    StartsStatement rest

/-! ## Labels and the ends of jumps -/

theorem atLineStart_between_iff {before rest : List Token} :
    (between before rest).atLineStart = true ↔ StartsLine before := by
  obtain rfl | ⟨front, token, rfl⟩ := before.eq_nil_or_concat
  · simp [between, atLineStart, StartsLine]
  · simp [between, atLineStart, StartsLine]

theorem label?_between_eq_some_iff {before rest : List Token} {name : String} {place : Cursor} :
    label? (between before rest) = some (name, place) ↔
      StartsLine before ∧ ∃ after, rest = ⟨.word, name⟩ :: after ∧ EndsLine after ∧
        place = between (before ++ [⟨.word, name⟩]) after := by
  have hstart : (between before rest).atLineStart = true ↔ StartsLine before :=
    atLineStart_between_iff
  simp only [label?]
  split
  · next found following hline hahead =>
    obtain rfl : rest = ⟨.word, found⟩ :: following := hahead
    have hbegins : StartsLine before := hstart.mp hline
    have hlabel : ∀ after, EndsLine after →
        (some (found, (between before (⟨.word, found⟩ :: after)).advance) = some (name, place) ↔
          StartsLine before ∧ ∃ rest, Token.mk .word found :: after = ⟨.word, name⟩ :: rest ∧
            EndsLine rest ∧ place = between (before ++ [⟨.word, name⟩]) rest) := by
      intro after hend
      rw [advance_between_cons]
      constructor
      · rintro ⟨⟩
        exact ⟨hbegins, after, rfl, hend, rfl⟩
      · rintro ⟨-, rest, heq, -, rfl⟩
        cases heq
        rfl
    split
    · exact hlabel _ (by simp [EndsLine])
    · exact hlabel _ (by simp [EndsLine])
    · exact hlabel _ (by simp [EndsLine])
    · next hbreak hinput hnil =>
      have hcontinues : ¬ EndsLine following := by
        intro hend
        cases following with
        | nil => exact hnil rfl
        | cons token following =>
          obtain ⟨kind, text⟩ := token
          obtain rfl | rfl : kind = .lineBreak ∨ kind = .endOfInput := hend _ rfl
          · exact hbreak _ _ rfl
          · exact hinput _ _ rfl
      simp [hcontinues]
  · next hno =>
    simp only [reduceCtorEq, false_iff, not_and, not_exists]
    rintro hbegins after rfl
    exact absurd rfl (hno name after (hstart.mpr hbegins))

theorem label?_between_eq_none_iff {before rest : List Token} :
    label? (between before rest) = none ↔
      ¬ (StartsLine before ∧ ∃ name after, rest = ⟨.word, name⟩ :: after ∧ EndsLine after) := by
  simp only [Option.eq_none_iff_forall_ne_some, Prod.forall, ne_eq, label?_between_eq_some_iff]
  constructor
  · rintro hnone ⟨hstart, name, after, hrest, hend⟩
    exact hnone name _ ⟨hstart, after, hrest, hend, rfl⟩
  · rintro hnone name _ ⟨hstart, after, hrest, hend, -⟩
    exact hnone ⟨hstart, name, after, hrest, hend⟩

/-! ## Forms of statements -/

/-- The tokens tell the form of a statement, in front of others.  A word in front of an equals sign
is assigned to, whatever the word. -/
inductive TellsForm : Form → List Token → List Token → Prop where
  | assignment (name text : String) (after : List Token) :
      TellsForm (.assignment name) [⟨.word, name⟩, ⟨.equals, text⟩] after
  | print {after : List Token} (hnext : ∀ token ∈ after.head?, token.kind ≠ .equals) :
      TellsForm .print [⟨.word, "print"⟩] after
  | conditional {after : List Token} (hnext : ∀ token ∈ after.head?, token.kind ≠ .equals) :
      TellsForm .conditional [⟨.word, "if"⟩] after

/-- A word is not assigned to if no equals sign follows it. -/
theorem matchKinds?_between_not_assigned {rest : List Token}
    (hnext : ∀ token ∈ rest.head?, token.kind ≠ .equals) (before : List Token) (word : Token) :
    (between before (word :: rest)).matchKinds? .word .equals = none := by
  rw [matchKinds?_between_eq_none_iff]
  intro one two after heq hone
  cases heq
  exact hnext two rfl

theorem TellsForm.form? {form : Form} {head after : List Token} (htells : TellsForm form head after)
    (before : List Token) :
    Reading.form? (between before (head ++ after)) =
      some (form, between (before ++ head) after) := by
  cases htells with
  | assignment name text =>
    have hassign : (between before (⟨.word, name⟩ :: ⟨.equals, text⟩ :: after)).matchKinds?
          .word .equals =
        some ((⟨.word, name⟩, ⟨.equals, text⟩),
          between (before ++ [⟨.word, name⟩, ⟨.equals, text⟩]) after) :=
      matchKinds?_between_eq_some_iff.mpr ⟨after, rfl, rfl, rfl, rfl⟩
    simp only [Reading.form?, List.cons_append, List.nil_append, hassign]
  | print hnext =>
    have hassign := matchKinds?_between_not_assigned hnext before ⟨.word, "print"⟩
    simp only [Reading.form?, List.singleton_append, hassign, matchWord?_between_cons]
  | conditional hnext =>
    have hassign := matchKinds?_between_not_assigned hnext before ⟨.word, "if"⟩
    have hprint : (between before (⟨.word, "if"⟩ :: after)).matchWord? "print" = none :=
      matchWord?_between_eq_none_iff.mpr (by simp)
    simp only [Reading.form?, List.singleton_append, hassign, hprint, matchWord?_between_cons]

theorem form?_between_eq_some_iff {before rest : List Token} {form : Form} {place : Cursor} :
    form? (between before rest) = some (form, place) ↔
      ∃ head after, rest = head ++ after ∧ place = between (before ++ head) after ∧
        TellsForm form head after := by
  constructor
  · intro hform
    rw [form?] at hform
    split at hform
    · next name equals _ hassign =>
      cases hform
      obtain ⟨after, rfl, hname, hequals, rfl⟩ := matchKinds?_between_eq_some_iff.mp hassign
      obtain ⟨kind, name⟩ := name
      obtain rfl : kind = .word := hname
      obtain ⟨kind, text⟩ := equals
      obtain rfl : kind = .equals := hequals
      exact ⟨_, after, rfl, rfl, .assignment name text after⟩
    · next hassign =>
      rw [matchKinds?_between_eq_none_iff] at hassign
      have hnext : ∀ word after, rest = ⟨.word, word⟩ :: after →
          ∀ token ∈ after.head?, token.kind ≠ .equals := by
        rintro word after rfl token htoken
        obtain ⟨after, rfl⟩ := List.head?_eq_some_iff.mp htoken
        exact hassign _ _ after rfl rfl
      split at hform
      · next hprint =>
        cases hform
        obtain ⟨after, rfl, rfl, rfl⟩ := matchWord?_between_eq_some_iff.mp hprint
        exact ⟨_, after, rfl, rfl, .print (hnext _ after rfl)⟩
      · split at hform
        · next hif =>
          cases hform
          obtain ⟨after, rfl, rfl, rfl⟩ := matchWord?_between_eq_some_iff.mp hif
          exact ⟨_, after, rfl, rfl, .conditional (hnext _ after rfl)⟩
        · cases hform
  · rintro ⟨head, after, rfl, rfl, htells⟩
    exact htells.form? before

theorem form?_between_eq_none_iff {before rest : List Token} :
    form? (between before rest) = none ↔ ¬ StartsStatement rest := by
  have hassign : (between before rest).matchKinds? .word .equals = none ↔
      ¬ ∃ name text after, rest = ⟨.word, name⟩ :: ⟨.equals, text⟩ :: after := by
    rw [matchKinds?_between_eq_none_iff]
    constructor
    · rintro hnone ⟨name, text, after, hrest⟩
      exact hnone _ _ after hrest rfl rfl
    · rintro hnone ⟨kind, name⟩ ⟨other, text⟩ after hrest rfl rfl
      exact hnone ⟨name, text, after, hrest⟩
  rw [StartsStatement, not_or, not_or, ← hassign, ← matchWord?_between_eq_none_iff,
    ← matchWord?_between_eq_none_iff]
  constructor
  · intro hform
    rw [form?] at hform
    split at hform
    · cases hform
    · next hassign =>
      split at hform
      · cases hform
      · next hprint =>
        split at hform
        · cases hform
        · next hif => exact ⟨hassign, hprint, hif⟩
  · rintro ⟨hassign, hprint, hif⟩
    simp only [form?, hassign, hprint, hif]

/-! ## Statements -/

/-- The kinds of tokens that an operand starts with. -/
def IsOperandKind (kind : Token.Kind) : Prop :=
  kind = .word ∨ kind = .string ∨ kind = .number ∨ kind = .leftParen

/-- An operand starts with these tokens. -/
def StartsOperand (rest : List Token) : Prop :=
  ∃ token ∈ rest.head?, IsOperandKind token.kind

theorem SpellsOperand.exists_eq_cons {depth : Nat} {operand : Expression} {tokens : List Token}
    (hspells : SpellsOperand depth operand tokens) :
    ∃ token rest, tokens = token :: rest ∧ IsOperandKind token.kind := by
  cases hspells <;> exact ⟨_, _, rfl, by simp [IsOperandKind]⟩

theorem SpellsExpression.startsOperand {depth : Nat} {e : Expression} {tokens : List Token}
    (hspells : SpellsExpression depth e tokens) (rest : List Token) :
    StartsOperand (tokens ++ rest) := by
  cases hspells with
  | intro hfirst hlinks =>
    obtain ⟨token, tokens, rfl, hkind⟩ := hfirst.exists_eq_cons
    exact ⟨token, rfl, hkind⟩

section StartsOperand

variable {rest : List Token}

theorem StartsOperand.ne_equals (hstarts : StartsOperand rest) :
    ∀ token ∈ rest.head?, token.kind ≠ .equals := by
  obtain ⟨token, htoken, hkind⟩ := hstarts
  rintro found hfound hequals
  obtain rfl := Option.mem_unique htoken hfound
  simp [IsOperandKind, hequals] at hkind

theorem StartsOperand.not_endsLine (hstarts : StartsOperand rest) : ¬ EndsLine rest := by
  obtain ⟨token, htoken, hkind⟩ := hstarts
  intro hend
  obtain hend | hend := hend token htoken <;> simp [IsOperandKind, hend] at hkind

end StartsOperand

theorem readExpression_between_eq_ok_iff {rules : RuleStack} {before rest : List Token}
    {e : Expression} {state : State} (hrules : rules.depth = 3) :
    readExpression ⟨between before rest, rules⟩ = .ok (e, state) ↔
      ∃ tokens after, rest = tokens ++ after ∧
        state = ⟨between (before ++ tokens) after, rules⟩ ∧
        SpellsExpression 0 e tokens ∧ EndsExpression after := by
  simp only [readExpression_eq_ok_iff hrules, ahead_between, behind_between, between_append]

/-- The tokens spell what stands behind the expression of a statement, in front of others. -/
inductive SpellsEnding (e : Expression) : Form → Statement → List Token → List Token → Prop where
  | assignment (name : String) {after : List Token} (hend : EndsExpression after) :
      SpellsEnding e (.assignment name) (.assign name e) [] after
  | print {after : List Token} (hend : EndsExpression after) :
      SpellsEnding e .print (.print e) [] after
  | conditional (label : String) (after : List Token) :
      SpellsEnding e .conditional (.jump e label) [⟨.word, "then"⟩, ⟨.word, label⟩] after

theorem SpellsEnding.endsExpression {e : Expression} {form : Form} {statement : Statement}
    {ending after : List Token} (hending : SpellsEnding e form statement ending after) :
    EndsExpression (ending ++ after) := by
  cases hending with
  | assignment _ hend => exact hend
  | print hend => exact hend
  | conditional label => simp [EndsExpression, IsOperatorKind]

section Statement

variable {rules : RuleStack} {before rest : List Token} {e : Expression} {form : Form}
variable {statement : Statement} {state : State}

theorem readEnding_between_eq_ok_iff (hrest : EndsExpression rest) :
    readEnding e form ⟨between before rest, rules⟩ = .ok (statement, state) ↔
      ∃ ending after, rest = ending ++ after ∧
        state = ⟨between (before ++ ending) after, rules⟩ ∧
        SpellsEnding e form statement ending after := by
  constructor
  · intro hread
    cases form with
    | assignment name =>
      obtain ⟨rfl, rfl⟩ := pure_eq_ok_iff.mp hread
      exact ⟨[], rest, rfl, by simp, .assignment name hrest⟩
    | print =>
      obtain ⟨rfl, rfl⟩ := pure_eq_ok_iff.mp hread
      exact ⟨[], rest, rfl, by simp, .print hrest⟩
    | conditional =>
      obtain ⟨word, inner, hthen, hbehind⟩ := bind_eq_ok_iff.mp hread
      obtain ⟨place, hword, rfl⟩ := demand_eq_ok_iff.mp hthen
      obtain ⟨rest, rfl, rfl, rfl⟩ := matchWord?_between_eq_some_iff.mp hword
      obtain ⟨label, inner, hlabel, hlast⟩ := bind_eq_ok_iff.mp hbehind
      obtain ⟨place, hname, rfl⟩ := demand_eq_ok_iff.mp hlabel
      obtain ⟨after, rfl, hkind, rfl⟩ := matchKind?_between_eq_some_iff.mp hname
      obtain ⟨kind, text⟩ := label
      obtain rfl : kind = .word := hkind
      obtain ⟨rfl, rfl⟩ := pure_eq_ok_iff.mp hlast
      exact ⟨_, after, rfl, by simp, .conditional text after⟩
  · rintro ⟨ending, after, rfl, rfl, hending⟩
    cases hending with
    | assignment | print => simp [readEnding, pure_eq_ok_iff]
    | conditional label =>
      have hthen : consumeWord "then"
          ⟨between before (⟨.word, "then"⟩ :: ⟨.word, label⟩ :: after), rules⟩ =
            .ok (⟨.word, "then"⟩,
              ⟨between (before ++ [⟨.word, "then"⟩]) (⟨.word, label⟩ :: after), rules⟩) :=
        demand_eq_ok_iff.mpr ⟨_, matchWord?_between_cons before _ "then", rfl⟩
      have hlabel : consume .word
          ⟨between (before ++ [⟨.word, "then"⟩]) (⟨.word, label⟩ :: after), rules⟩ =
          .ok (⟨.word, label⟩, ⟨between (before ++ [⟨.word, "then"⟩] ++ [⟨.word, label⟩]) after,
            rules⟩) :=
        demand_eq_ok_iff.mpr ⟨_, matchKind?_between_cons _ after ⟨.word, label⟩, rfl⟩
      refine bind_eq_ok_iff.mpr ⟨_, _, hthen, bind_eq_ok_iff.mpr ⟨_, _, hlabel, ?_⟩⟩
      simp [pure_eq_ok_iff]

theorem readForm_between_eq_ok_iff (hrules : rules.depth = 2) :
    readForm form ⟨between before rest, rules⟩ = .ok (statement, state) ↔
      ∃ e value ending after, rest = value ++ (ending ++ after) ∧
        state = ⟨between (before ++ (value ++ ending)) after, rules⟩ ∧
        SpellsExpression 0 e value ∧ SpellsEnding e form statement ending after := by
  have haround : (rules.push form.rule).depth = 3 := by rw [RuleStack.depth_push, hrules]
  rw [readForm, following_eq_ok_iff]
  constructor
  · rintro ⟨inner, hinside, rfl⟩
    obtain ⟨e, behind, hvalue, hrest⟩ := bind_eq_ok_iff.mp hinside
    obtain ⟨value, rest, rfl, rfl, hspells, hend⟩ :=
      (readExpression_between_eq_ok_iff haround).mp hvalue
    obtain ⟨ending, after, rfl, rfl, hending⟩ := (readEnding_between_eq_ok_iff hend).mp hrest
    exact ⟨e, value, ending, after, rfl, by simp [State.leave], hspells, hending⟩
  · rintro ⟨e, value, ending, after, rfl, rfl, hspells, hending⟩
    have hend := hending.endsExpression
    have hvalue : readExpression
        ⟨between before (value ++ (ending ++ after)), rules.push form.rule⟩ =
        .ok (e, ⟨between (before ++ value) (ending ++ after), rules.push form.rule⟩) :=
      (readExpression_between_eq_ok_iff haround).mpr ⟨value, _, rfl, rfl, hspells, hend⟩
    have hrest : readEnding e form
        ⟨between (before ++ value) (ending ++ after), rules.push form.rule⟩ =
        .ok (statement, ⟨between (before ++ (value ++ ending)) after, rules.push form.rule⟩) :=
      (readEnding_between_eq_ok_iff hend).mpr ⟨ending, after, rfl, by simp, hending⟩
    exact ⟨_, bind_eq_ok_iff.mpr ⟨e, _, hvalue, hrest⟩, rfl⟩

/-- A statement is its first tokens, an expression, and what stands behind it. -/
theorem spellsStatement_iff {tokens after : List Token} :
    SpellsStatement statement tokens after ↔
      ∃ form head e value ending, tokens = head ++ (value ++ ending) ∧
        TellsForm form head (value ++ (ending ++ after)) ∧ SpellsExpression 0 e value ∧
        SpellsEnding e form statement ending after := by
  constructor
  · intro hspells
    cases hspells with
    | @assign name e value _ text hvalue hend =>
      exact ⟨_, _, e, value, [], by simp, .assignment name text _, hvalue, .assignment name hend⟩
    | @print e value _ hvalue hend =>
      exact ⟨_, _, e, value, [], by simp, .print ((hvalue.startsOperand _).ne_equals), hvalue,
        .print hend⟩
    | @jump e value label _ hvalue =>
      exact ⟨_, _, e, value, _, by simp, .conditional ((hvalue.startsOperand _).ne_equals), hvalue,
        .conditional label after⟩
  · rintro ⟨form, head, e, value, ending, rfl, htells, hvalue, hending⟩
    cases htells with
    | assignment name text =>
      cases hending with
      | assignment _ hend => simpa using SpellsStatement.assign text hvalue hend
    | print =>
      cases hending with
      | print hend => simpa using SpellsStatement.print hvalue hend
    | conditional =>
      cases hending with
      | conditional label => exact .jump label after hvalue

theorem readStatement_between_eq_some_iff :
    readStatement ⟨between before rest, outset⟩ = .ok (some statement, state) ↔
      ∃ tokens after, rest = tokens ++ after ∧
        state = ⟨between (before ++ tokens) after, outset⟩ ∧
        SpellsStatement statement tokens after := by
  have hrules : (outset.push .statement).depth = 2 := rfl
  simp only [spellsStatement_iff]
  constructor
  · intro hread
    cases hform : form? (between before rest) with
    | none =>
      rw [readStatement_of_not_form? hform] at hread
      cases hread
    | some found =>
      obtain ⟨form, place⟩ := found
      obtain ⟨head, rest, rfl, rfl, htells⟩ := form?_between_eq_some_iff.mp hform
      rw [readStatement_of_form? hform] at hread
      cases hvalue : readForm form ⟨between (before ++ head) rest, outset.push .statement⟩ with
      | error rejection =>
        rw [hvalue] at hread
        cases hread
      | ok found =>
        rw [hvalue] at hread
        cases hread
        obtain ⟨e, value, ending, after, rfl, hstate, hspells, hending⟩ :=
          (readForm_between_eq_ok_iff hrules).mp hvalue
        refine ⟨head ++ (value ++ ending), after, by simp, ?_, form, head, e, value, ending, rfl,
          htells, hspells, hending⟩
        rw [hstate]
        simp [State.leave]
  · rintro ⟨_, after, rfl, rfl, form, head, e, value, ending, rfl, htells, hspells, hending⟩
    have hvalue : readForm form ⟨between (before ++ head) (value ++ (ending ++ after)),
        outset.push .statement⟩ = .ok (statement, _) :=
      (readForm_between_eq_ok_iff hrules).mpr
        ⟨e, value, ending, after, rfl, rfl, hspells, hending⟩
    have hform := htells.form? before
    simp only [List.append_assoc] at hform ⊢
    rw [readStatement_of_form? hform, hvalue]
    simp [Except.map, State.leave]

theorem readStatement_between_eq_none_iff :
    readStatement ⟨between before rest, rules⟩ = .ok (none, state) ↔
      ¬ StartsStatement rest ∧ state = ⟨between before rest, rules⟩ := by
  rw [← form?_between_eq_none_iff]
  cases hform : form? (between before rest) with
  | none => simp [readStatement_of_not_form? hform, eq_comm]
  | some found =>
    obtain ⟨form, place⟩ := found
    rw [readStatement_of_form? hform]
    cases readForm form ⟨place, rules.push .statement⟩ <;> simp [Except.map, Prod.map]

end Statement

/-! ## Items -/

section Item

variable {rules : RuleStack} {before rest tokens after : List Token} {item : Item} {state : State}

theorem readItem_between_eq_some
    (hread : readItem ⟨between before rest, outset⟩ = .ok (some item, state)) :
    ∃ tokens after, rest = tokens ++ after ∧ state = ⟨between (before ++ tokens) after, outset⟩ ∧
      SpellsItem before item tokens after := by
  cases hbreak : (between before rest).matchKind? .lineBreak with
  | some found =>
    obtain ⟨token, place⟩ := found
    rw [readItem_of_lineBreak hbreak] at hread
    cases hread
    obtain ⟨after, rfl, hkind, rfl⟩ := matchKind?_between_eq_some_iff.mp hbreak
    obtain ⟨kind, text⟩ := token
    obtain rfl : kind = .lineBreak := hkind
    exact ⟨_, after, rfl, rfl, .lineBreak text after⟩
  | none =>
    cases hlabel : label? (between before rest) with
    | some found =>
      obtain ⟨name, place⟩ := found
      rw [readItem_of_label? hbreak hlabel] at hread
      cases hread
      obtain ⟨hstart, after, rfl, hend, rfl⟩ := label?_between_eq_some_iff.mp hlabel
      exact ⟨_, after, rfl, rfl, .label name hstart hend⟩
    | none =>
      rw [readItem_of_not_label? hbreak hlabel] at hread
      rcases hstatement : readStatement ⟨between before rest, outset⟩ with
        rejection | ⟨_ | statement, place⟩
      all_goals
        rw [hstatement] at hread
        cases hread
      obtain ⟨tokens, after, rfl, rfl, hspells⟩ :=
        readStatement_between_eq_some_iff.mp hstatement
      exact ⟨tokens, after, rfl, rfl, .statement hspells⟩

theorem TellsForm.matchKind?_eq_none {form : Form} {head : List Token}
    (htells : TellsForm form head rest) (before : List Token) :
    (between before (head ++ rest)).matchKind? .lineBreak = none := by
  rw [matchKind?_between_eq_none_iff]
  cases htells <;> simp

/-- A word that goes on behind it is no label. -/
theorem TellsForm.label?_eq_none {form : Form} {head : List Token}
    (htells : TellsForm form head rest) (hrest : StartsOperand rest) (before : List Token) :
    label? (between before (head ++ rest)) = none := by
  rw [label?_between_eq_none_iff]
  rintro ⟨-, name, after, heq, hend⟩
  cases htells with
  | assignment =>
    cases heq
    simp [EndsLine] at hend
  | print | conditional =>
    cases heq
    exact hrest.not_endsLine hend

/-- Behind the tokens that tell its form, a statement is read inside the rule of the form. -/
theorem TellsForm.readItem {form : Form} {head : List Token} (htells : TellsForm form head rest)
    (hlabel : label? (between before (head ++ rest)) = none) (rules : RuleStack) :
    Reading.readItem ⟨between before (head ++ rest), rules⟩ =
      (readForm form ⟨between (before ++ head) rest, rules.push .statement⟩).map
        (Prod.map (fun statement => some (.statement statement)) State.leave) := by
  rw [readItem_of_not_label? (htells.matchKind?_eq_none before) hlabel,
    readStatement_of_form? (htells.form? before)]
  cases readForm form ⟨between (before ++ head) rest, rules.push .statement⟩ <;> rfl

theorem SpellsItem.readItem (hspells : SpellsItem before item tokens after) :
    Reading.readItem ⟨between before (tokens ++ after), outset⟩ =
      .ok (some item, ⟨between (before ++ tokens) after, outset⟩) := by
  cases hspells with
  | lineBreak text _ =>
    exact readItem_of_lineBreak (matchKind?_between_cons before after ⟨.lineBreak, text⟩)
  | label name hstart hend =>
    apply readItem_of_label?
    · exact matchKind?_between_eq_none_iff.mpr (by simp)
    · exact label?_between_eq_some_iff.mpr ⟨hstart, after, rfl, hend, rfl⟩
  | statement hspells =>
    have hread := readStatement_between_eq_some_iff.mpr
      ⟨tokens, after, rfl, (rfl : State.mk (between (before ++ tokens) after) outset = _), hspells⟩
    obtain ⟨form, head, e, value, ending, rfl, htells, hvalue, -⟩ := spellsStatement_iff.mp hspells
    have hlabel := htells.label?_eq_none (hvalue.startsOperand _) before
    simp only [List.append_assoc] at hread ⊢
    rw [readItem_of_not_label? (htells.matchKind?_eq_none before) hlabel, hread]
    rfl

theorem readItem_between_eq_none_iff :
    readItem ⟨between before rest, rules⟩ = .ok (none, state) ↔
      ¬ StartsItem before rest ∧ state = ⟨between before rest, rules⟩ := by
  have hbreak : (between before rest).matchKind? .lineBreak = none ↔
      ¬ ∃ text after, rest = ⟨.lineBreak, text⟩ :: after := by
    rw [matchKind?_between_eq_none_iff]
    constructor
    · rintro hnone ⟨text, after, hrest⟩
      exact hnone _ after hrest rfl
    · rintro hnone ⟨kind, text⟩ after hrest rfl
      exact hnone ⟨text, after, hrest⟩
  rw [StartsItem, not_or, not_or, ← hbreak, ← label?_between_eq_none_iff, and_assoc, and_assoc,
    ← readStatement_between_eq_none_iff]
  cases hbreak : (between before rest).matchKind? .lineBreak with
  | some found => simp [readItem_of_lineBreak hbreak]
  | none =>
    cases hlabel : label? (between before rest) with
    | some found => simp [readItem_of_label? hbreak hlabel]
    | none =>
      rw [readItem_of_not_label? hbreak hlabel]
      rcases readStatement ⟨between before rest, rules⟩ with rejection | ⟨_ | statement, place⟩ <;>
        simp [Except.map]

theorem readItem_of_not_startsItem (hstops : ¬ StartsItem before rest) (rules : RuleStack) :
    readItem ⟨between before rest, rules⟩ = .ok (none, ⟨between before rest, rules⟩) :=
  readItem_between_eq_none_iff.mpr ⟨hstops, rfl⟩

end Item

end LineBasic.Grammar
