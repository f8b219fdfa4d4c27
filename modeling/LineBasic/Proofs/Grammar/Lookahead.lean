import LineBasic.Proofs.Grammar.Program

/-!
# One token ahead

Reading looks at the token in front of which it stops, well or not, and at none behind it.  This
holds of reading one token and of reading an expression, and reading one thing and then another
keeps it, and so does following a rule.  So it holds of reading an item whose first tokens have been
told.  Only the end of a program is told by two tokens: a word starts no statement if no equals sign
follows it.

So a rejection rests on the tokens up to the offending one, and the tokens from the end of a program
on may be taken away, or others may stand behind the two that tell the end.
-/

namespace LineBasic

/-- Two rejections say the same: of the same token, at the same place in their lists. -/
structure Rejection.Agrees (rejection other : Rejection) : Prop where
  cause : rejection.cause = other.cause
  path : rejection.path = other.path
  token : rejection.token = other.token
  position : rejection.place.position = other.place.position

namespace Grammar

open Reading Cursor

variable {α β : Type} {form : Form} {items : List Item} {rules : RuleStack}
variable {before tokens front own head rest after others : List Token}

/-! ## Readers that look at one token ahead -/

/-- What reading comes to, wherever it stops. -/
inductive Outcome (α : Type) where
  | read (value : α) (rules : RuleStack)
  | rejected (cause : Cause) (rules : RuleStack)

/-- The result of reading that stops at a place. -/
def Outcome.stopAt (place : Cursor) : Outcome α → Except Rejection (α × State)
  | .read value rules => .ok (value, ⟨place, rules⟩)
  | .rejected cause rules => .error ⟨cause, rules, place⟩

/-- Reading stops in front of the second tokens and comes to the same in front of all others that
start with the same token, or at the end of the input if nothing is left. -/
def StopsBefore (reader : Reader α) (rules : RuleStack) (before own after : List Token)
    (outcome : Outcome α) : Prop :=
  ∀ others : List Token, others.head? = after.head? →
    reader ⟨between before (own ++ others), rules⟩ =
      outcome.stopAt (between (before ++ own) others)

/-- Wherever reading starts, it looks at one token more than it passes over. -/
def LooksAhead (reader : Reader α) : Prop :=
  ∀ (before rest : List Token) (rules : RuleStack), ∃ own after outcome,
    rest = own ++ after ∧ StopsBefore reader rules before own after outcome

theorem looksAhead_pure (value : α) : LooksAhead (pure value) := by
  intro before rest rules
  refine ⟨[], rest, .read value rules, rfl, ?_⟩
  intro others _
  rw [List.append_nil]
  rfl

/-- What is read second looks at one token more than it passes over, which is one that follows what
is read first. -/
theorem LooksAhead.bind {reader : Reader α} {next : α → Reader β} (hreader : LooksAhead reader)
    (hnext : ∀ value, LooksAhead (next value)) : LooksAhead (reader >>= next) := by
  intro before rest rules
  obtain ⟨own, after, outcome, rfl, hread⟩ := hreader before rest rules
  cases outcome with
  | rejected cause inner =>
    refine ⟨own, after, .rejected cause inner, rfl, ?_⟩
    intro others hhead
    exact bind_eq_error_iff.mpr (.inl (hread others hhead))
  | read value inner =>
    -- the first reader stops in front of a token that the second one reads, or both stop there
    obtain ⟨more, after, outcome, rfl, hmore⟩ := hnext value (before ++ own) after inner
    refine ⟨own ++ more, after, outcome, (List.append_assoc own more after).symm, ?_⟩
    intro others hhead
    rw [List.append_assoc, bind_of_eq_ok (hread _ (head?_append_congr hhead more)),
      ← List.append_assoc]
    exact hmore others hhead

theorem LooksAhead.following {reader : Reader α} (hreader : LooksAhead reader) (rule : Rule) :
    LooksAhead (following rule reader) := by
  intro before rest rules
  obtain ⟨own, after, outcome, rfl, hread⟩ := hreader before rest (rules.push rule)
  cases outcome with
  | rejected cause inner =>
    refine ⟨own, after, .rejected cause inner, rfl, ?_⟩
    intro others hhead
    exact following_eq_error_iff.mpr (hread others hhead)
  | read value inner =>
    refine ⟨own, after, .read value inner.pop, rfl, ?_⟩
    intro others hhead
    exact following_eq_ok_iff.mpr ⟨_, hread others hhead, rfl⟩

theorem looksAhead_consume (kind : Token.Kind) : LooksAhead (consume kind) := by
  intro before rest rules
  by_cases hkind : ∃ token after, rest = token :: after ∧ token.kind = kind
  · obtain ⟨token, after, rfl, rfl⟩ := hkind
    refine ⟨[token], after, .read token rules, rfl, ?_⟩
    intro others _
    exact demand_eq_ok_iff.mpr ⟨_, matchKind?_between_cons before others token, rfl⟩
  · refine ⟨[], rest, .rejected (.expected kind) rules, rfl, ?_⟩
    intro others hhead
    have hnone : (between before others).matchKind? kind = none := by
      rw [matchKind?_between_eq_none_iff]
      rintro token after rfl htoken
      obtain ⟨after, rfl⟩ := List.head?_eq_some_iff.mp hhead.symm
      exact hkind ⟨token, after, rfl, htoken⟩
    rw [List.append_nil]
    exact demand_eq_error_iff.mpr ⟨hnone, rfl⟩

theorem looksAhead_consumeWord (word : String) : LooksAhead (consumeWord word) := by
  intro before rest rules
  by_cases hword : rest.head? = some ⟨.word, word⟩
  · obtain ⟨after, rfl⟩ := List.head?_eq_some_iff.mp hword
    refine ⟨[⟨.word, word⟩], after, .read ⟨.word, word⟩ rules, rfl, ?_⟩
    intro others _
    exact demand_eq_ok_iff.mpr ⟨_, matchWord?_between_cons before others word, rfl⟩
  · refine ⟨[], rest, .rejected (.expectedWord word) rules, rfl, ?_⟩
    intro others hhead
    have hnone : (between before others).matchWord? word = none := by
      rwa [matchWord?_between_eq_none_iff, hhead]
    rw [List.append_nil]
    exact demand_eq_error_iff.mpr ⟨hnone, rfl⟩

theorem exists_endExpression_eq (progress : Progress) (rules : RuleStack) :
    ∃ outcome : Outcome Expression, ∀ place, endExpression progress rules place =
      outcome.stopAt place := by
  cases hfinish : progress.finish with
  | error cause =>
    refine ⟨.rejected cause (progress.rulesAtEnd rules), ?_⟩
    intro place
    rw [endExpression, hfinish]
    rfl
  | ok e =>
    refine ⟨.read e (progress.rulesAtEnd rules), ?_⟩
    intro place
    rw [endExpression, hfinish]
    rfl

theorem exists_continueExpression_eq (progress : Progress) (rules : RuleStack)
    (behind ahead : List Token) :
    ∃ own after outcome, ahead = own ++ after ∧ ∀ others : List Token,
      others.head? = after.head? →
        continueExpression progress rules behind (own ++ others) =
          Outcome.stopAt ⟨own.reverse ++ behind, others⟩ outcome := by
  induction ahead generalizing progress rules behind with
  | nil =>
    obtain ⟨outcome, hend⟩ := exists_endExpression_eq progress rules
    refine ⟨[], [], outcome, rfl, ?_⟩
    intro others hhead
    obtain rfl : others = [] := List.head?_eq_none_iff.mp hhead
    exact hend ⟨behind, []⟩
  | cons token ahead ih =>
    cases hnext : progress.next rules token with
    | error cause =>
      refine ⟨[], token :: ahead, .rejected cause rules, rfl, ?_⟩
      intro others hhead
      obtain ⟨rest, rfl⟩ := List.head?_eq_some_iff.mp hhead
      rw [List.nil_append, continueExpression, hnext]
      rfl
    | ok found =>
      cases found with
      | none =>
        obtain ⟨outcome, hend⟩ := exists_endExpression_eq progress rules
        refine ⟨[], token :: ahead, outcome, rfl, ?_⟩
        intro others hhead
        obtain ⟨rest, rfl⟩ := List.head?_eq_some_iff.mp hhead
        rw [List.nil_append, continueExpression, hnext]
        exact hend ⟨behind, token :: rest⟩
      | some found =>
        obtain ⟨next, rulesNext⟩ := found
        obtain ⟨own, after, outcome, rfl, hread⟩ := ih next rulesNext (token :: behind)
        refine ⟨token :: own, after, outcome, rfl, ?_⟩
        intro others hhead
        rw [List.cons_append, continueExpression_cons _ _ hnext, hread others hhead,
          List.reverse_cons, List.append_assoc]
        rfl

theorem looksAhead_readExpression : LooksAhead readExpression := by
  intro before rest rules
  obtain ⟨own, after, outcome, hrest, hread⟩ :=
    exists_continueExpression_eq {} ((rules.push .expression).push .atomic) before.reverse rest
  refine ⟨own, after, outcome, hrest, ?_⟩
  intro others hhead
  rw [between_append]
  exact hread others hhead

theorem looksAhead_readEnding (e : Expression) (form : Form) : LooksAhead (readEnding e form) := by
  cases form with
  | assignment | print => exact looksAhead_pure _
  | conditional =>
    apply (looksAhead_consumeWord "then").bind
    intro _
    apply (looksAhead_consume .word).bind
    exact fun label => looksAhead_pure _

theorem looksAhead_readForm (form : Form) : LooksAhead (readForm form) := by
  apply LooksAhead.following
  apply looksAhead_readExpression.bind
  exact fun e => looksAhead_readEnding e form

/-! ## Items -/

theorem TellsForm.congr_head? (htells : TellsForm form head after)
    (hhead : others.head? = after.head?) : TellsForm form head others := by
  cases htells with
  | assignment name text => exact .assignment name text others
  | print hnext => exact .print (by rwa [hhead])
  | conditional hnext => exact .conditional (by rwa [hhead])

/-- What follows the first word of a statement tells that it is no label. -/
theorem TellsForm.label?_congr_head? (htells : TellsForm form head after)
    (hlabel : label? (between before (head ++ after)) = none)
    (hhead : others.head? = after.head?) : label? (between before (head ++ others)) = none := by
  rw [label?_between_eq_none_iff] at hlabel ⊢
  rintro ⟨hline, name, rest, heq, hend⟩
  apply hlabel
  cases htells with
  | assignment =>
    cases heq
    simp [EndsLine] at hend
  | print | conditional =>
    cases heq
    exact ⟨hline, _, after, rfl, by rwa [EndsLine, ← hhead]⟩

/-- An item is read up to some tokens and comes to the same in front of all others that start with
the same token. -/
def ItemStopsBefore (rules : RuleStack) (before own after : List Token)
    (outcome : Outcome Item) : Prop :=
  ∀ others : List Token, others.head? = after.head? →
    readItem ⟨between before (own ++ others), rules⟩ =
      (outcome.stopAt (between (before ++ own) others)).map (Prod.map some id)

/-- A statement whose form has been told looks at one token more than it passes over. -/
theorem TellsForm.exists_itemStopsBefore (htells : TellsForm form head after)
    (hlabel : label? (between before (head ++ after)) = none) (rules : RuleStack) :
    ∃ own rest outcome, head ++ after = own ++ rest ∧
      ItemStopsBefore rules before own rest outcome := by
  obtain ⟨own, rest, outcome, rfl, hread⟩ :=
    looksAhead_readForm form (before ++ head) after (rules.push .statement)
  have hitem : ∀ others : List Token, others.head? = rest.head? →
      Reading.readItem ⟨between before (head ++ (own ++ others)), rules⟩ =
        (outcome.stopAt (between (before ++ head ++ own) others)).map
          (Prod.map (fun statement => some (.statement statement)) State.leave) := by
    intro others hhead
    have hnext := head?_append_congr hhead own
    rw [(htells.congr_head? hnext).readItem (htells.label?_congr_head? hlabel hnext),
      hread others hhead]
  cases outcome with
  | rejected cause inner =>
    refine ⟨head ++ own, rest, .rejected cause inner, (List.append_assoc head own rest).symm, ?_⟩
    intro others hhead
    rw [List.append_assoc, hitem others hhead, List.append_assoc]
    rfl
  | read statement inner =>
    refine ⟨head ++ own, rest, .read (.statement statement) inner.pop,
      (List.append_assoc head own rest).symm, ?_⟩
    intro others hhead
    rw [List.append_assoc, hitem others hhead, List.append_assoc]
    rfl

/-- Reading an item that starts looks at one token more than it passes over. -/
theorem StartsItem.exists_itemStopsBefore (hstarts : StartsItem before rest) (rules : RuleStack) :
    ∃ own after outcome, rest = own ++ after ∧ ItemStopsBefore rules before own after outcome := by
  by_cases hbreak : ∃ text after, rest = ⟨.lineBreak, text⟩ :: after
  · obtain ⟨text, after, rfl⟩ := hbreak
    refine ⟨[⟨.lineBreak, text⟩], after, .read .lineBreak rules, rfl, ?_⟩
    intro others _
    exact readItem_of_lineBreak (matchKind?_between_cons before others ⟨.lineBreak, text⟩)
  cases hlabel : label? (between before rest) with
  | some found =>
    obtain ⟨name, place⟩ := found
    obtain ⟨hline, after, rfl, hend, -⟩ := label?_between_eq_some_iff.mp hlabel
    refine ⟨[⟨.word, name⟩], after, .read (.label name) rules, rfl, ?_⟩
    intro others hhead
    apply readItem_of_label?
    · exact matchKind?_between_eq_none_iff.mpr (by simp)
    · exact label?_between_eq_some_iff.mpr
        ⟨hline, others, rfl, by rwa [EndsLine, hhead], rfl⟩
  | none =>
    have hstatement : StartsStatement rest := by
      obtain hstarts | hstarts | hstarts := hstarts
      · exact absurd hstarts hbreak
      · exact absurd hstarts (label?_between_eq_none_iff.mp hlabel)
      · exact hstarts
    obtain ⟨⟨form, place⟩, hform⟩ : ∃ found, form? (between before rest) = some found := by
      rw [← Option.ne_none_iff_exists']
      exact fun hnone => form?_between_eq_none_iff.mp hnone hstatement
    obtain ⟨head, after, rfl, -, htells⟩ := form?_between_eq_some_iff.mp hform
    exact htells.exists_itemStopsBefore hlabel rules

/-! ## Programs -/

/-- The tokens up to the one in front of which a program is rejected tell that it is. -/
theorem exists_readItems_eq_error {program : Program} {rejection : Rejection}
    (hread : readItems program ⟨between before rest, rules⟩ = .error rejection) :
    ∃ own after, rest = own ++ after ∧ rejection.place = between (before ++ own) after ∧
      ∀ others : List Token, others.head? = after.head? →
        readItems program ⟨between before (own ++ others), rules⟩ =
          .error { rejection with place := between (before ++ own) others } := by
  generalize hstate : (⟨between before rest, rules⟩ : State) = state at hread
  induction state using item_induction generalizing before rest rules program with
  | step state ih =>
    subst hstate
    by_cases hstarts : StartsItem before rest
    · obtain ⟨head, rest, outcome, rfl, hitem⟩ := hstarts.exists_itemStopsBefore rules
      have hhere := hitem rest rfl
      cases outcome with
      | rejected cause inner =>
        rw [readItems_of_eq_error hhere] at hread
        cases hread
        refine ⟨head, rest, rfl, rfl, ?_⟩
        intro others hhead
        exact readItems_of_eq_error (hitem others hhead)
      | read item inner =>
        rw [readItems_of_eq_some hhere] at hread
        obtain ⟨own, after, rfl, hplace, hown⟩ := ih item _ hhere rfl hread
        refine ⟨head ++ own, after, (List.append_assoc head own after).symm, ?_, ?_⟩
        · rw [hplace, List.append_assoc]
        · intro others hhead
          -- the item in front is read as before, since its next token is one of its own or the same
          rw [List.append_assoc, readItems_of_eq_some (hitem _ (head?_append_congr hhead own)),
            id, hown others hhead, List.append_assoc]
    · rw [readItems_of_not_startsItem hstarts] at hread
      cases hread

/-- Reading item by item comes from a state to another, where no item starts. -/
inductive ReadsUpTo : State → State → Prop where
  | stop {state after : State} (hread : readItem state = .ok (none, after)) :
      ReadsUpTo state after
  | item {state next stop : State} {item : Item} (hread : readItem state = .ok (some item, next))
      (hrest : ReadsUpTo next stop) : ReadsUpTo state stop

theorem ReadsUpTo.unique {state stop other : State} (hreads : ReadsUpTo state stop)
    (hother : ReadsUpTo state other) : stop = other := by
  induction hreads with
  | stop hread =>
    cases hother with
    | stop hnone =>
      rw [hread] at hnone
      cases hnone
      rfl
    | item hitem => simp [hread] at hitem
  | item hread hrest ih =>
    cases hother with
    | stop hnone => simp [hread] at hnone
    | item hitem hothers =>
      rw [hread] at hitem
      cases hitem
      exact ih hothers

theorem SpellsItems.readsUpTo (hitems : SpellsItems before items tokens after)
    (hstops : ¬ StartsItem (before ++ tokens) after) :
    ReadsUpTo ⟨between before (tokens ++ after), outset⟩
      ⟨between (before ++ tokens) after, outset⟩ := by
  induction hitems with
  | nil before after =>
    rw [List.append_nil] at hstops ⊢
    exact .stop (readItem_of_not_startsItem hstops outset)
  | cons hitem hitems ih =>
    rw [← List.append_assoc] at hstops ⊢
    rw [List.append_assoc]
    exact .item hitem.readItem (ih hstops)

/-- Two tokens tell whether an item starts. -/
theorem startsItem_take_iff : StartsItem before (rest.take 2) ↔ StartsItem before rest := by
  match rest with
  | [] | [_] => rfl
  | first :: second :: rest =>
    simp [StartsItem, StartsStatement, EndsLine]

/-- Items may stand at the end of the input. -/
theorem SpellsItems.atEnd (hitems : SpellsItems before items tokens after) :
    SpellsItems before items tokens [] := by
  apply hitems.congr
  · intro own hend
    cases own with
    | nil => exact endsExpression_nil
    | cons token own => exact hend
  · intro own hend
    cases own with
    | nil => exact endsLine_nil
    | cons token own => exact hend

/-- What agrees on a number of tokens behind the first ones has those first ones in front. -/
theorem exists_eq_append_of_take_prefix {count : ℕ} (hcount : count ≤ after.length)
    (hagree : (front ++ after).take (front.length + count) <+: others) :
    ∃ behind, others = front ++ behind ∧ behind.take count = after.take count := by
  rw [List.take_length_add_append] at hagree
  obtain ⟨more, rfl⟩ := hagree
  refine ⟨after.take count ++ more, List.append_assoc front (after.take count) more, ?_⟩
  rw [List.take_left' (List.length_take_of_le hcount)]

theorem head?_eq_of_take_eq {count : ℕ} (htake : rest.take (count + 1) = after.take (count + 1)) :
    rest.head? = after.head? := by
  have hheads := congrArg List.head? htake
  simpa only [List.head?_take, Nat.succ_ne_zero, if_false] using hheads

/-- A rejection in front of a token rests on the tokens up to it. -/
theorem exists_ofTokens_eq_error_of_take {rejection : Rejection}
    (hread : Program.ofTokens tokens = .error rejection)
    (hlt : rejection.place.position < tokens.length)
    (hagree : tokens.take (rejection.place.position + 1) <+: others) :
    ∃ found, Program.ofTokens others = .error found ∧ found.Agrees rejection := by
  obtain ⟨own, after, rfl, hplace, hown⟩ :=
    exists_readItems_eq_error (ofTokens_eq_error_iff.mp hread)
  have hposition : rejection.place.position = own.length := by
    rw [hplace, position_between, List.nil_append]
  have hpos : 1 ≤ after.length := by
    rw [hposition, List.length_append] at hlt
    omega
  rw [hposition] at hagree
  obtain ⟨behind, rfl, htake⟩ := exists_eq_append_of_take_prefix hpos hagree
  have hhead := head?_eq_of_take_eq htake
  refine ⟨_, ofTokens_eq_error_iff.mpr (hown behind hhead), rfl, rfl, ?_, ?_⟩
  · rw [Rejection.token, Rejection.token, hplace, current, current, ahead_between, ahead_between,
      hhead]
  · rw [hplace, position_between, position_between]

/-- A list of tokens that is rejected in front of a token of its own is rejected in the same way
with any other tokens behind that one.  One that is read as a program up to a place in front of a
token is read as the same program without the tokens from that place on, and with any other tokens
behind the first two of them. -/
theorem ofTokens_looks_one_ahead (tokens : List Token) :
    (∀ rejection, Program.ofTokens tokens = .error rejection →
      rejection.place.position < tokens.length →
        ∀ others, tokens.take (rejection.place.position + 1) <+: others →
          ∃ found, Program.ofTokens others = .error found ∧ found.Agrees rejection) ∧
      ∀ program, Program.ofTokens tokens = .ok program →
        (∃! stop, ReadsUpTo ⟨ofList tokens, outset⟩ stop) ∧
          ∀ stop, ReadsUpTo ⟨ofList tokens, outset⟩ stop →
            stop.cursor.position < tokens.length →
              Program.ofTokens (tokens.take stop.cursor.position) = .ok program ∧
                (stop.cursor.position + 2 ≤ tokens.length →
                  ∀ others, tokens.take (stop.cursor.position + 2) <+: others →
                    Program.ofTokens others = .ok program) := by
  refine ⟨fun rejection hread hlt others hagree =>
    exists_ofTokens_eq_error_of_take hread hlt hagree, ?_⟩
  intro program hread
  obtain ⟨items, front, after, rfl, hitems, hstops, rfl⟩ := exists_spellsItems_of_ofTokens hread
  have hreads : ReadsUpTo ⟨ofList (front ++ after), outset⟩ ⟨between front after, outset⟩ :=
    hitems.readsUpTo hstops
  refine ⟨⟨_, hreads, fun other hother => hother.unique hreads⟩, ?_⟩
  intro stop hstop _
  obtain rfl := hreads.unique hstop
  rw [position_between, List.take_left]
  constructor
  · have hcut := hitems.atEnd.ofTokens_eq_ok (not_startsItem_nil front)
    rwa [List.append_nil] at hcut
  · intro hle others hagree
    rw [List.length_append] at hle
    have htwo : 2 ≤ after.length := by omega
    obtain ⟨behind, rfl, htake⟩ := exists_eq_append_of_take_prefix htwo hagree
    apply (hitems.congr_head? (head?_eq_of_take_eq htake).symm).ofTokens_eq_ok
    rw [← startsItem_take_iff, htake, startsItem_take_iff]
    exact hstops

/-- An unknown operator in front of a number or of a parenthesis, and a word behind a statement in
front of another word. -/
theorem ofTokens_looks_one_ahead_trailing_word :
    let print : List Token := [⟨.word, "print"⟩, ⟨.word, "x"⟩]
    let printed : Program := ({} : Program).push (.print (.var "x"))
    (∃ found, Program.ofTokens (print ++ [⟨.operator, "%"⟩, ⟨.rightParen, ")"⟩]) = .error found ∧
        found.cause = .unknownOperator "%" ∧ found.place.position = 2) ∧
      Program.ofTokens print = .ok printed ∧
      Program.ofTokens (print ++ [⟨.word, "loop"⟩, ⟨.word, "y"⟩, ⟨.lineBreak, "\n"⟩]) =
        .ok printed := by
  intro print printed
  have hrejected : Program.ofTokens (print ++ [⟨.operator, "%"⟩, ⟨.number, "1"⟩]) =
      .error ⟨.unknownOperator "%", ⟨[.expression, .print, .statement, .program]⟩,
        between print [⟨.operator, "%"⟩, ⟨.number, "1"⟩]⟩ := by
    cbv
  have hvalue : SpellsExpression 0 (.var "x") [⟨.word, "x"⟩] := .intro (.var 0 "x") (.nil 0)
  have hend : EndsExpression [⟨.word, "loop"⟩, ⟨.word, "y"⟩, ⟨.equals, "="⟩] := by
    simp [EndsExpression, IsOperatorKind]
  have hspells : SpellsItems [] [.statement (.print (.var "x"))] print
      [⟨.word, "loop"⟩, ⟨.word, "y"⟩, ⟨.equals, "="⟩] :=
    .cons (.statement (.print hvalue hend)) (.nil print _)
  have hstops : ¬ StartsItem print [⟨.word, "loop"⟩, ⟨.word, "y"⟩, ⟨.equals, "="⟩] := by
    simp [StartsItem, StartsStatement, EndsLine]
  have hread := hspells.ofTokens_eq_ok hstops
  have hreads := hspells.readsUpTo hstops
  obtain ⟨found, hfound, hagrees⟩ := (ofTokens_looks_one_ahead _).1 _ hrejected (by decide)
    (print ++ [⟨.operator, "%"⟩, ⟨.rightParen, ")"⟩]) ⟨[⟨.rightParen, ")"⟩], rfl⟩
  obtain ⟨hcut, hothers⟩ := ((ofTokens_looks_one_ahead _).2 _ hread).2 _ hreads (by decide)
  exact ⟨⟨found, hfound, hagrees.cause, hagrees.position⟩, hcut,
    hothers (by decide) _ ⟨[⟨.lineBreak, "\n"⟩], rfl⟩⟩

end Grammar

end LineBasic
