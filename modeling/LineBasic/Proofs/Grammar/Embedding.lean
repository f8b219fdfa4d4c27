import LineBasic.Proofs.Grammar.Program

/-!
# Reading inside a longer list of tokens

Tokens in front of a list do not matter to how it is read if they end with a line break: only the
start of a line is ever looked for behind a cursor.  Tokens behind it do not matter before they are
reached if they start with a line break, which is taken as the end of the input is: neither
continues an expression, both stand behind a label, and neither is a word.  So reading is the same
token by token, and what is rejected is rejected at the same place, inside the same rules.
-/

namespace LineBasic

/-- The cursor in a longer list of tokens, with further ones in front and behind. -/
def Cursor.embed (before after : List Token) (cursor : Cursor) : Cursor :=
  ⟨cursor.behind ++ before.reverse, cursor.ahead ++ after⟩

/-- The rejection in a longer list of tokens. -/
def Rejection.embed (before after : List Token) (rejection : Rejection) : Rejection :=
  { rejection with place := rejection.place.embed before after }

namespace Grammar

open Reading Cursor

variable {α β : Type} {before after : List Token} {cursor : Cursor} {token : Token}

/-- What has been found, in a longer list of tokens. -/
def embedFound (before after : List Token) (found : Option (α × Cursor)) : Option (α × Cursor) :=
  found.map (Prod.map id (embed before after))

/-- How far a list has been read, in a longer list of tokens. -/
def embedState (before after : List Token) (state : State) : State :=
  ⟨state.cursor.embed before after, state.rules⟩

/-- A result of reading, in a longer list of tokens. -/
def embedResult (before after : List Token) :
    Except Rejection (α × State) → Except Rejection (α × State)
  | .ok (value, state) => .ok (value, embedState before after state)
  | .error rejection => .error (rejection.embed before after)

/-- Reading is the same in a longer list of tokens. -/
def Embeds (before after : List Token) (reader : Reader α) : Prop :=
  ∀ state, reader (embedState before after state) = embedResult before after (reader state)

/-! ## Ends of lines -/

theorem endsLine_append_iff {rest : List Token} (hafter : EndsLine after) :
    EndsLine (rest ++ after) ↔ EndsLine rest := by
  cases rest with
  | nil => simpa [EndsLine] using hafter
  | cons token rest => rfl

theorem startsLine_append_iff {front : List Token} (hbefore : StartsLine before) :
    StartsLine (before ++ front) ↔ StartsLine front := by
  obtain rfl | ⟨front, last, rfl⟩ := front.eq_nil_or_concat
  · simpa [StartsLine] using hbefore
  · simp [StartsLine]

/-- What stands right behind a line is nothing that a statement is made of. -/
theorem EndsLine.kind_ne (hafter : EndsLine after) (hmem : token ∈ after.head?)
    {kind : Token.Kind} (hbreak : kind ≠ .lineBreak) (hinput : kind ≠ .endOfInput) :
    token.kind ≠ kind := by
  rintro rfl
  exact (hafter token hmem).elim hbreak hinput

/-! ## Cursors -/

theorem embed_between (front rest : List Token) :
    (between front rest).embed before after = between (before ++ front) (rest ++ after) := by
  simp [between, embed]

theorem matchKind?_embed {kind : Token.Kind}
    (hkind : cursor.ahead = [] → ∀ token ∈ after.head?, token.kind ≠ kind) :
    (cursor.embed before after).matchKind? kind =
      embedFound before after (cursor.matchKind? kind) := by
  obtain ⟨behind, ahead⟩ := cursor
  cases ahead with
  | nil =>
    cases after with
    | nil => rfl
    | cons token after => simp [embed, matchKind?, embedFound, hkind rfl token rfl]
  | cons next ahead =>
    by_cases hnext : next.kind = kind <;>
      simp [embed, matchKind?, embedFound, advance, hnext]

theorem matchWord?_embed (hafter : EndsLine after) (word : String) :
    (cursor.embed before after).matchWord? word =
      embedFound before after (cursor.matchWord? word) := by
  obtain ⟨behind, ahead⟩ := cursor
  cases ahead with
  | nil =>
    cases after with
    | nil => rfl
    | cons token after =>
      have hword : token.kind ≠ .word := hafter.kind_ne rfl (by decide) (by decide)
      simp [embed, matchWord?, embedFound, hword]
  | cons next ahead =>
    by_cases hnext : next.kind = .word ∧ next.text = word <;>
      simp [embed, matchWord?, embedFound, advance, hnext]

theorem matchKinds?_embed (hafter : EndsLine after) :
    (cursor.embed before after).matchKinds? .word .equals =
      embedFound before after (cursor.matchKinds? .word .equals) := by
  obtain ⟨behind, ahead⟩ := cursor
  rcases ahead with _ | ⟨one, _ | ⟨two, ahead⟩⟩
  · rcases after with _ | ⟨token, _ | ⟨next, after⟩⟩
    · rfl
    · rfl
    · have hword : token.kind ≠ .word := hafter.kind_ne rfl (by decide) (by decide)
      simp [embed, matchKinds?, embedFound, hword]
  · cases after with
    | nil => rfl
    | cons token after =>
      have hequals : token.kind ≠ .equals := hafter.kind_ne rfl (by decide) (by decide)
      simp [embed, matchKinds?, embedFound, hequals]
  · by_cases hkinds : one.kind = .word ∧ two.kind = .equals <;>
      simp [embed, matchKinds?, embedFound, advance, hkinds]

/-! ## Readers -/

theorem embeds_pure (value : α) : Embeds before after (pure value) :=
  fun _ => rfl

theorem Embeds.bind {reader : Reader α} {next : α → Reader β}
    (hreader : Embeds before after reader) (hnext : ∀ value, Embeds before after (next value)) :
    Embeds before after (reader >>= next) := by
  intro state
  cases hread : reader state with
  | error rejection =>
    have hembedded : reader (embedState before after state) =
        .error (rejection.embed before after) := by
      rw [hreader, hread]
      rfl
    rw [bind_eq_error_iff.mpr (.inl hembedded), bind_eq_error_iff.mpr (.inl hread)]
    rfl
  | ok found =>
    obtain ⟨value, inner⟩ := found
    have hembedded : reader (embedState before after state) =
        .ok (value, embedState before after inner) := by
      rw [hreader, hread]
      rfl
    rw [bind_of_eq_ok hembedded, bind_of_eq_ok hread]
    exact hnext value inner

theorem Embeds.following {reader : Reader α} (hreader : Embeds before after reader) (rule : Rule) :
    Embeds before after (following rule reader) := by
  intro state
  have henter : State.enter (embedState before after state) rule =
      embedState before after (state.enter rule) := rfl
  rw [following_apply, following_apply, henter, hreader]
  cases reader (state.enter rule) <;> rfl

section Find

variable {find? : Cursor → Option (α × Cursor)}
variable (hfind : ∀ cursor : Cursor,
  find? (cursor.embed before after) = embedFound before after (find? cursor))

include hfind

theorem embeds_accept? : Embeds before after (accept? find?) := by
  rintro ⟨cursor, rules⟩
  have hembedded : find? (embedState before after ⟨cursor, rules⟩).cursor =
      embedFound before after (find? cursor) := hfind cursor
  simp only [accept?, hembedded]
  cases find? cursor <;> rfl

theorem embeds_demand (cause : Cause) : Embeds before after (demand cause find?) := by
  rintro ⟨cursor, rules⟩
  have hembedded : find? (embedState before after ⟨cursor, rules⟩).cursor =
      embedFound before after (find? cursor) := hfind cursor
  simp only [demand, hembedded]
  cases find? cursor <;> rfl

end Find

/-! ## Expressions -/

theorem next_eq_none_of_endsLine (progress : Progress) (rules : RuleStack)
    (hafter : EndsLine after) (hmem : token ∈ after.head?) :
    progress.next rules token = .ok none := by
  obtain ⟨opened, awaiting⟩ := progress
  obtain ⟨kind, text⟩ := token
  obtain rfl | rfl : kind = .lineBreak ∨ kind = .endOfInput := hafter _ hmem
  all_goals
    cases awaiting with
    | operand left => rfl
    | operator chain => cases opened <;> rfl

theorem endExpression_embed (progress : Progress) (rules : RuleStack) (place : Cursor) :
    endExpression progress rules (place.embed before after) =
      embedResult before after (endExpression progress rules place) := by
  rw [endExpression, endExpression]
  cases progress.finish <;> rfl

theorem continueExpression_embed (progress : Progress) (rules : RuleStack)
    (behind ahead : List Token) (hafter : EndsLine after) :
    continueExpression progress rules (behind ++ before.reverse) (ahead ++ after) =
      embedResult before after (continueExpression progress rules behind ahead) := by
  induction ahead generalizing progress rules behind with
  | nil =>
    cases after with
    | nil => exact endExpression_embed progress rules ⟨behind, []⟩
    | cons token after =>
      simp only [List.nil_append, continueExpression,
        next_eq_none_of_endsLine progress rules hafter rfl]
      exact endExpression_embed progress rules ⟨behind, []⟩
  | cons next ahead ih =>
    rw [List.cons_append, continueExpression, continueExpression]
    cases progress.next rules next with
    | error cause => rfl
    | ok found =>
      cases found with
      | none => exact endExpression_embed progress rules ⟨behind, next :: ahead⟩
      | some found => exact ih found.1 found.2 (next :: behind)

theorem embeds_readExpression (hafter : EndsLine after) : Embeds before after readExpression :=
  fun _ => continueExpression_embed {} _ _ _ hafter

/-! ## Items -/

theorem embeds_readEnding (e : Expression) (form : Form) (hafter : EndsLine after) :
    Embeds before after (readEnding e form) := by
  cases form with
  | assignment | print => exact embeds_pure _
  | conditional =>
    apply (embeds_demand (fun cursor => matchWord?_embed hafter "then") _).bind
    intro _
    refine (embeds_demand (fun cursor => matchKind?_embed fun _ token hmem => ?_) _).bind ?_
    · exact hafter.kind_ne hmem (by decide) (by decide)
    · exact fun label => embeds_pure _

theorem form?_embed (cursor : Cursor) (hafter : EndsLine after) :
    form? (cursor.embed before after) = embedFound before after (form? cursor) := by
  simp only [form?, matchKinds?_embed hafter, matchWord?_embed hafter]
  cases cursor.matchKinds? .word .equals with
  | some found => rfl
  | none =>
    cases cursor.matchWord? "print" with
    | some found => rfl
    | none => cases cursor.matchWord? "if" <;> rfl

theorem embeds_readStatement (hafter : EndsLine after) : Embeds before after readStatement := by
  apply Embeds.following
  apply (embeds_accept? fun cursor => form?_embed cursor hafter).bind
  rintro (_ | form)
  · exact embeds_pure none
  · apply Embeds.bind
    · apply Embeds.following
      exact (embeds_readExpression hafter).bind fun e => embeds_readEnding e form hafter
    · exact fun statement => embeds_pure (some statement)

/-- A label stands where it stands in the shorter list. -/
theorem label?_embed (cursor : Cursor) (hbefore : StartsLine before) (hafter : EndsLine after) :
    label? (cursor.embed before after) = embedFound before after (label? cursor) := by
  obtain ⟨behind, ahead⟩ := cursor
  obtain ⟨front, rfl⟩ : ∃ front, behind = front.reverse := ⟨behind.reverse, by simp⟩
  have hembed : (⟨front.reverse, ahead⟩ : Cursor).embed before after = _ :=
    embed_between front ahead
  have hbetween : (⟨front.reverse, ahead⟩ : Cursor) = between front ahead := rfl
  rw [hembed, hbetween]
  cases hlabel : label? (between front ahead) with
  | some found =>
    obtain ⟨name, place⟩ := found
    obtain ⟨hstart, rest, rfl, hend, rfl⟩ := label?_between_eq_some_iff.mp hlabel
    refine label?_between_eq_some_iff.mpr ⟨(startsLine_append_iff hbefore).mpr hstart,
      rest ++ after, rfl, (endsLine_append_iff hafter).mpr hend, ?_⟩
    rw [id, embed_between, List.append_assoc]
  | none =>
    rw [label?_between_eq_none_iff] at hlabel
    refine label?_between_eq_none_iff.mpr fun ⟨hstart, name, rest, heq, hend⟩ => ?_
    cases ahead with
    | nil =>
      obtain rfl : after = ⟨.word, name⟩ :: rest := heq
      exact hafter.kind_ne rfl (by simp) (by simp) rfl
    | cons token ahead =>
      cases heq
      exact hlabel ⟨(startsLine_append_iff hbefore).mp hstart, name, ahead, rfl,
        (endsLine_append_iff hafter).mp hend⟩

/-- An item is the same in a longer list of tokens. -/
theorem readItem_embed (hbefore : StartsLine before) (hafter : EndsLine after)
    (hahead : cursor.ahead ≠ []) (rules : RuleStack) :
    readItem (embedState before after ⟨cursor, rules⟩) =
      embedResult before after (readItem ⟨cursor, rules⟩) := by
  have hbreak : (cursor.embed before after).matchKind? .lineBreak =
      embedFound before after (cursor.matchKind? .lineBreak) :=
    matchKind?_embed fun hnil => absurd hnil hahead
  have hlabel := label?_embed cursor hbefore hafter
  have hembed : embedState before after ⟨cursor, rules⟩ = ⟨cursor.embed before after, rules⟩ := rfl
  cases hmatch : cursor.matchKind? .lineBreak with
  | some found =>
    rw [hmatch] at hbreak
    rw [hembed, readItem_of_lineBreak hbreak, readItem_of_lineBreak hmatch]
    rfl
  | none =>
    rw [hmatch] at hbreak
    cases hname : label? cursor with
    | some found =>
      rw [hname] at hlabel
      rw [hembed, readItem_of_label? hbreak hlabel, readItem_of_label? hmatch hname]
      rfl
    | none =>
      rw [hname] at hlabel
      rw [hembed, readItem_of_not_label? hbreak hlabel, readItem_of_not_label? hmatch hname,
        ← hembed, embeds_readStatement hafter]
      cases readStatement ⟨cursor, rules⟩ <;> rfl

/-! ## Programs -/

/-- The program that a list spells, or its rejection, in a longer list of tokens.  The program is
extended by all that goes in front of it. -/
def embedProgram (before after : List Token) (extend : Program → Program) :
    Except Rejection Program → Except Rejection Program
  | .ok program => .ok (extend program)
  | .error rejection => .error (rejection.embed before after)

theorem readItems_atEnd (program : Program) (behind : List Token) (rules : RuleStack) :
    (readItems program ⟨⟨behind, []⟩, rules⟩).map Prod.fst = .ok program := by
  have hplace : (⟨behind, []⟩ : Cursor) = between behind.reverse [] := by simp [between]
  rw [hplace, readItems_of_not_startsItem (not_startsItem_nil behind.reverse)]
  rfl

/-- A list of tokens is read as it is read by itself, if nothing is read of the tokens behind it. -/
theorem readItems_embed {extend : Program → Program} (hbefore : StartsLine before)
    (hafter : EndsLine after)
    (hextend : ∀ program item, addItem (extend program) item = extend (addItem program item))
    (hnothing : ∀ program behind rules,
      (readItems program ⟨⟨behind, after⟩, rules⟩).map Prod.fst = .ok program)
    (program : Program) (state : State) :
    (readItems (extend program) (embedState before after state)).map Prod.fst =
      embedProgram before after extend ((readItems program state).map Prod.fst) := by
  induction state using item_induction generalizing program with
  | step state ih =>
    obtain ⟨cursor, rules⟩ := state
    by_cases hahead : cursor.ahead = []
    -- only here a line break behind the list is an item, which it is not at the end of the input
    · obtain ⟨behind, ahead⟩ := cursor
      obtain rfl : ahead = [] := hahead
      rw [readItems_atEnd]
      exact hnothing (extend program) (behind ++ before.reverse) rules
    · have hitem := readItem_embed hbefore hafter hahead rules
      rcases hread : readItem ⟨cursor, rules⟩ with rejection | ⟨_ | item, after⟩
      all_goals rw [hread] at hitem
      · rw [readItems_of_eq_error hread, readItems_of_eq_error hitem]
        rfl
      · rw [readItems_of_eq_none hread, readItems_of_eq_none hitem]
        rfl
      · rw [readItems_of_eq_some hread, readItems_of_eq_some hitem, hextend]
        exact ih item after hread (addItem program item)

end Grammar

end LineBasic
