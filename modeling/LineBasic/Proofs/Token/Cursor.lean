import LineBasic.Token.Cursor

/-!
# The view that a cursor gives of a list

A cursor stands between the tokens that have been consumed and those that are left.  An operation
leaves it in place or takes it over the next tokens, so whatever operations are performed, the
tokens behind the cursor are those that they have consumed, in their order and from the first token
of the list on.  What comes of an operation is settled by the list and the number of these tokens.

A place to peek at is a machine word, and beyond the largest word places start over at zero.  So a
cursor sees what is ahead of it as long as the place that it peeks at fits into a word, and beyond
that it sees a token that has been consumed.
-/

namespace LineBasic.Cursor

/-- The cursor between two lists of tokens. -/
def between (before after : List Token) : Cursor :=
  ⟨before.reverse, after⟩

@[simp]
theorem behind_between (before after : List Token) :
    (between before after).behind = before.reverse := rfl

@[simp]
theorem ahead_between (before after : List Token) : (between before after).ahead = after := rfl

@[simp]
theorem advance_between_nil (before : List Token) :
    (between before []).advance = between before [] := rfl

@[simp]
theorem advance_between_cons (before after : List Token) (token : Token) :
    (between before (token :: after)).advance = between (before ++ [token]) after := by
  simp [between, advance]

theorem between_append (before tokens after : List Token) :
    between (before ++ tokens) after = ⟨tokens.reverse ++ before.reverse, after⟩ := by
  simp [between]

theorem ofList_eq_between (tokens : List Token) : ofList tokens = between [] tokens := rfl

/-- Every cursor stands between what is behind it and what is ahead of it. -/
theorem eq_between (cursor : Cursor) : cursor = between cursor.behind.reverse cursor.ahead := by
  rw [between, List.reverse_reverse]

theorem tokens_between (before after : List Token) :
    (between before after).tokens = before ++ after := by
  simp [tokens, between]

theorem position_between (before after : List Token) :
    (between before after).position = before.length := by
  rw [position, behind_between, List.length_reverse]

theorem position_le_length (cursor : Cursor) : cursor.position ≤ cursor.tokens.length := by
  simp [position, tokens]

theorem current_between (before after : List Token) :
    (between before after).current = after.head?.getD Token.atEnd := rfl

theorem atLineStart_between_iff_getLast? (before rest : List Token) :
    (between before rest).atLineStart = true ↔
      before = [] ∨ ∃ token, before.getLast? = some token ∧ token.kind = .lineBreak := by
  cases hlast : before.getLast? with
  | none =>
    obtain rfl := List.getLast?_eq_none_iff.mp hlast
    exact ⟨fun _ => .inl rfl, fun _ => rfl⟩
  | some token =>
    obtain ⟨front, rfl⟩ := List.getLast?_eq_some_iff.mp hlast
    simp [between, atLineStart]

/-! ## Matches -/

variable {before rest : List Token} {place : Cursor}

theorem matchKind?_between_eq_some_iff {kind : Token.Kind} {token : Token} :
    (between before rest).matchKind? kind = some (token, place) ↔
      ∃ after, rest = token :: after ∧ token.kind = kind ∧
        place = between (before ++ [token]) after := by
  cases rest with
  | nil => simp [matchKind?]
  | cons found after =>
    simp only [matchKind?, ahead_between, advance_between_cons, Option.ite_none_right_eq_some,
      Option.some.injEq, Prod.mk.injEq, List.cons.injEq]
    constructor
    · rintro ⟨hkind, rfl, rfl⟩
      exact ⟨after, ⟨rfl, rfl⟩, hkind, rfl⟩
    · rintro ⟨_, ⟨rfl, rfl⟩, hkind, rfl⟩
      exact ⟨hkind, rfl, rfl⟩

theorem matchWord?_between_eq_some_iff {word : String} {token : Token} :
    (between before rest).matchWord? word = some (token, place) ↔
      ∃ after, token = ⟨.word, word⟩ ∧ rest = token :: after ∧
        place = between (before ++ [token]) after := by
  cases rest with
  | nil => simp [matchWord?]
  | cons found after =>
    simp only [matchWord?, ahead_between, advance_between_cons, Option.ite_none_right_eq_some,
      Option.some.injEq, Prod.mk.injEq, List.cons.injEq]
    constructor
    · rintro ⟨⟨hkind, htext⟩, rfl, rfl⟩
      exact ⟨after, by rw [← hkind, ← htext], ⟨rfl, rfl⟩, rfl⟩
    · rintro ⟨_, rfl, ⟨rfl, rfl⟩, rfl⟩
      exact ⟨⟨rfl, rfl⟩, rfl, rfl⟩

@[simp]
theorem matchKind?_between_cons (before after : List Token) (token : Token) :
    (between before (token :: after)).matchKind? token.kind =
      some (token, between (before ++ [token]) after) :=
  matchKind?_between_eq_some_iff.mpr ⟨after, rfl, rfl, rfl⟩

@[simp]
theorem matchWord?_between_cons (before after : List Token) (word : String) :
    (between before (⟨.word, word⟩ :: after)).matchWord? word =
      some (⟨.word, word⟩, between (before ++ [⟨.word, word⟩]) after) :=
  matchWord?_between_eq_some_iff.mpr ⟨after, rfl, rfl, rfl⟩

theorem matchKinds?_between_eq_some_iff {first second : Token.Kind} {one two : Token} :
    (between before rest).matchKinds? first second = some ((one, two), place) ↔
      ∃ after, rest = one :: two :: after ∧ one.kind = first ∧ two.kind = second ∧
        place = between (before ++ [one, two]) after := by
  match rest with
  | [] | [_] => simp [matchKinds?]
  | found :: other :: after =>
    simp only [matchKinds?, ahead_between, advance_between_cons, Option.ite_none_right_eq_some,
      Option.some.injEq, Prod.mk.injEq, List.cons.injEq, List.append_assoc, List.cons_append,
      List.nil_append]
    constructor
    · rintro ⟨⟨hfirst, hsecond⟩, ⟨rfl, rfl⟩, rfl⟩
      exact ⟨after, ⟨rfl, rfl, rfl⟩, hfirst, hsecond, rfl⟩
    · rintro ⟨_, ⟨rfl, rfl, rfl⟩, hfirst, hsecond, rfl⟩
      exact ⟨⟨hfirst, hsecond⟩, ⟨rfl, rfl⟩, rfl⟩

theorem matchKind?_between_eq_none_iff {kind : Token.Kind} :
    (between before rest).matchKind? kind = none ↔
      ∀ token after, rest = token :: after → token.kind ≠ kind := by
  simp only [Option.eq_none_iff_forall_ne_some, Prod.forall, ne_eq,
    matchKind?_between_eq_some_iff, not_exists, not_and]
  exact ⟨fun hnone token after hrest hkind => hnone token _ after hrest hkind rfl,
    fun hnone token _ after hrest hkind _ => hnone token after hrest hkind⟩

theorem matchWord?_between_eq_none_iff {word : String} :
    (between before rest).matchWord? word = none ↔ ¬ rest.head? = some ⟨.word, word⟩ := by
  simp only [Option.eq_none_iff_forall_ne_some, Prod.forall, ne_eq,
    matchWord?_between_eq_some_iff, not_exists, not_and]
  constructor
  · intro hnone hhead
    obtain ⟨after, rfl⟩ := List.head?_eq_some_iff.mp hhead
    exact hnone _ _ after rfl rfl rfl
  · rintro hhead _ _ after rfl rfl _
    exact hhead rfl

theorem matchKinds?_between_eq_none_iff {first second : Token.Kind} :
    (between before rest).matchKinds? first second = none ↔
      ∀ one two after, rest = one :: two :: after → one.kind = first → two.kind ≠ second := by
  simp only [Option.eq_none_iff_forall_ne_some, Prod.forall, ne_eq,
    matchKinds?_between_eq_some_iff, not_exists, not_and]
  exact ⟨fun hnone one two after hrest hone htwo => hnone one two _ after hrest hone htwo rfl,
    fun hnone one two _ after hrest hone htwo _ => hnone one two after hrest hone htwo⟩

/-! ## Operations -/

/-- What can be done with a cursor. -/
inductive Operation where
  | peek (distance : UInt64)
  | advance
  | askLineStart
  | matchKind (kind : Token.Kind)
  | matchKinds (first second : Token.Kind)
  | matchWord (word : String)
deriving DecidableEq, Repr, Inhabited

/-- The operation looks for certain tokens right ahead of the cursor. -/
def Operation.IsMatch : Operation → Prop
  | matchKind _ | matchKinds _ _ | matchWord _ => True
  | peek _ | advance | askLineStart => False

/-- The tokens are as many as a match looks for, and of the kinds and the text that it demands. -/
def Operation.Accepts : Operation → List Token → Prop
  | matchKind kind, [token] => token.kind = kind
  | matchKinds first second, [one, two] => one.kind = first ∧ two.kind = second
  | matchWord word, [token] => token.kind = .word ∧ token.text = word
  | _, _ => False

/-- What comes of an operation. -/
inductive Answer where
  /-- The token at a distance. -/
  | seen (token : Token)
  /-- The token that the cursor has been advanced over, if one was left. -/
  | passed (token : Option Token)
  /-- Whether the cursor is at the start of a line. -/
  | lineStart (holds : Bool)
  /-- The tokens that a match has returned. -/
  | found (taken : List Token)
  /-- A match has returned nothing. -/
  | missed
deriving DecidableEq, Repr, Inhabited

/-- The tokens that an operation has consumed. -/
def Answer.consumed : Answer → List Token
  | passed token => token.toList
  | found taken => taken
  | seen _ | lineStart _ | missed => []

/-- The tokens that a match returns, and the cursor behind them. -/
def find? (cursor : Cursor) : Operation → Option (List Token × Cursor)
  | .matchKind kind => (cursor.matchKind? kind).map fun (token, next) => ([token], next)
  | .matchKinds first second =>
    (cursor.matchKinds? first second).map fun ((one, two), next) => ([one, two], next)
  | .matchWord word => (cursor.matchWord? word).map fun (token, next) => ([token], next)
  | .peek _ | .advance | .askLineStart => none

/-- Performs an operation.  Where a match has returned nothing, the cursor to go on with is the one
that was there before. -/
def perform (cursor : Cursor) (operation : Operation) : Answer × Cursor :=
  match operation with
  | .peek distance => (.seen (cursor.peek distance), cursor)
  | .advance => (.passed cursor.ahead.head?, cursor.advance)
  | .askLineStart => (.lineStart cursor.atLineStart, cursor)
  | .matchKind _ | .matchKinds _ _ | .matchWord _ =>
    match cursor.find? operation with
    | some (taken, next) => (.found taken, next)
    | none => (.missed, cursor)

/-- The cursor to go on with when operations have been performed one after the other. -/
def performAll (cursor : Cursor) : List Operation → Cursor
  | [] => cursor
  | operation :: operations => (cursor.perform operation).2.performAll operations

/-- The tokens that operations consume one after the other. -/
def consumedBy (cursor : Cursor) : List Operation → List Token
  | [] => []
  | operation :: operations =>
    (cursor.perform operation).1.consumed ++ (cursor.perform operation).2.consumedBy operations

/-- What comes of an operation at a position of a list, and the position behind it. -/
inductive Answers (tokens : List Token) (position : Nat) : Operation → Answer → Nat → Prop where
  | seen (distance : UInt64) :
      Answers tokens position (.peek distance)
        (.seen (tokens[(position + distance.toNat) % UInt64.size]?.getD Token.atEnd)) position
  | passed {token : Token} (hnext : tokens[position]? = some token) :
      Answers tokens position .advance (.passed (some token)) (position + 1)
  | atEnd (hend : position = tokens.length) :
      Answers tokens position .advance (.passed none) position
  | lineStart {holds : Bool} (hholds : holds = true ↔
        position = 0 ∨ ∃ token, tokens[position - 1]? = some token ∧ token.kind = .lineBreak) :
      Answers tokens position .askLineStart (.lineStart holds) position
  | found {operation : Operation} {taken : List Token} (haccepts : operation.Accepts taken)
      (hnext : taken <+: tokens.drop position) :
      Answers tokens position operation (.found taken) (position + taken.length)
  | missed {operation : Operation} (hmatch : operation.IsMatch)
      (hnone : ∀ taken, taken <+: tokens.drop position → ¬ operation.Accepts taken) :
      Answers tokens position operation .missed position

/-- A cursor shows the place in a list behind the tokens that have been consumed. -/
structure Shows (cursor : Cursor) (tokens consumed : List Token) : Prop where
  tokens_eq : cursor.tokens = tokens
  position_le : cursor.position ≤ tokens.length
  consumed_eq : consumed = tokens.take cursor.position
  /-- There is a token right behind a cursor that is not at the start. -/
  index_lt : cursor.position ≠ 0 → cursor.position - 1 < tokens.length
  lineStart : cursor.atLineStart = true ↔
    consumed = [] ∨ ∃ token, consumed.getLast? = some token ∧ token.kind = .lineBreak
  answers : ∀ operation, Answers tokens cursor.position operation
    (cursor.perform operation).1 (cursor.perform operation).2.position
  /-- No match succeeds behind the last token. -/
  atEnd : cursor.position = tokens.length → ∀ operation taken,
    (cursor.perform operation).1 ≠ .found taken

/-! ## One operation -/

theorem Operation.Accepts.ne_nil {operation : Operation} {taken : List Token}
    (haccepts : operation.Accepts taken) : taken ≠ [] := by
  rintro rfl
  cases operation <;> exact haccepts

theorem find?_between_eq_some_iff {operation : Operation} {taken : List Token} :
    (between before rest).find? operation = some (taken, place) ↔
      operation.Accepts taken ∧ ∃ after, rest = taken ++ after ∧
        place = between (before ++ taken) after := by
  cases operation with
  | peek | advance | askLineStart => simp [find?, Operation.Accepts]
  | matchKind kind =>
    simp only [find?, Option.map_eq_some_iff, Prod.exists, matchKind?_between_eq_some_iff,
      Prod.mk.injEq]
    constructor
    · rintro ⟨token, next, ⟨after, rfl, hkind, rfl⟩, rfl, rfl⟩
      exact ⟨hkind, after, rfl, rfl⟩
    · rintro ⟨haccepts, after, rfl, rfl⟩
      match taken, haccepts with
      | [token], hkind => exact ⟨token, _, ⟨after, rfl, hkind, rfl⟩, rfl, rfl⟩
  | matchKinds first second =>
    simp only [find?, Option.map_eq_some_iff, Prod.exists, matchKinds?_between_eq_some_iff,
      Prod.mk.injEq]
    constructor
    · rintro ⟨one, two, next, ⟨after, rfl, hone, htwo, rfl⟩, rfl, rfl⟩
      exact ⟨⟨hone, htwo⟩, after, rfl, rfl⟩
    · rintro ⟨haccepts, after, rfl, rfl⟩
      match taken, haccepts with
      | [one, two], ⟨hone, htwo⟩ =>
        exact ⟨one, two, _, ⟨after, rfl, hone, htwo, rfl⟩, rfl, rfl⟩
  | matchWord word =>
    simp only [find?, Option.map_eq_some_iff, Prod.exists, matchWord?_between_eq_some_iff,
      Prod.mk.injEq]
    constructor
    · rintro ⟨token, next, ⟨after, rfl, rfl, rfl⟩, rfl, rfl⟩
      exact ⟨⟨rfl, rfl⟩, after, rfl, rfl⟩
    · rintro ⟨haccepts, after, rfl, rfl⟩
      match taken, haccepts with
      | [⟨_, _⟩], ⟨rfl, rfl⟩ => exact ⟨_, _, ⟨after, rfl, rfl, rfl⟩, rfl, rfl⟩

theorem perform_of_isMatch (cursor : Cursor) {operation : Operation} (hmatch : operation.IsMatch) :
    cursor.perform operation =
      match cursor.find? operation with
      | some (taken, next) => (.found taken, next)
      | none => (.missed, cursor) := by
  cases operation with
  | peek | advance | askLineStart => cases hmatch
  | matchKind | matchKinds | matchWord => rfl

/-- A match either returns the tokens that are next and goes behind them, or stays in place since
the next tokens are not those that it looks for. -/
theorem perform_between_of_isMatch (before rest : List Token) {operation : Operation}
    (hmatch : operation.IsMatch) :
    (∃ taken after, operation.Accepts taken ∧ rest = taken ++ after ∧
      (between before rest).perform operation = (.found taken, between (before ++ taken) after)) ∨
    (∀ taken, taken <+: rest → ¬ operation.Accepts taken) ∧
      (between before rest).perform operation = (.missed, between before rest) := by
  rw [perform_of_isMatch _ hmatch]
  cases hfind : (between before rest).find? operation with
  | some found =>
    obtain ⟨taken, next⟩ := found
    obtain ⟨haccepts, after, hrest, rfl⟩ := find?_between_eq_some_iff.mp hfind
    exact .inl ⟨taken, after, haccepts, hrest, rfl⟩
  | none =>
    refine .inr ⟨?_, rfl⟩
    rintro taken ⟨after, hrest⟩ haccepts
    have hsome : (between before rest).find? operation =
        some (taken, between (before ++ taken) after) :=
      find?_between_eq_some_iff.mpr ⟨haccepts, after, hrest.symm, rfl⟩
    rw [hfind] at hsome
    cases hsome

/-- An operation goes over the tokens that it consumes, and over no others. -/
theorem perform_between (before rest : List Token) (operation : Operation) :
    ∃ after, rest = ((between before rest).perform operation).1.consumed ++ after ∧
      ((between before rest).perform operation).2 =
        between (before ++ ((between before rest).perform operation).1.consumed) after := by
  by_cases hmatch : operation.IsMatch
  · obtain ⟨taken, after, -, hrest, hperform⟩ | ⟨-, hperform⟩ :=
      perform_between_of_isMatch before rest hmatch
    · rw [hperform]
      exact ⟨after, hrest, rfl⟩
    · rw [hperform]
      exact ⟨rest, rfl, by rw [Answer.consumed, List.append_nil]⟩
  · cases operation with
    | matchKind | matchKinds | matchWord => exact absurd trivial hmatch
    | peek | askLineStart => exact ⟨rest, rfl, by simp [perform, Answer.consumed]⟩
    | advance =>
      cases rest with
      | nil => exact ⟨[], rfl, by simp [perform, Answer.consumed]⟩
      | cons token after => exact ⟨after, rfl, advance_between_cons before after token⟩

theorem atLineStart_between_iff_getElem? (before rest : List Token) :
    (between before rest).atLineStart = true ↔ before.length = 0 ∨
      ∃ token, (before ++ rest)[before.length - 1]? = some token ∧ token.kind = .lineBreak := by
  rw [atLineStart_between_iff_getLast?, List.length_eq_zero_iff, List.getLast?_eq_getElem?]
  by_cases hbefore : before = []
  · simp [hbefore]
  · have hpos := List.length_pos_iff.mpr hbefore
    rw [List.getElem?_append_left (by omega)]

theorem peek_eq (cursor : Cursor) (distance : UInt64) :
    cursor.peek distance =
      cursor.tokens[(cursor.position + distance.toNat) % UInt64.size]?.getD Token.atEnd := by
  rw [peek, UInt64.toNat_add, UInt64.toNat_ofNat', Nat.mod_add_mod]

/-- What comes of an operation is told by the list and the position alone. -/
theorem answers_perform (before rest : List Token) (operation : Operation) :
    Answers (before ++ rest) before.length operation ((between before rest).perform operation).1
      ((between before rest).perform operation).2.position := by
  by_cases hmatch : operation.IsMatch
  · obtain ⟨taken, after, haccepts, rfl, hperform⟩ | ⟨hnone, hperform⟩ :=
      perform_between_of_isMatch before rest hmatch
    · rw [hperform, position_between, List.length_append]
      exact .found haccepts (by rw [List.drop_left]; exact List.prefix_append taken after)
    · rw [hperform, position_between]
      exact .missed hmatch (by rwa [List.drop_left])
  · cases operation with
    | matchKind | matchKinds | matchWord => exact absurd trivial hmatch
    | peek distance =>
      rw [perform, peek_eq, tokens_between, position_between]
      exact .seen distance
    | askLineStart =>
      rw [perform, position_between]
      exact .lineStart (atLineStart_between_iff_getElem? before rest)
    | advance =>
      cases rest with
      | nil =>
        rw [perform, advance_between_nil, position_between, List.append_nil]
        exact .atEnd rfl
      | cons token after =>
        rw [perform, advance_between_cons, position_between, List.length_append]
        exact .passed (by simp)

theorem Answers.lt_length {tokens taken : List Token} {position next : Nat} {operation : Operation}
    (hanswers : Answers tokens position operation (.found taken) next) :
    position < tokens.length := by
  cases hanswers with
  | found haccepts hnext =>
    have hpos := List.length_pos_iff.mpr haccepts.ne_nil
    have hle := hnext.length_le
    rw [List.length_drop] at hle
    omega

/-! ## Any number of operations -/

/-- Operations go over the tokens that they consume one after the other, and over no others. -/
theorem performAll_between (before rest : List Token) (operations : List Operation) :
    ∃ after, rest = (between before rest).consumedBy operations ++ after ∧
      (between before rest).performAll operations =
        between (before ++ (between before rest).consumedBy operations) after := by
  -- The first operation may have moved the place, so the others start from any place.
  induction operations generalizing before rest with
  | nil => exact ⟨rest, rfl, by simp [performAll, consumedBy]⟩
  | cons operation operations ih =>
    obtain ⟨left, hleft, hnext⟩ := perform_between before rest operation
    obtain ⟨after, hafter, hlast⟩ :=
      ih (before ++ ((between before rest).perform operation).1.consumed) left
    rw [← hnext] at hafter hlast
    refine ⟨after, ?_, ?_⟩
    · rw [consumedBy, List.append_assoc, ← hafter, ← hleft]
    · rw [performAll, consumedBy, ← List.append_assoc]
      exact hlast

theorem tokens_performAll (cursor : Cursor) (operations : List Operation) :
    (cursor.performAll operations).tokens = cursor.tokens := by
  obtain ⟨behind, ahead⟩ := cursor
  rw [eq_between ⟨behind, ahead⟩]
  obtain ⟨after, hahead, hcursor⟩ := performAll_between behind.reverse ahead operations
  rw [hcursor, tokens_between, tokens_between, List.append_assoc, ← hahead]

/-- A cursor between two lists shows the place behind the first one. -/
theorem shows_between (before rest : List Token) :
    (between before rest).Shows (before ++ rest) before := by
  have hposition := position_between before rest
  have hle : (between before rest).position ≤ (before ++ rest).length :=
    tokens_between before rest ▸ (between before rest).position_le_length
  have hanswers : ∀ operation, Answers (before ++ rest) (between before rest).position operation
      ((between before rest).perform operation).1
      ((between before rest).perform operation).2.position := by
    rw [hposition]
    exact answers_perform before rest
  refine ⟨tokens_between before rest, hle, ?_, ?_,
    atLineStart_between_iff_getLast? before rest, hanswers, ?_⟩
  · rw [hposition, List.take_left]
  · omega
  · intro hend operation taken hfound
    have hlt := (hfound ▸ hanswers operation).lt_length
    omega

/-- Whatever operations are performed on a cursor, it shows the place in the list behind the tokens
that they have consumed. -/
theorem operations_show_list (tokens : List Token) (operations : List Operation) :
    ((ofList tokens).performAll operations).Shows tokens
      ((ofList tokens).consumedBy operations) := by
  obtain ⟨after, htokens, hcursor⟩ := performAll_between [] tokens operations
  have hshows := shows_between ((ofList tokens).consumedBy operations) after
  rw [ofList_eq_between] at hshows ⊢
  rw [List.nil_append] at hcursor
  rwa [← hcursor, ← htokens] at hshows

/-- A token that stands for the end of the input can be matched, but what follows the last token
cannot. -/
theorem operations_show_list_end_token :
    let tokens : List Token := [⟨.word, "x"⟩, ⟨.equals, "="⟩, ⟨.endOfInput, ""⟩]
    let operations : List Operation :=
      [.matchKinds .word .equals, .matchKind .endOfInput, .matchKind .endOfInput, .advance]
    (ofList tokens).consumedBy operations = tokens ∧
      ((ofList tokens).performAll operations).Shows tokens tokens ∧
      ((ofList tokens).performAll operations).position = tokens.length := by
  intro tokens operations
  have hconsumed : (ofList tokens).consumedBy operations = tokens := by decide
  have hshows := operations_show_list tokens operations
  rw [hconsumed] at hshows
  exact ⟨hconsumed, hshows, by decide⟩

/-! ## Peeking -/

/-- A place that is a machine word is seen as it is. -/
theorem peek_of_lt {cursor : Cursor} {distance : UInt64}
    (hplace : cursor.position + distance.toNat < UInt64.size) :
    cursor.peek distance =
      cursor.tokens[cursor.position + distance.toNat]?.getD Token.atEnd := by
  rw [peek_eq, Nat.mod_eq_of_lt hplace]

/-- Beyond the largest word a token that has been consumed is seen. -/
theorem peek_of_le {cursor : Cursor} {distance : UInt64}
    (hlength : cursor.tokens.length < UInt64.size)
    (hplace : UInt64.size ≤ cursor.position + distance.toNat) :
    cursor.position + distance.toNat - UInt64.size < cursor.position ∧
      cursor.tokens[cursor.position + distance.toNat - UInt64.size]? =
        some (cursor.peek distance) := by
  have hposition := cursor.position_le_length
  have hdistance := distance.toNat_lt_size
  have hmod : (cursor.position + distance.toNat) % UInt64.size =
      cursor.position + distance.toNat - UInt64.size := by
    rw [Nat.mod_eq_sub_mod hplace, Nat.mod_eq_of_lt (by omega)]
  refine ⟨by omega, ?_⟩
  rw [peek_eq, hmod, List.getElem?_eq_getElem (by omega)]
  rfl

/-- Peeking sees the token at a distance, or the end of the input behind the last token, as long as
the place is a machine word.  Beyond the largest word it sees a token that has been consumed, and
this is the end of the input only if the list holds that as a token. -/
theorem peek_sees_ahead_within_words {tokens : List Token} (hlength : tokens.length < UInt64.size)
    (operations : List Operation) (distance : UInt64) :
    let cursor := (ofList tokens).performAll operations
    let place := cursor.position + distance.toNat
    (place < UInt64.size → cursor.peek distance = tokens[place]?.getD Token.atEnd) ∧
      (UInt64.size ≤ place → place - UInt64.size < cursor.position ∧
        tokens[place - UInt64.size]? = some (cursor.peek distance)) ∧
      (cursor.peek distance = tokens[place]?.getD Token.atEnd ↔
        place < UInt64.size ∨ tokens[place - UInt64.size]? = some Token.atEnd) := by
  intro cursor place
  have htokens : cursor.tokens = tokens := tokens_performAll (ofList tokens) operations
  have hwithin : place < UInt64.size → cursor.peek distance = tokens[place]?.getD Token.atEnd := by
    rw [← htokens]
    exact peek_of_lt
  have hbeyond : UInt64.size ≤ place → place - UInt64.size < cursor.position ∧
      tokens[place - UInt64.size]? = some (cursor.peek distance) := by
    rw [← htokens] at hlength ⊢
    exact peek_of_le hlength
  refine ⟨hwithin, hbeyond, ?_⟩
  obtain hplace | hplace := Nat.lt_or_ge place (UInt64.size)
  · exact ⟨fun _ => .inl hplace, fun _ => hwithin hplace⟩
  · have hnone : tokens[place]? = none := List.getElem?_eq_none (by omega)
    rw [hnone, (hbeyond hplace).2, Option.getD_none, Option.some_inj]
    exact ⟨.inr, fun hseen => hseen.resolve_left (by omega)⟩

/-- The largest place and the one beyond it, seen from behind the first of two tokens. -/
theorem peek_sees_ahead_within_words_largest :
    let tokens : List Token := [⟨.word, "x"⟩, ⟨.word, "y"⟩]
    let cursor := (ofList tokens).performAll [.advance]
    tokens.length < UInt64.size ∧ cursor.peek 18446744073709551614 = Token.atEnd ∧
      cursor.peek 18446744073709551615 = ⟨.word, "x"⟩ := by
  intro tokens cursor
  have hlength : tokens.length < UInt64.size := by decide
  obtain ⟨hlargest, -⟩ := peek_sees_ahead_within_words hlength [.advance] 18446744073709551614
  obtain ⟨-, hbeyond, -⟩ := peek_sees_ahead_within_words hlength [.advance] 18446744073709551615
  have hend : tokens.length ≤ cursor.position + (18446744073709551614 : UInt64).toNat := by decide
  have hstart : cursor.position + (18446744073709551615 : UInt64).toNat - UInt64.size = 0 := by
    decide
  refine ⟨hlength, ?_, ?_⟩
  · exact (hlargest (by decide)).trans (by rw [List.getElem?_eq_none hend, Option.getD_none])
  · have hseen : tokens[0]? = some (cursor.peek 18446744073709551615) :=
      hstart ▸ (hbeyond (by decide)).2
    exact (Option.some.inj hseen).symm

/-- At some distances a consumed token is seen where no token is left. -/
theorem peek_sees_consumed_token_beyond_words :
    ¬ ∀ (tokens : List Token) (operations : List Operation) (distance : UInt64),
      ((ofList tokens).performAll operations).peek distance =
        tokens[((ofList tokens).performAll operations).position + distance.toNat]?.getD
          Token.atEnd := by
  intro hall
  have hpeek := hall [⟨.word, "x"⟩, ⟨.word, "y"⟩] [.advance] 18446744073709551615
  exact absurd hpeek (by decide)

end LineBasic.Cursor
