import Mathlib.Data.List.Induction
import LineBasic.Proofs.Grammar.Item
import LineBasic.Reading.Program

/-!
# The grammar of programs

A list of tokens splits into items from its start up to a place where no item starts.  The items
build a program: their statements in order, and for each label the number of statements in front
of its last declaration.  A list of tokens is read as a program exactly if it has such a split,
and it has at most one.
-/

namespace LineBasic

/-- No label points behind the end of the program. -/
def Program.LabelsInside (program : Program) : Prop :=
  ∀ (name : String) (index : Nat), program.labels[name]? = some index →
    index ≤ program.statements.size

namespace Grammar

open Reading Cursor

/-- The tokens spell the items, one behind the other, between other tokens. -/
inductive SpellsItems : List Token → List Item → List Token → List Token → Prop where
  | nil (before after : List Token) : SpellsItems before [] [] after
  | cons {before first rest after : List Token} {item : Item} {items : List Item}
      (hitem : SpellsItem before item first (rest ++ after))
      (hitems : SpellsItems (before ++ first) items rest after) :
      SpellsItems before (item :: items) (first ++ rest) after

/-- The tokens in front of a place spell the items, and no item starts at the place. -/
structure SplitsAt (tokens : List Token) (stop : Nat) (items : List Item) : Prop where
  le_length : stop ≤ tokens.length
  spells : SpellsItems [] items (tokens.take stop) (tokens.drop stop)
  stops : ¬ StartsItem (tokens.take stop) (tokens.drop stop)

/-- The statement that an item is, if it is one. -/
def statement? : Item → Option Statement
  | .statement statement => some statement
  | _ => none

/-- The statements among items. -/
def statementsOf (items : List Item) : List Statement :=
  items.filterMap statement?

/-- The last declaration of a label stands behind a number of statements. -/
def Declares (items : List Item) (name : String) (index : Nat) : Prop :=
  ∃ front back, items = front ++ .label name :: back ∧ .label name ∉ back ∧
    index = (statementsOf front).length

/-- A program with the statements of the items and with their labels. -/
structure Builds (items : List Item) (program : Program) : Prop where
  statements : program.statements.toList = statementsOf items
  labels : ∀ name index, program.labels[name]? = some index ↔ Declares items name index

/-! ## The program that items build -/

@[simp]
theorem statementsOf_append (left right : List Item) :
    statementsOf (left ++ right) = statementsOf left ++ statementsOf right :=
  List.filterMap_append

@[simp]
theorem statementsOf_lineBreak : statementsOf [.lineBreak] = [] := rfl

@[simp]
theorem statementsOf_label (name : String) : statementsOf [.label name] = [] := rfl

@[simp]
theorem statementsOf_statement (statement : Statement) :
    statementsOf [.statement statement] = [statement] := rfl

theorem mem_statementsOf_iff {items : List Item} {statement : Statement} :
    statement ∈ statementsOf items ↔ .statement statement ∈ items := by
  simp only [statementsOf, List.mem_filterMap]
  constructor
  · rintro ⟨item, hmem, hitem⟩
    cases item with
    | statement found =>
      cases hitem
      exact hmem
    | lineBreak | label => cases hitem
  · intro hmem
    exact ⟨_, hmem, rfl⟩

theorem declares_nil (name : String) (index : Nat) : ¬ Declares [] name index := by
  rintro ⟨front, back, heq, -⟩
  simp at heq

/-- A further item leaves the label of a name as it is, unless it declares it. -/
theorem declares_append_singleton_iff {items : List Item} {item : Item} {name : String}
    {index : Nat} (hitem : item ≠ .label name) :
    Declares (items ++ [item]) name index ↔ Declares items name index := by
  constructor
  · rintro ⟨front, back, heq, hback, hindex⟩
    obtain rfl | ⟨back, last, rfl⟩ := back.eq_nil_or_concat
    · exact absurd (List.append_inj' heq rfl).2 (by simpa using hitem)
    · have hlast : items ++ [item] = (front ++ .label name :: back) ++ [last] := by
        simpa using heq
      obtain ⟨rfl, -⟩ := List.append_inj' hlast rfl
      exact ⟨front, back, rfl, fun hmem => hback (by simp [hmem]), hindex⟩
  · rintro ⟨front, back, rfl, hback, hindex⟩
    exact ⟨front, back ++ [item], by simp, by simp [hback, Ne.symm hitem], hindex⟩

/-- A label declared last stands behind all statements. -/
theorem declares_append_label_iff {items : List Item} {name : String} {index : Nat} :
    Declares (items ++ [.label name]) name index ↔ index = (statementsOf items).length := by
  constructor
  · rintro ⟨front, back, heq, hback, hindex⟩
    obtain rfl | ⟨back, last, rfl⟩ := back.eq_nil_or_concat
    · obtain ⟨rfl, -⟩ := List.append_inj' heq rfl
      exact hindex
    · have hlast : items ++ [.label name] = (front ++ .label name :: back) ++ [last] := by
        simpa using heq
      obtain ⟨-, hlabel⟩ := List.append_inj' hlast rfl
      exact absurd hlabel (by simpa [eq_comm] using fun h => hback (by simp [h]))
  · rintro rfl
    exact ⟨items, [], rfl, by simp, rfl⟩

theorem builds_nil : Builds [] {} where
  statements := rfl
  labels name index := by simp [declares_nil]

/-- One more item is added to the program in the way it is read. -/
theorem Builds.addItem {items : List Item} {program : Program} (hbuilds : Builds items program)
    (item : Item) : Builds (items ++ [item]) (addItem program item) := by
  have hsize : program.statements.size = (statementsOf items).length := by
    rw [← hbuilds.statements, Array.length_toList]
  cases item with
  | lineBreak =>
    refine ⟨?_, fun name index => ?_⟩ <;> simp only [Reading.addItem]
    · simpa using hbuilds.statements
    · rw [declares_append_singleton_iff (by simp)]
      exact hbuilds.labels name index
  | statement statement =>
    refine ⟨?_, fun name index => ?_⟩ <;> simp only [Reading.addItem]
    · simpa [Program.push] using hbuilds.statements
    · rw [declares_append_singleton_iff (by simp)]
      exact hbuilds.labels name index
  | label declared =>
    refine ⟨?_, fun name index => ?_⟩ <;> simp only [Reading.addItem]
    · simpa [Program.labelEnd, Program.label] using hbuilds.statements
    · by_cases hname : declared = name
      · subst hname
        rw [declares_append_label_iff, ← hsize]
        simp [Program.labelEnd, Program.label, eq_comm]
      · rw [declares_append_singleton_iff (by simpa using hname), ← hbuilds.labels]
        simp [Program.labelEnd, Program.label, Std.ExtTreeMap.getElem?_insert, hname]

theorem builds_foldl_addItem (items : List Item) : Builds items (items.foldl addItem {}) := by
  induction items using List.reverseRecOn with
  | nil => exact builds_nil
  | append_singleton items item ih =>
    rw [List.foldl_append]
    exact ih.addItem item

/-- Items build one program alone. -/
theorem Builds.eq {items : List Item} {left right : Program} (hleft : Builds items left)
    (hright : Builds items right) : left = right := by
  obtain ⟨statements, labels⟩ := left
  obtain ⟨statements', labels'⟩ := right
  obtain rfl : statements = statements' :=
    Array.toList_inj.mp (hleft.statements.trans hright.statements.symm)
  have hlabels : ∀ name index, labels[name]? = some index ↔ labels'[name]? = some index :=
    fun name index => (hleft.labels name index).trans (hright.labels name index).symm
  obtain rfl : labels = labels' :=
    Std.ExtTreeMap.ext_getElem? fun name => Option.ext fun index => hlabels name index
  rfl

/-- The labels of items are among them. -/
theorem Builds.labelsInside {items : List Item} {program : Program}
    (hbuilds : Builds items program) : program.LabelsInside := by
  intro name index hlabel
  obtain ⟨front, back, rfl, -, rfl⟩ := (hbuilds.labels name index).mp hlabel
  rw [← Array.length_toList, hbuilds.statements, statementsOf_append, List.length_append]
  exact Nat.le_add_right _ _

/-! ## Reading and splitting -/

section Steps

variable {program : Program} {state after : State} {item : Item} {rejection : Rejection}

theorem readItems_of_eq_some (hread : readItem state = .ok (some item, after)) :
    readItems program state = readItems (addItem program item) after := by
  rw [readItems]
  split <;> simp_all

theorem readItems_of_eq_none (hread : readItem state = .ok (none, after)) :
    readItems program state = .ok (program, after) := by
  rw [readItems]
  split <;> simp_all

theorem readItems_of_eq_error (hread : readItem state = .error rejection) :
    readItems program state = .error rejection := by
  rw [readItems]
  split <;> simp_all

end Steps

/-- A program is what the items inside its rule add up to. -/
theorem ofTokens_eq_map_readItems (tokens : List Token) :
    Program.ofTokens tokens = (readItems {} ⟨between [] tokens, outset⟩).map Prod.fst := by
  rw [Program.ofTokens, following_apply]
  have hstart : State.enter ⟨Cursor.ofList tokens, {}⟩ .program = ⟨between [] tokens, outset⟩ := rfl
  rw [hstart]
  cases readItems {} ⟨between [] tokens, outset⟩ <;> rfl

theorem ofTokens_eq_ok_iff {tokens : List Token} {program : Program} :
    Program.ofTokens tokens = .ok program ↔
      ∃ after, readItems {} ⟨between [] tokens, outset⟩ = .ok (program, after) := by
  rw [ofTokens_eq_map_readItems]
  cases readItems {} ⟨between [] tokens, outset⟩ with
  | error rejection => simp [Except.map]
  | ok read =>
    obtain ⟨found, after⟩ := read
    simp [Except.map]

theorem ofTokens_eq_error_iff {tokens : List Token} {rejection : Rejection} :
    Program.ofTokens tokens = .error rejection ↔
      readItems {} ⟨between [] tokens, outset⟩ = .error rejection := by
  rw [ofTokens_eq_map_readItems]
  cases readItems {} ⟨between [] tokens, outset⟩ <;> simp [Except.map]

theorem not_startsItem_nil (before : List Token) : ¬ StartsItem before [] := by
  simp [StartsItem, StartsStatement]

/-- Reading ends where no item starts. -/
theorem readItems_of_not_startsItem {before rest : List Token} (hstops : ¬ StartsItem before rest)
    (program : Program) (rules : RuleStack) :
    readItems program ⟨between before rest, rules⟩ =
      .ok (program, ⟨between before rest, rules⟩) :=
  readItems_of_eq_none (readItem_of_not_startsItem hstops rules)

/-- Reading passes over the tokens of items and adds them to the program. -/
theorem SpellsItems.readItems {before tokens after : List Token} {items : List Item}
    (hspells : SpellsItems before items tokens after) (program : Program) :
    Reading.readItems program ⟨between before (tokens ++ after), outset⟩ =
      Reading.readItems (items.foldl addItem program)
        ⟨between (before ++ tokens) after, outset⟩ := by
  induction hspells generalizing program with
  | nil before after => simp
  | @cons before first rest after item items hitem hitems ih =>
    rw [List.append_assoc, readItems_of_eq_some hitem.readItem, ih]
    simp

/-- Induction on a state from one item to the next. -/
@[elab_as_elim]
theorem item_induction {motive : State → Prop}
    (step : ∀ state, (∀ item next, readItem state = .ok (some item, next) → motive next) →
      motive state) (state : State) : motive state := by
  induction hlength : state.cursor.ahead.length using Nat.strongRecOn generalizing state with
  | ind length ih =>
    apply step
    intro item next hread
    exact ih _ (hlength ▸ length_ahead_readItem hread) next rfl

/-- Reading that ends well has passed over items, up to a place where no item starts. -/
theorem exists_spellsItems_of_readItems {before rest : List Token} {program read : Program}
    {state : State} (hread : readItems program ⟨between before rest, outset⟩ = .ok (read, state)) :
    ∃ items tokens after, rest = tokens ++ after ∧ SpellsItems before items tokens after ∧
      ¬ StartsItem (before ++ tokens) after ∧ read = items.foldl addItem program ∧
      state = ⟨between (before ++ tokens) after, outset⟩ := by
  generalize hplace : (⟨between before rest, outset⟩ : State) = place at hread
  induction place using item_induction generalizing before rest program with
  | step place ih =>
    subst hplace
    rcases hitem : readItem ⟨between before rest, outset⟩ with rejection | ⟨_ | item, next⟩
    · rw [readItems_of_eq_error hitem] at hread
      cases hread
    · rw [readItems_of_eq_none hitem] at hread
      cases hread
      obtain ⟨hstops, rfl⟩ := readItem_between_eq_none_iff.mp hitem
      exact ⟨[], [], rest, rfl, .nil before rest, by simpa using hstops, rfl, by simp⟩
    · rw [readItems_of_eq_some hitem] at hread
      obtain ⟨first, after, rfl, rfl, hspells⟩ := readItem_between_eq_some hitem
      obtain ⟨items, tokens, after, rfl, hitems, hstops, rfl, rfl⟩ := ih item _ hitem rfl hread
      exact ⟨item :: items, first ++ tokens, after, by simp, .cons hspells hitems,
        by simpa using hstops, rfl, by simp⟩

/-- A list of tokens that is read as a program starts with items, up to a place where none
starts. -/
theorem exists_spellsItems_of_ofTokens {tokens : List Token} {program : Program}
    (hread : Program.ofTokens tokens = .ok program) :
    ∃ items front after, tokens = front ++ after ∧ SpellsItems [] items front after ∧
      ¬ StartsItem front after ∧ program = items.foldl addItem {} := by
  obtain ⟨state, hitems⟩ := ofTokens_eq_ok_iff.mp hread
  obtain ⟨items, front, after, htokens, hspells, hstops, hprogram, -⟩ :=
    exists_spellsItems_of_readItems hitems
  exact ⟨items, front, after, htokens, hspells, hstops, hprogram⟩

/-- Items make up the program where no item starts behind them. -/
theorem SpellsItems.ofTokens_eq_ok {front after : List Token} {items : List Item}
    (hitems : SpellsItems [] items front after) (hstops : ¬ StartsItem front after) :
    Program.ofTokens (front ++ after) = .ok (items.foldl addItem {}) := by
  have hread := hitems.readItems {}
  rw [List.nil_append, readItems_of_not_startsItem hstops] at hread
  exact ofTokens_eq_ok_iff.mpr ⟨_, hread⟩

theorem SpellsItem.congr {before tokens rest after : List Token} {item : Item}
    (hitem : SpellsItem before item tokens rest)
    (hexpression : EndsExpression rest → EndsExpression after)
    (hline : EndsLine rest → EndsLine after) : SpellsItem before item tokens after := by
  cases hitem with
  | lineBreak text => exact .lineBreak text after
  | label name hstart hend => exact .label name hstart (hline hend)
  | statement hspells =>
    apply SpellsItem.statement
    cases hspells with
    | assign text hvalue hend => exact .assign text hvalue (hexpression hend)
    | print hvalue hend => exact .print hvalue (hexpression hend)
    | jump label _ hcondition => exact .jump label after hcondition

/-- Items may stand in front of other tokens that end expressions and lines as those behind them. -/
theorem SpellsItems.congr {before tokens rest after : List Token} {items : List Item}
    (hitems : SpellsItems before items tokens rest)
    (hexpression : ∀ own, EndsExpression (own ++ rest) → EndsExpression (own ++ after))
    (hline : ∀ own, EndsLine (own ++ rest) → EndsLine (own ++ after)) :
    SpellsItems before items tokens after := by
  induction hitems with
  | nil before rest => exact .nil before after
  | cons hitem hitems ih =>
    exact .cons (hitem.congr (hexpression _) (hline _)) (ih hexpression hline)

theorem head?_append_congr {rest after : List Token} (hhead : rest.head? = after.head?)
    (own : List Token) : (own ++ rest).head? = (own ++ after).head? := by
  rw [List.head?_append, List.head?_append, hhead]

/-- Only the token right behind items matters to them. -/
theorem SpellsItems.congr_head? {before tokens rest after : List Token} {items : List Item}
    (hitems : SpellsItems before items tokens rest) (hhead : rest.head? = after.head?) :
    SpellsItems before items tokens after := by
  apply hitems.congr
  · intro own hend
    rwa [EndsExpression, ← head?_append_congr hhead own]
  · intro own hend
    rwa [EndsLine, ← head?_append_congr hhead own]

/-- One more item goes behind the others. -/
theorem SpellsItems.concat {before tokens own after : List Token} {items : List Item} {item : Item}
    (hitems : SpellsItems before items tokens (own ++ after))
    (hitem : SpellsItem (before ++ tokens) item own after) :
    SpellsItems before (items ++ [item]) (tokens ++ own) after := by
  generalize hrest : own ++ after = rest at hitems
  induction hitems with
  | nil before rest =>
    have hitem : SpellsItem before item own ([] ++ after) := by simpa using hitem
    simpa using SpellsItems.cons hitem (.nil _ after)
  | @cons before first tokens rest head items hhead hitems ih =>
    subst hrest
    have hfirst : SpellsItem before head first ((tokens ++ own) ++ after) := by
      simpa using hhead
    simpa using SpellsItems.cons hfirst (ih (by simpa using hitem) rfl)

/-- Each item is spelled by tokens of its own. -/
theorem SpellsItems.exists_spellsItem {before tokens after : List Token} {items : List Item}
    (hspells : SpellsItems before items tokens after) {item : Item} (hmem : item ∈ items) :
    ∃ front own rest, SpellsItem front item own rest ∧ ∀ token ∈ own, token ∈ tokens := by
  induction hspells with
  | nil => cases hmem
  | @cons before first rest after head items hitem hitems ih =>
    obtain rfl | hmem := List.mem_cons.mp hmem
    · exact ⟨before, first, _, hitem, fun token hown => List.mem_append_left _ hown⟩
    · obtain ⟨front, own, others, hspells, hown⟩ := ih hmem
      exact ⟨front, own, others, hspells, fun token htoken =>
        List.mem_append_right _ (hown token htoken)⟩

/-- Two ways to spell items up to a place where none starts are the same. -/
theorem SpellsItems.eq {before left leftAfter right rightAfter : List Token}
    {leftItems rightItems : List Item} (hleft : SpellsItems before leftItems left leftAfter)
    (hleftStops : ¬ StartsItem (before ++ left) leftAfter)
    (hright : SpellsItems before rightItems right rightAfter)
    (hrightStops : ¬ StartsItem (before ++ right) rightAfter)
    (heq : left ++ leftAfter = right ++ rightAfter) :
    leftItems = rightItems ∧ left = right := by
  induction hleft generalizing rightItems right with
  | nil before after =>
    have hnone := readItem_of_not_startsItem hleftStops outset
    cases hright with
    | nil => exact ⟨rfl, rfl⟩
    | cons hitem hitems =>
      rw [List.append_nil, ← List.nil_append after, heq, List.append_assoc, hitem.readItem]
        at hnone
      cases hnone
  | @cons before first rest after item items hitem hitems ih =>
    have hsome := hitem.readItem
    cases hright with
    | nil =>
      have hnone := readItem_of_not_startsItem hrightStops outset
      rw [List.append_nil, ← List.nil_append rightAfter, ← heq, List.append_assoc, hsome] at hnone
      cases hnone
    | @cons _ other others _ otherItem otherItems hother hothers =>
      rw [List.append_assoc, List.append_assoc] at heq
      rw [heq, hother.readItem] at hsome
      simp only [Except.ok.injEq, Option.some.injEq, Prod.mk.injEq, State.mk.injEq, between,
        Cursor.mk.injEq, List.reverse_inj, List.append_cancel_left_eq, and_true] at hsome
      obtain ⟨rfl, rfl, hafter⟩ := hsome
      obtain ⟨rfl, rfl⟩ := ih (by simpa using hleftStops) hothers (by simpa using hrightStops)
        hafter.symm
      exact ⟨rfl, rfl⟩

/-- The statements and the labels of a program that has been read are spelled by tokens of the list
that it has been read from, and its labels do not point behind its end. -/
theorem exists_spellsItem_of_ofTokens {tokens : List Token} {program : Program}
    (hread : Program.ofTokens tokens = .ok program) :
    program.LabelsInside ∧
      (∀ statement ∈ program.statements, ∃ before own after,
        SpellsItem before (.statement statement) own after ∧ ∀ token ∈ own, token ∈ tokens) ∧
      ∀ (name : String) (index : Nat), program.labels[name]? = some index → ∃ before own after,
        SpellsItem before (.label name) own after ∧ ∀ token ∈ own, token ∈ tokens := by
  obtain ⟨items, front, after, rfl, hspells, -, rfl⟩ := exists_spellsItems_of_ofTokens hread
  have hbuilds := builds_foldl_addItem items
  have hitems : ∀ item ∈ items, ∃ before own rest, SpellsItem before item own rest ∧
      ∀ token ∈ own, token ∈ front ++ after := by
    intro item hmem
    obtain ⟨before, own, rest, hitem, hown⟩ := hspells.exists_spellsItem hmem
    exact ⟨before, own, rest, hitem, fun token htoken =>
      List.mem_append_left after (hown token htoken)⟩
  refine ⟨hbuilds.labelsInside, fun statement hmem => ?_, fun name index hlabel => ?_⟩
  · rw [← Array.mem_toList_iff, hbuilds.statements, mem_statementsOf_iff] at hmem
    exact hitems _ hmem
  · obtain ⟨front, back, rfl, -⟩ := (hbuilds.labels name index).mp hlabel
    exact hitems _ (by simp)

theorem labelsInside_of_ofTokens {tokens : List Token} {program : Program}
    (hread : Program.ofTokens tokens = .ok program) : program.LabelsInside :=
  (exists_spellsItem_of_ofTokens hread).1

/-- A list of tokens is read as a program exactly if it splits into items that build the program,
and it splits in one way at most. -/
theorem ofTokens_eq_ok_iff_splits (tokens : List Token) :
    (∀ program, Program.ofTokens tokens = .ok program ↔
        ∃ stop items, SplitsAt tokens stop items ∧ Builds items program) ∧
      ∀ stop items other others, SplitsAt tokens stop items → SplitsAt tokens other others →
        stop = other ∧ items = others := by
  refine ⟨fun program => ⟨fun hread => ?_, ?_⟩, ?_⟩
  · obtain ⟨items, front, after, rfl, hspells, hstops, rfl⟩ := exists_spellsItems_of_ofTokens hread
    refine ⟨front.length, items, ⟨by simp, ?_, ?_⟩, builds_foldl_addItem items⟩
    · simpa using hspells
    · simpa using hstops
  · rintro ⟨stop, items, hsplits, hbuilds⟩
    have hread := hsplits.spells.ofTokens_eq_ok hsplits.stops
    rw [List.take_append_drop] at hread
    rw [hbuilds.eq (builds_foldl_addItem items)]
    exact hread
  · intro stop items other others hsplits hothers
    obtain ⟨hitems, htokens⟩ := hsplits.spells.eq (by simpa using hsplits.stops) hothers.spells
      (by simpa using hothers.stops) (by simp)
    have hlength := congrArg List.length htokens
    rw [List.length_take_of_le hsplits.le_length, List.length_take_of_le hothers.le_length]
      at hlength
    exact ⟨hlength, hitems⟩

/-- A label on its line, a statement that compares, and a parenthesis that stops the program. -/
theorem ofTokens_labelled_comparison :
    let tokens : List Token := [⟨.word, "loop"⟩, ⟨.lineBreak, "\n"⟩, ⟨.word, "print"⟩, ⟨.word, "x"⟩,
      ⟨.equals, "="⟩, ⟨.string, "a"⟩, ⟨.rightParen, ")"⟩]
    let comparison : Statement := .print (.chain (.var "x") [(.equal, .string "a")])
    let items : List Item := [.label "loop", .lineBreak, .statement comparison]
    SplitsAt tokens 6 items ∧
      Program.ofTokens tokens = .ok ((({} : Program).labelEnd "loop").push comparison) ∧
      ∀ other others, SplitsAt tokens other others → 6 = other ∧ items = others := by
  intro tokens comparison items
  have hoperand : SpellsLinks 0 [(Operator.equal, .string "a")]
      [⟨.equals, "="⟩, ⟨.string, "a"⟩] := .single (.inr rfl) rfl (.string 0 "a")
  have hvalue : SpellsExpression 0 (.chain (.var "x") [(.equal, .string "a")])
      [⟨.word, "x"⟩, ⟨.equals, "="⟩, ⟨.string, "a"⟩] := .intro (.var 0 "x") hoperand
  have hend : EndsExpression [⟨.rightParen, ")"⟩] := by simp [EndsExpression, IsOperatorKind]
  have hspells : SpellsItems [] items (tokens.take 6) (tokens.drop 6) :=
    .cons (.label "loop" (by simp [StartsLine]) (by simp [EndsLine]))
      (.cons (.lineBreak "\n" _) (.cons (.statement (.print hvalue hend)) (.nil _ _)))
  have hsplits : SplitsAt tokens 6 items :=
    ⟨by decide, hspells, by simp [tokens, StartsItem, StartsStatement]⟩
  obtain ⟨hread, hunique⟩ := ofTokens_eq_ok_iff_splits tokens
  exact ⟨hsplits, (hread _).mpr ⟨6, items, hsplits, builds_foldl_addItem items⟩,
    fun other others => hunique 6 items other others hsplits⟩

end Grammar

end LineBasic
