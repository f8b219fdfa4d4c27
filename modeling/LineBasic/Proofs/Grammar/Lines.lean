import LineBasic.Proofs.Grammar.Embedding
import LineBasic.Proofs.Run.Append

/-!
# Programs line by line

Lines that are all read as a program may be followed by further lines.  These are read as they are
read by themselves: the program that they spell goes on behind the first one, and where they are
rejected the whole is rejected, for the same cause at the same token.
-/

namespace LineBasic

namespace Program

variable (first second : Program)

@[simp]
theorem append_empty : first.append {} = first := by
  obtain ⟨statements, labels⟩ := first
  have hlabels : labels ∪ (∅ : Std.ExtTreeMap String Nat).map (fun _ index =>
      index + statements.size) = labels := by
    apply Std.ExtTreeMap.ext_getElem?
    intro name
    simp [Std.ExtTreeMap.getElem?_union]
  simp only [append, Array.append_empty, hlabels]

theorem append_push (statement : Statement) :
    first.append (second.push statement) = (first.append second).push statement := by
  simp only [append, push, Array.append_push]

/-- A label for the end of the second program overrides one of the first program. -/
theorem append_labelEnd (name : String) :
    first.append (second.labelEnd name) = (first.append second).labelEnd name := by
  simp only [append, labelEnd, label, mk.injEq, true_and]
  apply Std.ExtTreeMap.ext_getElem?
  intro other
  simp only [Std.ExtTreeMap.getElem?_union, Std.ExtTreeMap.getElem?_map,
    Std.ExtTreeMap.getElem?_insert]
  by_cases hname : name = other
  · simp [hname, Nat.add_comm]
  · simp [hname]

end Program

/-- A rejection of tokens that stand behind further ones: only its place has moved. -/
structure Rejection.Moves (count : Nat) (rejection moved : Rejection) : Prop where
  cause : moved.cause = rejection.cause
  path : moved.path = rejection.path
  token : moved.token = rejection.token
  position : moved.place.position = rejection.place.position + count

namespace Grammar

open Reading Cursor

variable {before tokens rest after : List Token} {items : List Item}

/-! ## Items in front of a further line -/

theorem EndsExpression.append_line (hrest : EndsExpression rest) (hafter : EndsLine after) :
    EndsExpression (rest ++ after) := by
  cases rest with
  | nil =>
    intro token hmem
    simp [IsOperatorKind, hafter.kind_ne hmem]
  | cons token rest => exact hrest

theorem SpellsItems.append_line (hspells : SpellsItems before items tokens rest)
    (hafter : EndsLine after) : SpellsItems before items tokens (rest ++ after) := by
  apply hspells.congr
  · intro own hend
    rw [← List.append_assoc]
    exact hend.append_line hafter
  · intro own hend
    rw [← List.append_assoc]
    exact (endsLine_append_iff hafter).mpr hend

/-! ## Further lines -/

theorem addItem_append (first program : Program) (item : Item) :
    addItem (first.append program) item = first.append (addItem program item) := by
  cases item with
  | lineBreak => rfl
  | label name => exact (first.append_labelEnd program name).symm
  | statement statement => exact (first.append_push program statement).symm

/-- Behind a line break, tokens are read as they are read by themselves. -/
theorem readItems_behind_lineBreak (front second : List Token) (text : String)
    (program : Program) :
    (readItems program ⟨between front (⟨.lineBreak, text⟩ :: second), outset⟩).map Prod.fst =
      embedProgram (front ++ [⟨.lineBreak, text⟩]) [] program.append
        (Program.ofTokens second) := by
  have hitem : readItem ⟨between front (⟨.lineBreak, text⟩ :: second), outset⟩ =
      .ok (some .lineBreak, ⟨between (front ++ [⟨.lineBreak, text⟩]) second, outset⟩) :=
    (SpellsItem.lineBreak text second).readItem
  have hbefore : StartsLine (front ++ [⟨.lineBreak, text⟩]) := by simp [StartsLine]
  have hread := readItems_embed hbefore endsLine_nil (addItem_append program) readItems_atEnd {}
    ⟨between [] second, outset⟩
  rw [Program.append_empty, embedState, embed_between, List.append_nil, List.append_nil] at hread
  rw [readItems_of_eq_some hitem, addItem, ofTokens_eq_map_readItems]
  exact hread

theorem moves_embed (before : List Token) (rejection : Rejection) :
    rejection.Moves before.length (rejection.embed before []) where
  cause := rfl
  path := rfl
  token := by simp [Rejection.token, Rejection.embed, embed, current]
  position := by simp [Rejection.embed, embed, position]

/-- Lines that are all read as a program may be followed by further lines.  The whole spells the
program that goes on with the one that the further lines spell, or is rejected as they are. -/
theorem ofTokens_append_lines {first : List Token} {program : Program}
    (hfirst : Program.ofTokens first = .ok program)
    (hall : ∃ items, SplitsAt first first.length items) (text : String) (second : List Token) :
    (∀ read, Program.ofTokens (first ++ ⟨.lineBreak, text⟩ :: second) = .ok read ↔
        ∃ other, Program.ofTokens second = .ok other ∧ read = program.append other) ∧
      ∀ rejection, Program.ofTokens second = .error rejection →
        ∃ moved, Program.ofTokens (first ++ ⟨.lineBreak, text⟩ :: second) = .error moved ∧
          rejection.Moves (first.length + 1) moved := by
  obtain ⟨items, hsplits⟩ := hall
  have hspells : SpellsItems [] items first [] := by simpa using hsplits.spells
  have hprogram : program = items.foldl addItem {} := by
    have hread := hspells.ofTokens_eq_ok (not_startsItem_nil first)
    rw [List.append_nil] at hread
    exact Except.ok.inj (hfirst.symm.trans hread)
  -- the first lines are passed over as they are without the further ones
  have hwhole : Program.ofTokens (first ++ ⟨.lineBreak, text⟩ :: second) =
      embedProgram (first ++ [⟨.lineBreak, text⟩]) [] program.append
        (Program.ofTokens second) := by
    have hline : EndsLine (⟨.lineBreak, text⟩ :: second) := by simp [EndsLine]
    rw [← readItems_behind_lineBreak, hprogram, ofTokens_eq_map_readItems]
    exact congrArg (Except.map Prod.fst) ((hspells.append_line hline).readItems {})
  rw [hwhole]
  cases Program.ofTokens second with
  | ok other =>
    simp [embedProgram, eq_comm]
  | error rejection =>
    refine ⟨fun read => by simp [embedProgram], ?_⟩
    rintro _ ⟨⟩
    have hmoves := moves_embed (first ++ [⟨.lineBreak, text⟩]) rejection
    rw [List.length_append] at hmoves
    exact ⟨_, rfl, hmoves⟩

/-- Further lines that declare a label again, and further lines that are rejected. -/
theorem ofTokens_append_lines_redeclared_label :
    let first : List Token :=
      [⟨.word, "loop"⟩, ⟨.lineBreak, "\n"⟩, ⟨.word, "print"⟩, ⟨.string, "a"⟩]
    let second : List Token :=
      [⟨.word, "print"⟩, ⟨.string, "b"⟩, ⟨.lineBreak, "\n"⟩, ⟨.word, "loop"⟩]
    let refused : List Token := [⟨.word, "print"⟩, ⟨.leftParen, "("⟩]
    let program := (({} : Program).labelEnd "loop").push (.print (.string "a"))
    let other := (({} : Program).push (.print (.string "b"))).labelEnd "loop"
    let rejection : Rejection := ⟨.noOperand,
      ⟨[.atomic, .expression, .atomic, .expression, .print, .statement, .program]⟩,
      ⟨refused.reverse, []⟩⟩
    SplitsAt first 4 [.label "loop", .lineBreak, .statement (.print (.string "a"))] ∧
      Program.ofTokens (first ++ ⟨.lineBreak, "\n"⟩ :: second) = .ok (program.append other) ∧
      (program.append other).labels["loop"]? = some 2 ∧
      Program.ofTokens refused = .error rejection ∧
      ∃ moved, Program.ofTokens (first ++ ⟨.lineBreak, "\n"⟩ :: refused) = .error moved ∧
        rejection.Moves 5 moved := by
  intro first second refused program other rejection
  have hvalue : SpellsExpression 0 (.string "a") [⟨.string, "a"⟩] :=
    .intro (.string 0 "a") (.nil 0)
  have hspells : SpellsItems [] [.label "loop", .lineBreak, .statement (.print (.string "a"))]
      (first.take 4) (first.drop 4) :=
    .cons (.label "loop" (by simp [StartsLine]) (by simp [EndsLine]))
      (.cons (.lineBreak "\n" _) (.cons (.statement (.print hvalue endsExpression_nil))
        (.nil _ _)))
  have hsplits : SplitsAt first 4 [.label "loop", .lineBreak, .statement (.print (.string "a"))] :=
    ⟨by decide, hspells, by simp [first, StartsItem, StartsStatement]⟩
  have hfirst : Program.ofTokens first = .ok program := by cbv
  have hsecond : Program.ofTokens second = .ok other := by cbv
  have hrefused : Program.ofTokens refused = .error rejection := by cbv
  have hlines := ofTokens_append_lines hfirst ⟨_, hsplits⟩ "\n"
  refine ⟨hsplits, ((hlines second).1 _).mpr ⟨other, hsecond, rfl⟩, ?_, hrefused,
    (hlines refused).2 rejection hrefused⟩
  simp [program, other, Program.getElem?_labels_append, Program.labelEnd, Program.label,
    Program.push]

end Grammar

end LineBasic
