import LineBasic.Proofs.Grammar.Program
import LineBasic.Proofs.Listing.Statement

/-!
# Listings of programs

A listing is made of lines: the labels for an index, the statement at the index, and so on to the
labels for the end.  It is a text of the program that it lists.  Only where the chains of an
expression are as deep inside each other as they may be read, the parentheses of the listing are
one more than that, and it is rejected.
-/

namespace LineBasic

open Grammar Reading Cursor

/-- A line of a listing. -/
inductive Line where
  | label (name : String)
  | statement (statement : Statement)

namespace Line

/-- The item on the line. -/
def item : Line → Item
  | label name => .label name
  | statement listed => .statement listed

/-- The text of the line. -/
def listing : Line → String
  | label name => name
  | statement listed => listed.listing

/-- The tokens of the line. -/
def tokens : Line → List Token
  | label name => [⟨.word, name⟩]
  | statement listed => listed.tokens

/-- The line can be read. -/
def Legible : Line → Prop
  | label name => Token.IsWord name
  | statement listed => listed.Legible

/-- How many chains are inside each other on the line. -/
def chainDepth : Line → Nat
  | label _ => 0
  | statement listed => listed.expression.chainDepth

/-- The characters of lines, with a line break behind each. -/
def listingChars (lines : List Line) : List Char :=
  lines.flatMap fun line => line.listing.toList ++ ['\n']

/-- The tokens of lines, with a line break behind each. -/
def listingTokens (lines : List Line) : List Token :=
  lines.flatMap fun line => line.tokens ++ [⟨.lineBreak, "\n"⟩]

@[simp]
theorem listingChars_append (left right : List Line) :
    listingChars (left ++ right) = listingChars left ++ listingChars right :=
  List.flatMap_append

@[simp]
theorem listingTokens_cons (line : Line) (lines : List Line) :
    listingTokens (line :: lines) =
      line.tokens ++ ⟨.lineBreak, "\n"⟩ :: listingTokens lines := by
  simp [listingTokens]

/-! ## Reading lines -/

/-- Legible lines are listed with their tokens. -/
theorem scanFrom_listingChars {lines : List Line} (hlegible : ∀ line ∈ lines, line.Legible) :
    Token.scanFrom [] (listingChars lines) = listingTokens lines := by
  induction lines with
  | nil => simp [listingChars, listingTokens, Token.scanFrom]
  | cons line lines ih =>
    have hline := hlegible line (List.mem_cons_self ..)
    have hseparates := Token.separates_lineBreak (listingChars lines)
    have hbreak : Token.Kind.ofChar? '\n' = some .lineBreak := rfl
    have hchars : listingChars (line :: lines) =
        line.listing.toList ++ '\n' :: listingChars lines := by
      simp [listingChars]
    have hscan : Token.scanFrom [] (line.listing.toList ++ '\n' :: listingChars lines) =
        line.tokens ++ Token.scanFrom [] ('\n' :: listingChars lines) := by
      cases line with
      | label name => exact Token.scanFrom_word hline hseparates
      | statement statement => exact Statement.Legible.scanFrom hline hseparates
    rw [hchars, hscan, Token.scanFrom_of_ofChar? hbreak, listingTokens_cons,
      ih fun other hmem => hlegible other (List.mem_cons_of_mem line hmem)]
    rfl

theorem startsLine_append_lineBreak (before : List Token) :
    StartsLine (before ++ [⟨.lineBreak, "\n"⟩]) := by
  simp [StartsLine]

/-- A line that can be read adds its item. -/
theorem readItems_line {line : Line} (hlegible : line.Legible) (hdepth : line.chainDepth ≤ maxDepth)
    {before : List Token} (hbefore : StartsLine before) (program : Program) (after : List Token) :
    readItems program ⟨between before (line.tokens ++ ⟨.lineBreak, "\n"⟩ :: after), outset⟩ =
      readItems (addItem program line.item)
        ⟨between (before ++ line.tokens ++ [⟨.lineBreak, "\n"⟩]) after, outset⟩ := by
  have hitem : SpellsItem before line.item line.tokens (⟨.lineBreak, "\n"⟩ :: after) := by
    cases line with
    | label name => exact .label name hbefore (by simp [EndsLine])
    | statement statement =>
      exact .statement (Statement.Legible.spells hlegible hdepth
        (by simp [EndsExpression, IsOperatorKind]))
  have hbreak : SpellsItem (before ++ line.tokens) .lineBreak [⟨.lineBreak, "\n"⟩] after :=
    .lineBreak "\n" after
  rw [readItems_of_eq_some hitem.readItem]
  exact readItems_of_eq_some hbreak.readItem

/-- Lines that can be read add their items. -/
theorem readItems_lines {lines : List Line} (hlegible : ∀ line ∈ lines, line.Legible)
    (hdepth : ∀ line ∈ lines, line.chainDepth ≤ maxDepth) {before : List Token}
    (hbefore : StartsLine before) (program : Program) :
    ∃ state, readItems program ⟨between before (listingTokens lines), outset⟩ =
      .ok ((lines.map item).foldl addItem program, state) := by
  induction lines generalizing before program with
  | nil => exact ⟨_, readItems_of_not_startsItem (not_startsItem_nil before) program outset⟩
  | cons line lines ih =>
    rw [List.forall_mem_cons] at hlegible hdepth
    rw [listingTokens_cons, readItems_line hlegible.1 hdepth.1 hbefore]
    exact ih hlegible.2 hdepth.2 (startsLine_append_lineBreak _) (addItem program line.item)

/-- Lines are rejected if on one of them chains are too deep inside each other. -/
theorem readItems_lines_tooDeep {lines : List Line} (hlegible : ∀ line ∈ lines, line.Legible)
    (hdepth : ∃ line ∈ lines, maxDepth < line.chainDepth) {before : List Token}
    (hbefore : StartsLine before) (program : Program) :
    Expression.TooDeep (readItems program ⟨between before (listingTokens lines), outset⟩) := by
  induction lines generalizing before program with
  | nil =>
    obtain ⟨line, hmem, -⟩ := hdepth
    cases hmem
  | cons line lines ih =>
    rw [List.forall_mem_cons] at hlegible
    rw [listingTokens_cons]
    by_cases hline : line.chainDepth ≤ maxDepth
    · rw [readItems_line hlegible.1 hline hbefore]
      refine ih hlegible.2 ?_ (startsLine_append_lineBreak _) _
      obtain ⟨other, hmem, hother⟩ := hdepth
      obtain rfl | hmem := List.mem_cons.mp hmem
      · omega
      · exact ⟨other, hmem, hother⟩
    · cases line with
      | label name => exact absurd (Nat.zero_le _) hline
      | statement statement =>
        obtain ⟨rejection, herror, hcause⟩ :=
          Statement.Legible.tooDeep hlegible.1 (Nat.lt_of_not_le hline) before
            (⟨.lineBreak, "\n"⟩ :: listingTokens lines)
        exact ⟨rejection, readItems_of_eq_error herror, hcause⟩

end Line

namespace Program

variable {program : Program}

/-- The lines for an index: its labels, and the statement at the index if there is one. -/
def linesAt (program : Program) (index : Nat) : List Line :=
  (program.labelsAt index).map .label ++ program.statements[index]?.toList.map .statement

/-- The lines of a listing. -/
def lines (program : Program) : List Line :=
  (List.range (program.statements.size + 1)).flatMap program.linesAt

theorem label_mem_lines_iff {name : String} :
    .label name ∈ program.lines ↔
      ∃ index, index ≤ program.statements.size ∧ program.labels[name]? = some index := by
  simp only [lines, linesAt, List.mem_flatMap, List.mem_range, List.mem_append, List.mem_map,
    Line.label.injEq, exists_eq_right, mem_labelsAt, reduceCtorEq, and_false, exists_false,
    or_false, Nat.lt_succ_iff]

theorem statement_mem_lines_iff {statement : Statement} :
    .statement statement ∈ program.lines ↔ statement ∈ program.statements := by
  simp only [lines, linesAt, List.mem_flatMap, List.mem_range, List.mem_append, List.mem_map,
    Option.mem_toList, reduceCtorEq, and_false, exists_false, false_or, Line.statement.injEq,
    exists_eq_right, Array.mem_iff_getElem?]
  constructor
  · rintro ⟨index, -, hstatement⟩
    exact ⟨index, hstatement⟩
  · rintro ⟨index, hstatement⟩
    have hlt := (Array.getElem?_eq_some_iff.mp hstatement).1
    exact ⟨index, Nat.lt_succ_of_lt hlt, hstatement⟩

/-! ## The text of a listing -/

/-- A text that is made longer step by step. -/
theorem toList_foldl {α : Type} {extend : String → α → String} {added : α → List Char}
    (hextend : ∀ shown item, (extend shown item).toList = shown.toList ++ added item)
    (items : List α) (shown : String) :
    (items.foldl extend shown).toList = shown.toList ++ items.flatMap added := by
  induction items generalizing shown with
  | nil => simp
  | cons item items ih =>
    rw [List.foldl_cons, ih, hextend, List.flatMap_cons, List.append_assoc]

theorem toList_labelLinesAfter (shown : String) (index : Nat) :
    (program.labelLinesAfter shown index).toList =
      shown.toList ++ Line.listingChars ((program.labelsAt index).map .label) := by
  have hextend : ∀ (shown name : String),
      (shown ++ name ++ "\n").toList = shown.toList ++ (name.toList ++ ['\n']) := by
    intro shown name
    simp
  rw [labelLinesAfter, toList_foldl hextend, Line.listingChars, List.flatMap_map]
  rfl

/-- The listing of a program is made of its lines. -/
theorem toList_listing (program : Program) :
    program.listing.toList = Line.listingChars program.lines := by
  have hend : program.linesAt program.statements.size =
      (program.labelsAt program.statements.size).map .label := by
    simp [linesAt]
  rw [listing, toList_labelLinesAfter,
    @toList_foldl _ _ fun index => Line.listingChars (program.linesAt index)]
  · rw [lines, List.range_succ, List.flatMap_append, List.flatMap_singleton,
      Line.listingChars_append, hend]
    simp [Line.listingChars, List.flatMap_assoc]
  · intro shown index
    rw [linesAt]
    cases program.statements[index]? with
    | none => simp [toList_labelLinesAfter]
    | some statement => simp [toList_labelLinesAfter, Line.listingChars, Line.listing]

/-! ## The program that lines make up -/

theorem foldl_labels (names : List String) (program : Program) :
    ((names.map Item.label).foldl addItem program).statements = program.statements ∧
      ∀ name, ((names.map Item.label).foldl addItem program).labels[name]? =
        if name ∈ names then some program.statements.size else program.labels[name]? := by
  induction names generalizing program with
  | nil => simp
  | cons declared names ih =>
    obtain ⟨hstatements, hlabels⟩ := ih (program.labelEnd declared)
    refine ⟨hstatements, fun name => ?_⟩
    rw [List.map_cons, List.foldl_cons, addItem, hlabels]
    by_cases hdeclared : declared = name
    · subst hdeclared
      simp [labelEnd, label]
    · simp [hdeclared, Ne.symm hdeclared, labelEnd, label, Std.ExtTreeMap.getElem?_insert]

/-- The program is a part of another one: its first statements, and the labels for them. -/
structure IsPart (whole : Program) (count : Nat) (program : Program) : Prop where
  statements : program.statements.toList = whole.statements.toList.take count
  labels : ∀ (name : String) (index : Nat), program.labels[name]? = some index ↔
    whole.labels[name]? = some index ∧ index < count

theorem isPart_empty (whole : Program) : IsPart whole 0 {} where
  statements := by simp
  labels := by simp

/-- The lines for the next index make a part of a program longer. -/
theorem IsPart.succ {whole : Program} {count : Nat} (hpart : IsPart whole count program)
    (hcount : count ≤ whole.statements.size) :
    IsPart whole (count + 1) (((whole.linesAt count).map Line.item).foldl addItem program) := by
  have hsize : program.statements.size = count := by
    rw [← Array.length_toList, hpart.statements, List.length_take, Array.length_toList]
    omega
  have hitems : (whole.linesAt count).map Line.item =
      (whole.labelsAt count).map .label ++ whole.statements[count]?.toList.map .statement := by
    simp [linesAt, Line.item, Function.comp_def]
  obtain ⟨hstatements, hlabels⟩ := foldl_labels (whole.labelsAt count) program
  have hlabels : ∀ (name : String) (index : Nat),
      (((whole.labelsAt count).map Item.label).foldl addItem program).labels[name]? = some index ↔
        whole.labels[name]? = some index ∧ index < count + 1 := by
    intro name index
    rw [hlabels, hsize]
    by_cases hname : name ∈ whole.labelsAt count
    · rw [if_pos hname, mem_labelsAt.mp hname, Option.some.injEq]
      omega
    · rw [if_neg hname, hpart.labels]
      have hother : whole.labels[name]? = some index → index ≠ count := by
        rintro hindex rfl
        exact hname (mem_labelsAt.mpr hindex)
      constructor
      · rintro ⟨hindex, hlt⟩
        exact ⟨hindex, Nat.lt_succ_of_lt hlt⟩
      · rintro ⟨hindex, hlt⟩
        exact ⟨hindex, Nat.lt_of_le_of_ne (Nat.le_of_lt_succ hlt) (hother hindex)⟩
  rw [hitems, List.foldl_append]
  have htake : whole.statements.toList.take (count + 1) =
      whole.statements.toList.take count ++ whole.statements[count]?.toList := by
    rw [List.take_add_one, Array.getElem?_toList]
  cases hstatement : whole.statements[count]? with
  | none =>
    refine ⟨?_, hlabels⟩
    simp [htake, hstatement, hstatements, hpart.statements]
  | some statement =>
    refine ⟨?_, hlabels⟩
    simp [htake, hstatement, hstatements, hpart.statements, addItem, push]

theorem isPart_foldl (program : Program) {count : Nat}
    (hcount : count ≤ program.statements.size + 1) :
    IsPart program count
      ((((List.range count).flatMap program.linesAt).map Line.item).foldl addItem {}) := by
  induction count with
  | zero => exact isPart_empty program
  | succ count ih =>
    rw [List.range_succ, List.flatMap_append, List.flatMap_singleton, List.map_append,
      List.foldl_append]
    exact (ih (by omega)).succ (by omega)

/-- The lines of a program make it up again. -/
theorem foldl_lines (hinside : program.LabelsInside) :
    (program.lines.map Line.item).foldl addItem {} = program := by
  have hpart := isPart_foldl program (Nat.le_refl _)
  rw [← lines] at hpart
  generalize (program.lines.map Line.item).foldl addItem {} = part at hpart ⊢
  obtain ⟨statements, labels⟩ := part
  obtain ⟨whole, wholeLabels⟩ := program
  obtain ⟨hstatements, hlabels⟩ := hpart
  obtain rfl : statements = whole := by
    apply Array.toList_inj.mp
    rw [hstatements, List.take_of_length_le]
    simp
  obtain rfl : labels = wholeLabels := by
    apply Std.ExtTreeMap.ext_getElem?
    intro name
    apply Option.ext
    intro index
    rw [hlabels]
    exact and_iff_left_of_imp fun hindex => Nat.lt_succ_of_le (hinside name index hindex)
  rfl

/-! ## Programs that have been read -/

/-- The names and the statements of the program have spellings. -/
structure Legible (program : Program) : Prop where
  statements : ∀ statement ∈ program.statements, statement.Legible
  labels : ∀ (name : String) (index : Nat), program.labels[name]? = some index →
    Token.IsWord name
  inside : program.LabelsInside

/-- A program that has been read from a text is legible, if its numbers are finite. -/
theorem legible_of_ofSource {source : String} (hread : ofSource source = .ok program)
    (hfinite : ∀ statement ∈ program.statements, ∀ value ∈ statement.expression.numbers,
      Number.IsFinite value) : program.Legible := by
  obtain ⟨hinside, hstatements, hlabels⟩ := exists_spellsItem_of_ofTokens hread
  refine ⟨fun statement hmem => ?_, fun name index hlabel => ?_, hinside⟩
  · obtain ⟨before, own, after, hitem, hown⟩ := hstatements statement hmem
    obtain _ | _ | hspells := hitem
    have hspelled : ∀ token ∈ own, token.IsSpelled := fun token htoken =>
      Token.isSpelled_of_mem_scan (hown token htoken)
    exact Statement.legible_of_spellsStatement hspells hspelled (hfinite statement hmem)
  · obtain ⟨before, own, after, hitem, hown⟩ := hlabels name index hlabel
    obtain _ | ⟨hstart, hend⟩ | _ := hitem
    exact Token.isSpelled_of_mem_scan (hown _ (List.mem_singleton_self _))

/-- As many parentheses may be open, and the chain outside of them is one more. -/
theorem chainDepth_le_of_ofTokens {tokens : List Token} (hread : ofTokens tokens = .ok program) :
    ∀ statement ∈ program.statements, statement.expression.chainDepth ≤ maxDepth + 1 := by
  obtain ⟨-, hstatements, -⟩ := exists_spellsItem_of_ofTokens hread
  intro statement hmem
  obtain ⟨before, own, after, hitem, -⟩ := hstatements statement hmem
  obtain _ | _ | hspells := hitem
  exact Statement.chainDepth_le_of_spellsStatement hspells

theorem chainDepth_le_of_ofSource {source : String} (hread : ofSource source = .ok program) :
    ∀ statement ∈ program.statements, statement.expression.chainDepth ≤ maxDepth + 1 :=
  chainDepth_le_of_ofTokens hread

/-- The text of a statement that prints is read if its expression has at most one chain more than
the listing may have. -/
theorem ofSource_print_openListing {e : Expression} (hlegible : e.Legible)
    (hdepth : e.chainDepth ≤ maxDepth + 1) :
    ofSource ("print " ++ e.openListing) = .ok (({} : Program).push (.print e)) := by
  have hscan : Token.scan ("print " ++ e.openListing) = ⟨.word, "print"⟩ :: e.openTokens := by
    have hchars : ("print " ++ e.openListing).toList =
        "print".toList ++ ' ' :: (e.openListing.toList ++ []) := by
      simp
    have hend : Token.Separates [] := by simp [Token.Separates]
    rw [Token.scan, hchars, Token.scanFrom_word Statement.isWord_print (Token.separates_blank _),
      Token.scanFrom_blank, hlegible.scanFrom_openListing hend]
    simp [Token.scanFrom]
  have hvalue := hlegible.spells_openTokens hdepth
  have hitems : SpellsItems [] [.statement (.print e)]
      ((⟨.word, "print"⟩ :: e.openTokens) ++ []) [] :=
    .cons (.statement (.print hvalue endsExpression_nil)) (.nil _ _)
  have hread := hitems.ofTokens_eq_ok (not_startsItem_nil _)
  rw [List.append_nil, List.append_nil] at hread
  rw [ofSource, hscan, hread]
  rfl

/-! ## Listings that are read -/

theorem Legible.lines (hlegible : program.Legible) : ∀ line ∈ program.lines, line.Legible := by
  intro line hmem
  cases line with
  | label name =>
    obtain ⟨index, -, hlabel⟩ := label_mem_lines_iff.mp hmem
    exact hlegible.labels name index hlabel
  | statement statement =>
    exact hlegible.statements statement (statement_mem_lines_iff.mp hmem)

theorem Legible.scan_listing (hlegible : program.Legible) :
    Token.scan program.listing = Line.listingTokens program.lines := by
  rw [Token.scan, toList_listing, Line.scanFrom_listingChars hlegible.lines]

/-- The listing of a legible program is a text of it. -/
theorem Legible.ofSource_listing (hlegible : program.Legible)
    (hdepth : ∀ statement ∈ program.statements, statement.expression.chainDepth ≤ maxDepth) :
    ofSource program.listing = .ok program := by
  have hlines : ∀ line ∈ program.lines, line.chainDepth ≤ maxDepth := by
    intro line hmem
    cases line with
    | label name => exact Nat.zero_le _
    | statement statement => exact hdepth statement (statement_mem_lines_iff.mp hmem)
  have hread := Line.readItems_lines hlegible.lines hlines (by simp [StartsLine] : StartsLine []) {}
  rw [foldl_lines hlegible.inside] at hread
  rw [ofSource, hlegible.scan_listing]
  exact ofTokens_eq_ok_iff.mpr hread

/-- The listing of a legible program is rejected if chains are too deep inside each other. -/
theorem Legible.ofSource_listing_tooDeep (hlegible : program.Legible) {statement : Statement}
    (hmem : statement ∈ program.statements)
    (hdepth : maxDepth < statement.expression.chainDepth) :
    ∃ rejection, ofSource program.listing = .error rejection ∧
      rejection.cause = .tooDeeplyNested := by
  have hline : ∃ line ∈ program.lines, maxDepth < line.chainDepth :=
    ⟨.statement statement, statement_mem_lines_iff.mpr hmem, hdepth⟩
  obtain ⟨rejection, hread, hcause⟩ :=
    Line.readItems_lines_tooDeep hlegible.lines hline (by simp [StartsLine] : StartsLine []) {}
  rw [ofSource, hlegible.scan_listing]
  exact ⟨rejection, ofTokens_eq_error_iff.mpr hread, hcause⟩

/-- The listing of a program that has been read from a text is read as the program again, unless
there is a chain more inside each other than a listing may have parentheses.  There are programs
with such a chain, and their listings are rejected. -/
theorem ofSource_listing_of_ofSource :
    (∀ (source : String) (program : Program), ofSource source = .ok program →
      (∀ statement ∈ program.statements, ∀ value ∈ statement.expression.numbers,
        Number.IsFinite value) →
      (∀ statement ∈ program.statements, statement.expression.chainDepth ≤ 255) ∧
      ((∀ statement ∈ program.statements, statement.expression.chainDepth ≤ 254) →
        ofSource program.listing = .ok program) ∧
      ((∃ statement ∈ program.statements, statement.expression.chainDepth = 255) →
        ∃ rejection, ofSource program.listing = .error rejection ∧
          rejection.cause = .tooDeeplyNested)) ∧
    ∃ (source : String) (program : Program), ofSource source = .ok program ∧
      (∀ statement ∈ program.statements, ∀ value ∈ statement.expression.numbers,
        Number.IsFinite value) ∧
      ∃ statement ∈ program.statements, statement.expression.chainDepth = 255 := by
  refine ⟨fun source program hread hfinite => ⟨chainDepth_le_of_ofSource hread, ?_, ?_⟩, ?_⟩
  · intro hdepth
    exact (legible_of_ofSource hread hfinite).ofSource_listing hdepth
  · rintro ⟨statement, hmem, hdepth⟩
    have hdeep : maxDepth < statement.expression.chainDepth := by
      rw [hdepth]
      decide
    exact (legible_of_ofSource hread hfinite).ofSource_listing_tooDeep hmem hdeep
  · obtain ⟨e, hlegible, hnumbers, hdepth⟩ :
        ∃ e : Expression, e.Legible ∧ e.numbers = [] ∧ e.chainDepth = 255 :=
      ⟨.nestedSum 255, Expression.legible_nestedSum 255, Expression.numbers_nestedSum 255,
        Expression.chainDepth_nestedSum 255⟩
    have hread := ofSource_print_openListing hlegible (Nat.le_of_eq hdepth)
    refine ⟨_, _, hread, ?_, ⟨.print e, by simp [push], hdepth⟩⟩
    intro statement hmem value hvalue
    obtain rfl : statement = .print e := by simpa [push] using hmem
    rw [Statement.expression, hnumbers] at hvalue
    cases hvalue

/-- An apostrophe and a line break in a string do not end it. -/
theorem ofSource_listing_of_quoted :
    let program : Program := ({} : Program).push (.print (.string "it's\n"))
    ofSource "print \"it's\n\"" = .ok program ∧ ofSource program.listing = .ok program := by
  intro program
  have hquotable : Token.IsQuotable "it's\n" := by simp [Token.IsQuotable]
  have hread : ofSource "print \"it's\n\"" = .ok program :=
    ofSource_print_openListing (.string hquotable) (Nat.zero_le _)
  have hstatement : ∀ statement ∈ program.statements, statement = .print (.string "it's\n") := by
    simp [program, push]
  obtain ⟨-, hlisting, -⟩ := ofSource_listing_of_ofSource.1 _ _ hread (by
    intro statement hmem value hvalue
    rw [hstatement statement hmem] at hvalue
    cases hvalue)
  refine ⟨hread, hlisting fun statement hmem => ?_⟩
  rw [hstatement statement hmem]
  exact Nat.zero_le _

end Program

end LineBasic
