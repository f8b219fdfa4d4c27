import Mathlib.Data.List.Nodup
import LineBasic.Proofs.Listing.Program
import LineBasic.Proofs.Text.NameTable

/-!
# Labels in listings

A listing goes through the indices of a program in ascending order and shows the labels for each of
them in front of the statement there, and those for the end behind the last statement.  So every
label for a statement or for the end is shown once, and labels behind the end are not shown.  The
labels for an index are sorted, so the listing tells nothing of the order in which they have been
declared or are kept.
-/

namespace LineBasic

namespace Line

/-- The label on the line. -/
def label? : Line → Option String
  | label name => some name
  | statement _ => none

/-- The statement on the line. -/
def statement? : Line → Option Statement
  | label _ => none
  | statement listed => some listed

/-- The text of lines, with a line break behind each. -/
def text (lines : List Line) : String :=
  String.join (lines.map fun line => line.listing ++ "\n")

theorem toList_text (lines : List Line) : (text lines).toList = listingChars lines := by
  simp [text, listingChars, List.flatMap_map]

@[simp]
theorem filterMap_label?_map_label (names : List String) :
    (names.map label).filterMap label? = names := by
  simp [List.filterMap_map, Function.comp_def, label?]

@[simp]
theorem filterMap_statement?_map_label (names : List String) :
    (names.map label).filterMap statement? = [] := by
  simp [List.filterMap_map, Function.comp_def, statement?]

@[simp]
theorem filterMap_label?_map_statement (statements : List Statement) :
    (statements.map statement).filterMap label? = [] := by
  simp [List.filterMap_map, Function.comp_def, label?]

@[simp]
theorem filterMap_statement?_map_statement (statements : List Statement) :
    (statements.map statement).filterMap statement? = statements := by
  simp [List.filterMap_map, Function.comp_def, statement?]

end Line

namespace Program

variable {program other : Program} {name : String} {index : Nat}

/-! ## The labels for an index -/

theorem pairwise_labelsAt (program : Program) (index : Nat) :
    (program.labelsAt index).Pairwise (· < ·) :=
  ((Text.pairwise_toList program.labels).filter _).map _ fun _ _ hlt => hlt

/-- The labels for an index are its names in the table, in whatever order the table is gone through,
behind a sort by bytes. -/
theorem eq_labelsAt_of_perm {entries : List (String × Nat)} {names : List String}
    (hentries : entries.Perm program.labels.toList)
    (hnames : names.Perm ((entries.filter (·.2 = index)).map (·.1)))
    (hsorted : names.Pairwise fun name other => Text.bytes name ≤ Text.bytes other) :
    names = program.labelsAt index := by
  have hperm : names.Perm (program.labelsAt index) :=
    hnames.trans ((hentries.filter _).map _)
  exact Text.eq_of_perm_of_pairwise_bytes (program.pairwise_labelsAt index) hperm hsorted

/-! ## The lines of a listing -/

theorem listing_eq_text (program : Program) : program.listing = Line.text program.lines := by
  rw [← String.toList_inj, toList_listing, Line.toList_text]

theorem filterMap_label?_linesAt (program : Program) (index : Nat) :
    (program.linesAt index).filterMap Line.label? = program.labelsAt index := by
  simp [linesAt, -List.filterMap_map]

theorem filterMap_statement?_linesAt (program : Program) (index : Nat) :
    (program.linesAt index).filterMap Line.statement? = program.statements[index]?.toList := by
  simp [linesAt, -List.filterMap_map]

/-- The labels for all statements and for the end are listed. -/
theorem filterMap_label?_lines (program : Program) :
    program.lines.filterMap Line.label? =
      (List.range (program.statements.size + 1)).flatMap program.labelsAt := by
  simp only [lines, List.filterMap_flatMap, filterMap_label?_linesAt]

theorem mem_filterMap_label?_lines_iff :
    name ∈ program.lines.filterMap Line.label? ↔
      ∃ index, index ≤ program.statements.size ∧ program.labels[name]? = some index := by
  simp only [filterMap_label?_lines, List.mem_flatMap, List.mem_range, mem_labelsAt,
    Nat.lt_succ_iff]

/-- No label is listed twice. -/
theorem nodup_filterMap_label?_lines (program : Program) :
    (program.lines.filterMap Line.label?).Nodup := by
  rw [filterMap_label?_lines, List.nodup_flatMap]
  constructor
  · intro index _
    exact (program.pairwise_labelsAt index).imp ne_of_lt
  · apply List.pairwise_lt_range.imp
    intro index behind hlt name hname hbehind
    rw [mem_labelsAt] at hname hbehind
    rw [hname, Option.some_inj] at hbehind
    exact absurd hbehind (Nat.ne_of_lt hlt)

/-- The lines for the indices in front of one hold the statements in front of it. -/
theorem filterMap_statement?_range (program : Program) (index : Nat) :
    ((List.range index).flatMap program.linesAt).filterMap Line.statement? =
      program.statements.toList.take index := by
  induction index with
  | zero => rfl
  | succ index ih =>
    rw [List.range_succ, List.flatMap_append, List.filterMap_append, ih, List.flatMap_singleton,
      filterMap_statement?_linesAt, List.take_add_one, Array.getElem?_toList]

theorem lines_eq (program : Program) :
    program.lines = (List.range program.statements.size).flatMap program.linesAt ++
      (program.labelsAt program.statements.size).map .label := by
  rw [lines, List.range_succ, List.flatMap_append, List.flatMap_singleton]
  congr 1
  simp [linesAt]

/-- Behind the labels for an index stands its statement, or nothing if it is the end. -/
theorem exists_lines_eq (hindex : index ≤ program.statements.size) :
    ∃ back, program.lines = (List.range index).flatMap program.linesAt ++
        ((program.labelsAt index).map .label ++ back) ∧
      back.head? = program.statements[index]?.map .statement := by
  have hrange : List.range (program.statements.size + 1) =
      List.range index ++ index :: (List.range (program.statements.size - index)).map
        (index + 1 + ·) := by
    rw [List.append_cons, ← List.range_succ, ← List.range_add]
    congr 1
    omega
  refine ⟨program.statements[index]?.toList.map .statement ++
    ((List.range (program.statements.size - index)).map (index + 1 + ·)).flatMap program.linesAt,
    ?_, ?_⟩
  · rw [lines, hrange, List.flatMap_append, List.flatMap_cons, linesAt, List.append_assoc]
  · rcases Nat.lt_or_eq_of_le hindex with hlt | rfl
    · simp [hlt]
    · simp

/-- A line for a label for the index stands behind the statements in front of the index.  Only
other labels for the index stand between it and the statement there, or the end. -/
def IsPlaced (program : Program) (name : String) (index : Nat) : Prop :=
  ∃ (front : List Line) (names : List String) (back : List Line),
    program.lines = front ++ .label name :: (names.map .label ++ back) ∧
    front.filterMap Line.statement? = program.statements.toList.take index ∧
    (∀ other ∈ names, program.labels[other]? = some index) ∧
    back.head? = program.statements[index]?.map .statement

theorem isPlaced_of_getElem?_labels (hlabel : program.labels[name]? = some index)
    (hindex : index ≤ program.statements.size) : program.IsPlaced name index := by
  obtain ⟨back, hlines, hback⟩ := exists_lines_eq hindex
  obtain ⟨before, names, hnames⟩ := List.append_of_mem (mem_labelsAt.mpr hlabel)
  refine ⟨(List.range index).flatMap program.linesAt ++ before.map .label, names, back, ?_, ?_,
    ?_, hback⟩
  · rw [hlines, hnames]
    simp
  · rw [List.filterMap_append, filterMap_statement?_range, Line.filterMap_statement?_map_label,
      List.append_nil]
  · intro other hother
    rw [← mem_labelsAt, hnames]
    exact List.mem_append_right _ (List.mem_cons_of_mem _ hother)

/-! ## Declarations in any order -/

/-- The program with labels that are declared one after the other. -/
def declare (program : Program) (entries : List (String × Nat)) : Program :=
  entries.foldl (fun program entry => program.label entry.1 entry.2) program

theorem declare_eq (program : Program) (entries : List (String × Nat)) :
    program.declare entries =
      ⟨program.statements,
        entries.foldl (fun table entry => table.insert entry.1 entry.2) program.labels⟩ := by
  induction entries generalizing program with
  | nil => rfl
  | cons entry entries ih => exact ih (program.label entry.1 entry.2)

/-- A label that is declared several times names its latest index. -/
theorem getElem?_labels_declare (statements : Array Statement) (entries : List (String × Nat))
    (name : String) :
    (declare ⟨statements, ∅⟩ entries).labels[name]? = Text.latest? entries name := by
  rw [declare_eq, Text.getElem?_foldl_insert]
  simp

/-- There is one program with given statements and an index for each label. -/
theorem eq_of_getElem?_labels (hstatements : other.statements = program.statements)
    (hlabels : ∀ name : String, other.labels[name]? = program.labels[name]?) : other = program := by
  obtain ⟨statements, labels⟩ := program
  obtain ⟨_, otherLabels⟩ := other
  obtain rfl := hstatements
  congr 1
  apply Std.ExtTreeMap.ext_getElem?
  intro name
  exact hlabels name

/-! ## The listing of a program -/

/-- A listing shows the labels of a program in their places. -/
structure ListsLabels (program : Program) : Prop where
  /-- The labels for an index are in ascending order by code points. -/
  ascending : ∀ index, (program.labelsAt index).Pairwise fun name other =>
    Text.codePoints name < Text.codePoints other
  /-- The labels for an index are those that the table gives this index. -/
  mem_labelsAt : ∀ index name, name ∈ program.labelsAt index ↔ program.labels[name]? = some index
  /-- It makes no difference in which order the table is gone through before they are sorted. -/
  sorted : ∀ (index : Nat) (entries : List (String × Nat)) (names : List String),
    entries.Perm program.labels.toList → names.Perm ((entries.filter (·.2 = index)).map (·.1)) →
    (names.Pairwise fun name other => Text.bytes name ≤ Text.bytes other) →
    names = program.labelsAt index
  /-- The listing is the text of its lines. -/
  listing : program.listing = Line.text program.lines
  /-- The lines for each statement are followed by those for the end. -/
  lines : program.lines = ((List.range program.statements.size).flatMap fun index =>
      (program.labelsAt index).map .label ++ program.statements[index]?.toList.map .statement) ++
    (program.labelsAt program.statements.size).map .label
  /-- No label is shown twice. -/
  nodup : (program.lines.filterMap Line.label?).Nodup
  /-- The labels that are shown are those up to the end. -/
  mem_lines : ∀ name, name ∈ program.lines.filterMap Line.label? ↔
    ∃ index, index ≤ program.statements.size ∧ program.labels[name]? = some index
  /-- Each of them is in its place. -/
  placed : ∀ (name : String) (index : Nat), program.labels[name]? = some index →
    index ≤ program.statements.size → program.IsPlaced name index

theorem listsLabels (program : Program) : program.ListsLabels where
  ascending index := (program.pairwise_labelsAt index).imp fun hlt => Text.strictMono_codePoints hlt
  mem_labelsAt _ _ := mem_labelsAt
  sorted _ _ _ := eq_labelsAt_of_perm
  listing := program.listing_eq_text
  lines := program.lines_eq
  nodup := program.nodup_filterMap_label?_lines
  mem_lines _ := mem_filterMap_label?_lines_iff
  placed _ _ := isPlaced_of_getElem?_labels

/-- The listing of a program shows each label for a statement or for the end once, in its place, and
no other one.  Programs with the same statements and the same label for each name have the same
listing, in whatever order their labels have been declared. -/
theorem listing_shows_labels_once :
    (∀ program : Program, program.ListsLabels) ∧
    (∀ program other : Program, other.statements = program.statements →
      (∀ name : String, other.labels[name]? = program.labels[name]?) →
      other.listing = program.listing) ∧
    ∀ (statements : Array Statement) (entries others : List (String × Nat)),
      (∀ name, (declare ⟨statements, ∅⟩ entries).labels[name]? = Text.latest? entries name) ∧
      ((∀ name, Text.latest? entries name = Text.latest? others name) →
        (declare ⟨statements, ∅⟩ entries).listing =
          (declare ⟨statements, ∅⟩ others).listing) := by
  refine ⟨listsLabels, ?_, ?_⟩
  · intro program other hstatements hlabels
    rw [eq_of_getElem?_labels hstatements hlabels]
  · intro statements entries others
    have hlabels := getElem?_labels_declare statements
    refine ⟨hlabels entries, fun hlatest => ?_⟩
    have hsame : declare ⟨statements, ∅⟩ entries = declare ⟨statements, ∅⟩ others := by
      apply eq_of_getElem?_labels
      · rw [declare_eq, declare_eq]
      · intro name
        rw [hlabels, hlabels, hlatest]
    rw [hsame]

/-- Two labels for one index, one for the end, one behind it, and one that is declared again. -/
theorem listing_shows_labels_once_declared_twice :
    let entries := [("a", 5), ("z", 1), ("b", 0), ("y", 3), ("a", 0)]
    let others := [("a", 0), ("b", 0), ("y", 3), ("z", 1)]
    let program := declare ⟨#[.print (.string "x")], ∅⟩ entries
    program.listing = "a\nb\nprint \"x\"\nz\n" ∧ program.ListsLabels ∧
      (declare ⟨#[.print (.string "x")], ∅⟩ others).listing = program.listing := by
  intro entries others program
  obtain ⟨hlists, -, hdeclared⟩ := listing_shows_labels_once
  have hlatest : ∀ name, Text.latest? others name = Text.latest? entries name := by
    intro name
    by_cases hname : name ∈ ["a", "b", "y", "z"]
    · have hcases : name = "a" ∨ name = "b" ∨ name = "y" ∨ name = "z" := by simpa using hname
      rcases hcases with rfl | rfl | rfl | rfl <;> rfl
    · have hothers : Text.latest? others name = none := Text.latest?_eq_none_iff.mpr hname
      rw [hothers, eq_comm, Text.latest?_eq_none_iff]
      simpa [entries, and_comm, and_assoc, and_left_comm] using hname
  exact ⟨by decide +kernel, hlists program, (hdeclared _ others entries).2 hlatest⟩

end Program

end LineBasic
