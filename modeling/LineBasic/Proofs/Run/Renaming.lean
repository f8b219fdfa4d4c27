import LineBasic.Proofs.Run.Dependence
import LineBasic.Proofs.Run.Lockstep

/-!
# Renaming variables and labels

Names only tell variables from each other, and labels from each other.  If the variables of a
program get new names, different ones for different variables, and so do its labels, then the
program goes in step with the one it was, on a machine that has the values under the new names.  The
two renamings have nothing to do with each other: a label may have the name of a variable.
-/

namespace LineBasic

namespace Expression

mutual

/-- The expression with new names for its variables. -/
def rename (toVar : String → String) : Expression → Expression
  | .number value => .number value
  | .string text => .string text
  | .var name => .var (toVar name)
  | .chain first links => .chain (rename toVar first) (renameLinks toVar links)

/-- The links of a chain with new names for their variables. -/
def renameLinks (toVar : String → String) :
    List (Operator × Expression) → List (Operator × Expression)
  | [] => []
  | (op, operand) :: links => (op, rename toVar operand) :: renameLinks toVar links

end

mutual

@[simp]
theorem rename_id (e : Expression) : e.rename id = e := by
  match e with
  | .number _ | .string _ | .var _ => rfl
  | .chain first links => rw [rename, rename_id first, renameLinks_id links]

@[simp]
theorem renameLinks_id (links : List (Operator × Expression)) : renameLinks id links = links := by
  match links with
  | [] => rfl
  | (op, operand) :: links => rw [renameLinks, rename_id operand, renameLinks_id links]

end

section Evaluation

variable {toVar : String → String} {one other : Bindings}

mutual

/-- An expression has the value under new names that it has under the old ones. -/
theorem evaluate_rename (hget : ∀ name, other.get (toVar name) = one.get name) (e : Expression) :
    (e.rename toVar).evaluate other = e.evaluate one := by
  match e with
  | .number _ => rfl
  | .string _ => rfl
  | .var name => rw [rename, evaluate, evaluate, hget]
  | .chain first links =>
    rw [rename, evaluate, evaluate, evaluate_rename hget first]
    simp only [evaluateLinks_rename hget links]

theorem evaluateLinks_rename (hget : ∀ name, other.get (toVar name) = one.get name)
    (links : List (Operator × Expression)) (left : Value) :
    evaluateLinks other left (renameLinks toVar links) = evaluateLinks one left links := by
  match links with
  | [] => rfl
  | (op, operand) :: links =>
    rw [renameLinks, evaluateLinks, evaluateLinks, evaluate_rename hget operand]
    simp only [evaluateLinks_rename hget links]

end

end Evaluation

end Expression

/-- The statement with new names for its variables and its label. -/
def Statement.rename (toVar toLabel : String → String) : Statement → Statement
  | .print e => .print (e.rename toVar)
  | .assign name e => .assign (toVar name) (e.rename toVar)
  | .jump condition label => .jump (condition.rename toVar) (toLabel label)

namespace Program

/-- The program with new names for its variables and its labels. -/
def rename (toVar toLabel : String → String) (program : Program) : Program where
  statements := program.statements.map (·.rename toVar toLabel)
  labels := .ofList (program.labels.toList.map fun entry => (toLabel entry.1, entry.2))

/-- The names of the variables that a program reads or assigns to. -/
def variableNames (program : Program) : List String :=
  program.statements.toList.flatMap fun statement =>
    statement.varNames ++ statement.target?.toList

/-- No label that is declared or that a jump names has the name of a variable. -/
structure SeparatesNames (program : Program) : Prop where
  labels : ∀ (name : String) (index : Nat), program.labels[name]? = some index →
    name ∉ program.variableNames
  jumps : ∀ (condition : Expression) (label : String),
    Statement.jump condition label ∈ program.statements → label ∉ program.variableNames

variable {program : Program} {toVar toLabel : String → String}

/-- The declared labels are the old ones under their new names. -/
theorem getElem?_labels_rename_eq_some_iff (hlabel : Function.Injective toLabel) {name : String}
    {index : Nat} :
    (program.rename toVar toLabel).labels[name]? = some index ↔
      ∃ old, name = toLabel old ∧ program.labels[old]? = some index := by
  let entries := program.labels.toList.map fun entry => (toLabel entry.1, entry.2)
  have hmem : ∀ {index}, (name, index) ∈ entries ↔
      ∃ old, name = toLabel old ∧ program.labels[old]? = some index := by
    intro index
    simp only [entries, List.mem_map, Prod.exists, Prod.mk.injEq,
      Std.ExtTreeMap.mem_toList_iff_getElem?_eq_some]
    constructor
    · rintro ⟨old, _, hold, rfl, rfl⟩
      exact ⟨old, rfl, hold⟩
    · rintro ⟨old, rfl, hold⟩
      exact ⟨old, index, hold, rfl, rfl⟩
  have hdistinct : entries.Pairwise fun one other => ¬ compare one.1 other.1 = .eq := by
    rw [List.pairwise_map]
    refine program.labels.distinct_keys_toList.imp fun hne heq => hne ?_
    exact Std.LawfulEqCmp.compare_eq_iff_eq.mpr (hlabel (Std.LawfulEqCmp.eq_of_compare heq))
  have hfound : ∀ {index}, (name, index) ∈ entries →
      (program.rename toVar toLabel).labels[name]? = some index :=
    fun hentry => Std.ExtTreeMap.getElem?_ofList_of_mem Std.ReflCmp.compare_self hdistinct hentry
  refine ⟨fun hindex => hmem.mp ?_, fun hold => hfound (hmem.mpr hold)⟩
  by_cases hkey : ∃ other, (name, other) ∈ entries
  · obtain ⟨other, hother⟩ := hkey
    rw [hfound hother, Option.some.injEq] at hindex
    rwa [hindex] at hother
  · have hkeys : (entries.map Prod.fst).contains name = false := by
      simpa using hkey
    rw [rename, Std.ExtTreeMap.getElem?_ofList_of_contains_eq_false hkeys] at hindex
    cases hindex

/-- A label has the index under its new name that it has under the old one. -/
theorem getElem?_labels_rename (hlabel : Function.Injective toLabel) (name : String) :
    (program.rename toVar toLabel).labels[toLabel name]? = program.labels[name]? := by
  apply Option.ext
  intro index
  rw [getElem?_labels_rename_eq_some_iff hlabel]
  constructor
  · rintro ⟨old, heq, hindex⟩
    rwa [hlabel heq]
  · intro hindex
    exact ⟨name, rfl, hindex⟩

/-- The names of the variables stay the same if only labels get new names. -/
theorem variableNames_rename_id (program : Program) (toLabel : String → String) :
    (program.rename id toLabel).variableNames = program.variableNames := by
  rw [variableNames, rename, Array.toList_map, List.flatMap_map, variableNames]
  congr 1
  funext statement
  cases statement <;> simp [Statement.rename, Statement.varNames, Statement.target?]

end Program

/-- There are new names for labels outside any list of names. -/
theorem exists_injective_notMem (names : List String) :
    ∃ toLabel : String → String, Function.Injective toLabel ∧ ∀ name, toLabel name ∉ names := by
  -- all new names are longer than the old ones together
  let long := 'x' :: (names.map String.toList).flatten
  refine ⟨fun name => String.ofList long ++ name, ?_, ?_⟩
  · intro one other heq
    simpa using heq
  · intro name hmem
    have hsublist := List.sublist_flatten_of_mem (List.mem_map_of_mem (f := String.toList) hmem)
    have hle := hsublist.length_le
    simp only [long, String.toList_append, String.toList_ofList, List.length_append,
      List.length_cons] at hle
    omega

namespace Machine

/-- The second machine has the values of the first one under new names. -/
structure Renamed (toVar : String → String) (one other : Machine) : Prop where
  counter : other.counter = one.counter
  sink : other.sink = one.sink
  get : ∀ name, other.bindings.get (toVar name) = one.bindings.get name

variable {program : Program} {statement : Statement} {one other after : Machine}
variable {toVar toLabel : String → String} {fault : Option Fault}

theorem jumpIndex?_rename (program : Program) (hlabel : Function.Injective toLabel)
    (hget : ∀ name, other.bindings.get (toVar name) = one.bindings.get name)
    (condition : Expression) (label : String) :
    jumpIndex? (program.rename toVar toLabel) other.bindings (condition.rename toVar)
        (toLabel label) =
      jumpIndex? program one.bindings condition label := by
  simp only [jumpIndex?, Program.getElem?_labels_rename hlabel, Expression.isTrue,
    Expression.evaluate_rename hget]

/-- A statement does under new names what it does under the old ones. -/
theorem Renamed.executes (hvar : Function.Injective toVar) (hlabel : Function.Injective toLabel)
    (hrenamed : Renamed toVar one other) (hexecutes : Executes program one statement after fault) :
    ∃ after', Executes (program.rename toVar toLabel) other (statement.rename toVar toLabel)
        after' fault ∧ Renamed toVar after after' := by
  have hvalues := Expression.evaluate_rename hrenamed.get
  have hjumps := jumpIndex?_rename program hlabel hrenamed.get
  obtain ⟨counter, bindings, sink⟩ := other
  obtain ⟨rfl, rfl, hget⟩ := hrenamed
  cases hexecutes with
  | printed hvalue hfits =>
    exact ⟨_, .printed ((hvalues _).trans hvalue) hfits, rfl, rfl, hget⟩
  | cut hvalue hfits =>
    exact ⟨_, .cut ((hvalues _).trans hvalue) hfits, rfl, rfl, hget⟩
  | printRefused herror =>
    exact ⟨_, .printRefused ((hvalues _).trans herror), rfl, rfl, hget⟩
  | @assigned assignee e value hvalue =>
    refine ⟨_, .assigned ((hvalues _).trans hvalue), rfl, rfl, fun name => ?_⟩
    rw [Bindings.get_assign, Bindings.get_assign, hget]
    simp only [hvar.eq_iff]
  | assignRefused herror =>
    exact ⟨_, .assignRefused ((hvalues _).trans herror), rfl, rfl, hget⟩
  | passed hjump => exact ⟨_, .passed ((hjumps _ _).trans hjump), rfl, rfl, hget⟩
  | jumped hjump => exact ⟨_, .jumped ((hjumps _ _).trans hjump), rfl, rfl, hget⟩
  | jumpRefused herror => exact ⟨_, .jumpRefused ((hjumps _ _).trans herror), rfl, rfl, hget⟩

theorem Renamed.next (hrenamed : Renamed toVar one other) : Renamed toVar one.next other.next :=
  ⟨congrArg (· + 1) hrenamed.counter, hrenamed.sink, hrenamed.get⟩

/-- The statement that corresponds to a statement is the one with the new names. -/
theorem lockstep_rename (hvar : Function.Injective toVar) (hlabel : Function.Injective toLabel)
    (program : Program) :
    Lockstep program (program.rename toVar toLabel)
      (fun statement renamed => renamed = statement.rename toVar toLabel) (Renamed toVar) where
  statements index := by
    rw [Program.rename, Array.getElem?_map]
    cases program.statements[index]? with
    | none => exact .none
    | some statement => exact .some rfl
  counter hrenamed := hrenamed.counter.symm
  executes := by
    rintro statement _ one other after fault rfl hrenamed hexecutes
    exact hrenamed.next.executes hvar hlabel hexecutes

/-- A program runs under new names as it runs under the old ones, given a number of statements. -/
def RunsUnder (toVar toLabel : String → String) (program : Program) (one other : Machine)
    (steps : Nat) : Prop :=
  RunsInStep (fun statement renamed => renamed = statement.rename toVar toLabel) (Renamed toVar)
    (visitsRun program steps one.rewind)
    (visitsRun (program.rename toVar toLabel) steps other.rewind)

/-- A program runs as it does under new names for its variables and its labels, on a machine with
the same sink that has the values under the new names.  So it runs as one whose labels have names
that none of its variables has. -/
theorem runs_under_new_names (program : Program) :
    (∀ toVar toLabel : String → String, Function.Injective toVar → Function.Injective toLabel →
      ∀ one other : Machine, other.sink = one.sink →
        (∀ name, other.bindings.get (toVar name) = one.bindings.get name) →
        ∀ steps, RunsUnder toVar toLabel program one other steps) ∧
    ∃ toLabel : String → String, Function.Injective toLabel ∧
      (program.rename id toLabel).SeparatesNames ∧
      ∀ (machine : Machine) (steps : Nat), RunsUnder id toLabel program machine machine steps := by
  constructor
  · intro toVar toLabel hvar hlabel one other hsink hget steps
    have hrenamed : Renamed toVar one.rewind other.rewind := ⟨rfl, hsink, hget⟩
    exact (lockstep_rename hvar hlabel program).runsInStep hrenamed steps
  · obtain ⟨toLabel, hlabel, houtside⟩ := exists_injective_notMem program.variableNames
    refine ⟨toLabel, hlabel, ⟨?_, ?_⟩, fun machine steps => ?_⟩
    · intro name index hindex
      obtain ⟨old, rfl, -⟩ := (Program.getElem?_labels_rename_eq_some_iff hlabel).mp hindex
      rw [Program.variableNames_rename_id]
      exact houtside old
    · intro condition label hjump
      rw [Program.variableNames_rename_id]
      obtain ⟨statement, -, hrename⟩ := Array.mem_map.mp hjump
      cases statement with
      | print | assign => cases hrename
      | jump =>
        cases hrename
        exact houtside _
    · exact (lockstep_rename Function.injective_id hlabel program).runsInStep
        ⟨rfl, rfl, fun _ => rfl⟩ steps

/-- A variable and a label of one name get two names. -/
theorem runs_under_new_names_shared_name :
    let refused : Statement := .print (.chain (.var "x") [(.minus, .var "x")])
    let program : Program := ⟨#[.assign "x" (.string "a"),
      .jump (.chain (.var "x") [(.equal, .var "x")]) "x", .print (.string "b"), refused],
      {("x", 3)}⟩
    let renamed : Program := program.rename ("v" ++ ·) ("l" ++ ·)
    let left := visitsRun program 9 ({} : Machine).rewind
    let right := visitsRun renamed 9 ({} : Machine).rewind
    left.ending = .failed ⟨3, refused, .notANumber ⟨"a"⟩⟩ ∧
      left.seen.map Visit.index = [0, 1, 3] ∧ right.seen.map Visit.index = [0, 1, 3] ∧
      RunsUnder ("v" ++ ·) ("l" ++ ·) program {} {} 9 ∧
      right.machine.bindings.get "vx" = .text "a" := by
  intro refused program renamed left right
  have hinjective : ∀ front : String, Function.Injective (front ++ ·) := by
    intro front one other heq
    simpa using heq
  have hruns : RunsUnder ("v" ++ ·) ("l" ++ ·) program {} {} 9 :=
    (runs_under_new_names program).1 _ _ (hinjective "v") (hinjective "l") {} {} rfl (by simp) 9
  have hindices : left.seen.map Visit.index = [0, 1, 3] := by rfl
  have hvalue : left.machine.bindings.get "x" = .text "a" := by rfl
  exact ⟨by rfl, hindices, hruns.indices ▸ hindices, hruns, (hruns.machine.get "x").trans hvalue⟩

end Machine

end LineBasic
