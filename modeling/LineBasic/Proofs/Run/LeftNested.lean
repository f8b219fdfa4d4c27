import LineBasic.Proofs.Run.Lockstep
import LineBasic.Proofs.Value.Evaluation

/-!
# Chains as trees

A chain stands for the tree of its operators that grows to the left: what stands left of an operator
is its left operand.  In the tree every chain has one link, whose left operand is the tree of all
that stands in front of it, and the tree has the value of the chain, or fails in the same way.  So a
program runs as it does with the trees of its expressions.
-/

namespace LineBasic

namespace Expression

mutual

/-- The tree of an expression that grows to the left. -/
def nest : Expression → Expression
  | .number value => .number value
  | .string text => .string text
  | .var name => .var name
  | .chain first links => nestLinks (nest first) links

/-- The tree of the links of a chain behind the tree of what stands left of them. -/
def nestLinks (tree : Expression) : List (Operator × Expression) → Expression
  | [] => tree
  | (op, operand) :: links => nestLinks (.chain tree [(op, nest operand)]) links

end

/-- Every chain in the expression has one link. -/
inductive IsBinary : Expression → Prop where
  | number (value : Float) : IsBinary (.number value)
  | string (text : String) : IsBinary (.string text)
  | var (name : String) : IsBinary (.var name)
  | chain {left right : Expression} (op : Operator) (hleft : IsBinary left)
      (hright : IsBinary right) : IsBinary (.chain left [(op, right)])

variable {bindings : Bindings}

/-! ## The shape of trees -/

mutual

theorem isBinary_nest (e : Expression) : e.nest.IsBinary := by
  match e with
  | .number value => exact .number value
  | .string text => exact .string text
  | .var name => exact .var name
  | .chain first links =>
    rw [nest]
    exact isBinary_nestLinks links (isBinary_nest first)

theorem isBinary_nestLinks (links : List (Operator × Expression)) {tree : Expression}
    (htree : tree.IsBinary) : (nestLinks tree links).IsBinary := by
  match links with
  | [] => exact htree
  | (op, operand) :: links =>
    rw [nestLinks]
    exact isBinary_nestLinks links (.chain op htree (isBinary_nest operand))

end

theorem nestLinks_append (tree : Expression) (links more : List (Operator × Expression)) :
    nestLinks tree (links ++ more) = nestLinks (nestLinks tree links) more := by
  induction links generalizing tree with
  | nil => rfl
  | cons link links ih => exact ih (.chain tree [(link.1, link.2.nest)])

/-- The last operator of a chain is the root of its tree. -/
theorem nest_chain_concat (first operand : Expression) (links : List (Operator × Expression))
    (op : Operator) :
    (chain first (links ++ [(op, operand)])).nest =
      .chain (chain first links).nest [(op, operand.nest)] := by
  rw [nest, nest, nestLinks_append]
  rfl

example : (chain (.var "a") [(.minus, .var "b"), (.minus, .chain (.var "c") [])]).nest =
    .chain (.chain (.var "a") [(.minus, .var "b")]) [(.minus, .var "c")] := rfl

/-! ## The value of a tree -/

theorem evaluate_chain_cons_congr {operand other : Expression}
    (hoperand : operand.evaluate bindings = other.evaluate bindings) (first : Expression)
    (op : Operator) (links : List (Operator × Expression)) :
    (chain first ((op, operand) :: links)).evaluate bindings =
      (chain first ((op, other) :: links)).evaluate bindings := by
  simp only [evaluate, evaluateLinks, hoperand]

mutual

/-- The tree of an expression has the value of the expression, or fails in the same way. -/
theorem evaluate_nest (e : Expression) : e.nest.evaluate bindings = e.evaluate bindings := by
  match e with
  | .number _ | .string _ | .var _ => rfl
  | .chain first links =>
    calc (chain first links).nest.evaluate bindings
        = (chain first.nest links).evaluate bindings := by
          rw [nest, evaluate_nestLinks first.nest links]
      _ = (chain first links).evaluate bindings := by
          rw [evaluate, evaluate, evaluate_nest first]

theorem evaluate_nestLinks (tree : Expression) (links : List (Operator × Expression)) :
    (nestLinks tree links).evaluate bindings = (chain tree links).evaluate bindings := by
  match links with
  | [] => exact (evaluate_chain_nil tree).symm
  | (op, operand) :: links =>
    -- the first link goes into the tree that the other links stand behind
    calc (nestLinks tree ((op, operand) :: links)).evaluate bindings
        = (chain (.chain tree [(op, operand.nest)]) links).evaluate bindings := by
          rw [nestLinks, evaluate_nestLinks _ links]
      _ = (chain tree ((op, operand.nest) :: links)).evaluate bindings :=
          (evaluate_chain_append tree [(op, operand.nest)] links).symm
      _ = (chain tree ((op, operand) :: links)).evaluate bindings :=
          evaluate_chain_cons_congr (evaluate_nest operand) tree op links

end

end Expression

/-! ## Runs with trees -/

/-- The statement with the tree of its expression. -/
def Statement.nest : Statement → Statement
  | .print e => .print e.nest
  | .assign name e => .assign name e.nest
  | .jump condition label => .jump condition.nest label

/-- The program with the trees of its expressions. -/
def Program.nest (program : Program) : Program :=
  { program with statements := program.statements.map Statement.nest }

namespace Machine

theorem jumpIndex?_nest (program : Program) (bindings : Bindings) (condition : Expression)
    (label : String) :
    jumpIndex? program.nest bindings condition.nest label =
      jumpIndex? program bindings condition label := by
  simp only [jumpIndex?, Expression.isTrue, Expression.evaluate_nest, Program.nest]

theorem execute_nest (program : Program) (statement : Statement) (machine : Machine) :
    execute program.nest statement.nest machine = execute program statement machine := by
  cases statement with
  | print | assign => simp only [Statement.nest, execute, Expression.evaluate_nest]
  | jump => simp only [Statement.nest, execute, jumpIndex?_nest]

/-- A program goes in step with the program of its trees, on the same machine. -/
theorem lockstep_nest (program : Program) :
    Lockstep program program.nest (fun statement nested => nested = statement.nest) Eq where
  statements index := by
    rw [Program.nest, Array.getElem?_map]
    cases program.statements[index]? with
    | none => exact .none
    | some statement => exact .some rfl
  counter heq := congrArg counter heq
  executes := by
    rintro statement _ machine _ after fault rfl rfl hexecutes
    rw [executes_iff] at hexecutes
    exact ⟨after, by rw [executes_iff, execute_nest, hexecutes], rfl⟩

/-- A chain stands for the tree of its operators that grows to the left: the tree has the value of
the chain or fails in the same way, as does the chain whose first operand is a part of it.  So
programs run as they do with the trees of their expressions: they visit the same indices, end in the
same way, and leave the same machine. -/
theorem chains_mean_left_nested_trees :
    (∀ first : Expression, (Expression.chain first []).nest = first.nest) ∧
    (∀ (first operand : Expression) (links : List (Operator × Expression)) (op : Operator),
      (Expression.chain first (links ++ [(op, operand)])).nest =
        .chain (Expression.chain first links).nest [(op, operand.nest)]) ∧
    (∀ e : Expression, e.nest.IsBinary ∧
      ∀ bindings, e.nest.evaluate bindings = e.evaluate bindings) ∧
    (∀ (bindings : Bindings) (first : Expression) (links more : List (Operator × Expression)),
      (Expression.chain first (links ++ more)).evaluate bindings =
        (Expression.chain (.chain first links) more).evaluate bindings) ∧
    ∀ (program : Program) (machine : Machine),
      (∀ steps, RunsInStep (fun statement nested => nested = statement.nest) Eq
        (visitsRun program steps machine) (visitsRun program.nest steps machine)) ∧
      (run program machine).ending.Alike (fun statement nested => nested = statement.nest)
        (run program.nest machine).ending ∧
      (run program machine).machine = (run program.nest machine).machine := by
  refine ⟨fun first => rfl, Expression.nest_chain_concat, ?_, ?_, ?_⟩
  · intro e
    exact ⟨e.isBinary_nest, fun bindings => e.evaluate_nest⟩
  · intro bindings first links more
    exact Expression.evaluate_chain_append first links more
  · intro program machine
    exact ⟨fun steps => (lockstep_nest program).runsInStep rfl steps,
      (lockstep_nest program).run_alike rfl⟩

end Machine

end LineBasic
