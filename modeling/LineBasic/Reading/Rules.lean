/-!
# Rules

While tokens are read, rules of the grammar are being followed, one inside the other.  They are kept
on one stack for all that is read: a rule is pushed where its reading begins and popped where it
ends.  The depth of the stack limits how deep parentheses are nested.
-/

namespace LineBasic

/-- The rules of the grammar of programs. -/
inductive Rule where
  | program
  | statement
  | assignment
  | print
  | conditional
  | expression
  | atomic
deriving DecidableEq, Repr, Inhabited

/-- The name of a rule in messages. -/
def Rule.name : Rule → String
  | program => "program"
  | statement => "statement"
  | assignment => "assignment"
  | print => "print_statement"
  | conditional => "if_statement"
  | expression => "expression"
  | atomic => "atomic"

/-- The rules that are being followed, one inside the other. -/
structure RuleStack where
  /-- The rules, the innermost first. -/
  entries : List Rule := []
deriving DecidableEq, Repr, Inhabited

namespace RuleStack

/-- The depth from which on no further parenthesis may be opened. -/
def limit : Nat := 512

/-- Goes into a rule. -/
def push (rules : RuleStack) (rule : Rule) : RuleStack :=
  ⟨rule :: rules.entries⟩

/-- Goes out of the innermost rule. -/
def pop (rules : RuleStack) : RuleStack :=
  match rules.entries with
  | [] => rules
  | _ :: outer => ⟨outer⟩

/-- The number of rules. -/
def depth (rules : RuleStack) : Nat :=
  rules.entries.length

/-- No further parenthesis may be opened. -/
def isFull (rules : RuleStack) : Bool :=
  limit ≤ rules.depth

/-- The rules, the outermost first. -/
def path (rules : RuleStack) : List Rule :=
  rules.entries.reverse

@[simp]
theorem pop_push (rules : RuleStack) (rule : Rule) : (rules.push rule).pop = rules := rfl

theorem entries_pop_suffix (rules : RuleStack) : rules.pop.entries <:+ rules.entries := by
  obtain ⟨_ | ⟨rule, outer⟩⟩ := rules
  · exact List.suffix_refl _
  · exact List.suffix_cons rule outer

@[simp]
theorem depth_push (rules : RuleStack) (rule : Rule) :
    (rules.push rule).depth = rules.depth + 1 := rfl

@[simp]
theorem path_push (rules : RuleStack) (rule : Rule) :
    (rules.push rule).path = rules.path ++ [rule] := by
  simp [path, push]

@[simp]
theorem length_path (rules : RuleStack) : rules.path.length = rules.depth := by
  simp [path, depth]

@[simp]
theorem isFull_eq_true_iff {rules : RuleStack} : rules.isFull = true ↔ limit ≤ rules.depth := by
  simp [isFull]

end RuleStack

end LineBasic
