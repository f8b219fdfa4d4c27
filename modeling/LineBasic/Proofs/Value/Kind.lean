import Mathlib.Data.List.Forall2
import LineBasic.Proofs.Value.Evaluation

/-!
# Kinds of values

A value is a number or a text, and which of them an expression has is told by its left spine alone:
an operator gives a text only if it joins to a text, so the value is a text if the leftmost atom is
one and all operators on the way to it join.  Behind a text such a chain writes its operands one
after the other.
-/

namespace LineBasic

/-- The value is a text. -/
def Value.IsText (value : Value) : Prop :=
  ∃ written, value = .text written

theorem Value.not_isText_iff {value : Value} : ¬ value.IsText ↔ ∃ x, value = .number x := by
  cases value with
  | number x => simp [IsText]
  | text written => simp [IsText]

/-- An operator gives a text only if it joins something to a text. -/
theorem Value.isText_iff_of_apply {op : Operator} {left right value : Value}
    (happly : left.apply op right = .ok value) : value.IsText ↔ left.IsText ∧ op = .plus := by
  have hnumbers : left.applyNumbers op right = .ok value → ¬ value.IsText := by
    rw [applyNumbers_eq_ok_iff]
    rintro ⟨x, y, -, -, rfl⟩
    simp [IsText]
  cases left with
  | number x => simpa [IsText] using hnumbers happly
  | text written =>
    rw [apply_text] at happly
    cases op with
    | plus =>
      cases happly
      simp [IsText]
    | equal | lessThan | greaterThan =>
      cases happly
      simp [IsText]
    | minus | multiply | divide => simpa using hnumbers happly

theorem Value.apply_plus_text (written : String) (right : Value) :
    (text written).apply .plus right = .ok (.text (written ++ right.write)) := rfl

namespace Expression

/-- The leftmost atom of an expression, which the first operands lead to. -/
def leftmost : Expression → Expression
  | .chain first _ => leftmost first
  | .number value => .number value
  | .string text => .string text
  | .var name => .var name

/-- The operators of the chains on the way to the leftmost atom. -/
def spine : Expression → List Operator
  | .chain first links => spine first ++ links.map Prod.fst
  | .number _ | .string _ | .var _ => []

/-- The atom is a string, or a variable whose value is a text. -/
inductive HoldsText (bindings : Bindings) : Expression → Prop where
  | string (text : String) : HoldsText bindings (.string text)
  | var {name : String} (htext : (bindings.get name).IsText) : HoldsText bindings (.var name)

/-- The operands of the links of a chain have these values. -/
def HaveValues (bindings : Bindings) (links : List (Operator × Expression))
    (values : List Value) : Prop :=
  links.Forall₂ (fun link value => link.2.evaluate bindings = .ok value) values

variable {bindings : Bindings} {first : Expression} {links : List (Operator × Expression)}
variable {error : NotANumber}

/-! ## The left spine -/

theorem isText_iff_of_evaluateLinks {left value : Value}
    (hvalue : evaluateLinks bindings left links = .ok value) :
    value.IsText ↔ left.IsText ∧ ∀ op ∈ links.map Prod.fst, op = .plus := by
  induction links generalizing left with
  | nil =>
    cases hvalue
    simp
  | cons link links ih =>
    obtain ⟨op, operand⟩ := link
    obtain ⟨right, middle, -, happly, hrest⟩ := evaluateLinks_cons_eq_ok_iff.mp hvalue
    rw [ih hrest, Value.isText_iff_of_apply happly, List.map_cons, List.forall_mem_cons, and_assoc]

/-- The kind of a value follows from the left spine of its expression. -/
theorem isText_iff_of_evaluate (e : Expression) {value : Value}
    (hvalue : e.evaluate bindings = .ok value) :
    value.IsText ↔ e.leftmost.HoldsText bindings ∧ ∀ op ∈ e.spine, op = .plus := by
  match e with
  | .number x =>
    cases hvalue
    simp only [leftmost, spine, Value.IsText]
    constructor
    · rintro ⟨written, htext⟩
      cases htext
    · rintro ⟨htext, -⟩
      cases htext
  | .string text =>
    cases hvalue
    simp [leftmost, spine, Value.IsText, HoldsText.string]
  | .var name =>
    cases hvalue
    simp only [leftmost, spine, List.not_mem_nil, false_implies, implies_true, and_true]
    constructor
    · exact .var
    · intro hholds
      cases hholds with
      | var htext => exact htext
  | .chain first links =>
    obtain ⟨left, hleft, hlinks⟩ := evaluate_chain_eq_ok_iff.mp hvalue
    rw [isText_iff_of_evaluateLinks hlinks, isText_iff_of_evaluate first hleft, leftmost, spine,
      List.forall_mem_append, and_assoc]

/-! ## Chains that join -/

/-- Joined to a text, operands are written one after the other. -/
theorem evaluateLinks_plus {values : List Value} (hvalues : HaveValues bindings links values)
    (hplus : ∀ link ∈ links, link.1 = .plus) (written : String) :
    evaluateLinks bindings (.text written) links =
      .ok (.text (written ++ String.join (values.map Value.write))) := by
  induction hvalues generalizing written with
  | nil => simp [evaluateLinks]
  | @cons link value links values hvalue hvalues ih =>
    obtain ⟨op, operand⟩ := link
    obtain ⟨rfl, hrest⟩ := List.forall_mem_cons.mp hplus
    rw [List.map_cons, String.join_cons, ← String.append_assoc]
    apply evaluateLinks_cons_eq_ok_iff.mpr
    exact ⟨value, _, hvalue, Value.apply_plus_text written value, ih hrest _⟩

theorem exists_haveValues
    (hvalues : ∀ link ∈ links, ∃ value, link.2.evaluate bindings = .ok value) :
    ∃ values, HaveValues bindings links values := by
  induction links with
  | nil => exact ⟨[], .nil⟩
  | cons link links ih =>
    obtain ⟨⟨value, hvalue⟩, hlinks⟩ := List.forall_mem_cons.mp hvalues
    obtain ⟨values, hvalues⟩ := ih hlinks
    exact ⟨value :: values, .cons hvalue hvalues⟩

/-- The links of a chain have a value only if their operands have values. -/
theorem exists_value_of_evaluateLinks {left value : Value}
    (hvalue : evaluateLinks bindings left links = .ok value) :
    ∀ link ∈ links, ∃ value, link.2.evaluate bindings = .ok value := by
  induction links generalizing left with
  | nil => simp
  | cons link links ih =>
    obtain ⟨op, operand⟩ := link
    obtain ⟨right, middle, hright, -, hrest⟩ := evaluateLinks_cons_eq_ok_iff.mp hvalue
    exact List.forall_mem_cons.mpr ⟨⟨right, hright⟩, ih hrest⟩

/-- Joining to a text fails only with the first operand that fails. -/
theorem evaluateLinks_plus_eq_error_iff (hplus : ∀ link ∈ links, link.1 = .plus)
    (written : String) : evaluateLinks bindings (.text written) links = .error error ↔
      ∃ front op operand back, links = front ++ (op, operand) :: back ∧
        (∀ link ∈ front, ∃ value, link.2.evaluate bindings = .ok value) ∧
        operand.evaluate bindings = .error error := by
  rw [evaluateLinks_eq_error_iff]
  constructor
  · rintro ⟨front, op, operand, back, middle, rfl, hfront, hfails⟩
    refine ⟨front, op, operand, back, rfl, exists_value_of_evaluateLinks hfront, ?_⟩
    apply hfails.resolve_right
    rintro ⟨right, -, happly⟩
    -- what stands left of the link is a text, which refuses nothing
    have hplus' : ∀ op ∈ front.map Prod.fst, op = .plus := by
      intro op hop
      obtain ⟨link, hlink, rfl⟩ := List.mem_map.mp hop
      exact hplus link (List.mem_append_left _ hlink)
    obtain ⟨joined, rfl⟩ := (isText_iff_of_evaluateLinks hfront).mpr ⟨⟨written, rfl⟩, hplus'⟩
    obtain rfl : op = .plus := hplus (op, operand) (by simp)
    rw [Value.apply_plus_text] at happly
    cases happly
  · rintro ⟨front, op, operand, back, rfl, hfront, herror⟩
    obtain ⟨values, hvalues⟩ := exists_haveValues hfront
    have hjoined := evaluateLinks_plus hvalues
      (fun link hlink => hplus link (List.mem_append_left _ hlink)) written
    exact ⟨front, op, operand, back, _, rfl, hjoined, .inl herror⟩

/-- The kind of a value is that of the leftmost atom of its expression, as long as everything on the
way to it is joined; otherwise it is a number.  Joined to a text, operands are written one after the
other, and a chain that does so fails only with the first operand that fails. -/
theorem kind_follows_left_spine (bindings : Bindings) :
    (∀ (e : Expression) (value : Value), e.evaluate bindings = .ok value →
      (value.IsText ↔ e.leftmost.HoldsText bindings ∧ ∀ op ∈ e.spine, op = .plus) ∧
      (¬ value.IsText → ∃ x, value = .number x)) ∧
    ∀ (first : Expression) (written : String) (links : List (Operator × Expression)),
      first.evaluate bindings = .ok (.text written) → (∀ link ∈ links, link.1 = .plus) →
      ((∃ value, (chain first links).evaluate bindings = .ok value) ↔
        ∀ link ∈ links, ∃ value, link.2.evaluate bindings = .ok value) ∧
      (∀ values, HaveValues bindings links values →
        (chain first links).evaluate bindings =
          .ok (.text (written ++ String.join (values.map Value.write)))) ∧
      (∀ error, (chain first links).evaluate bindings = .error error ↔
        ∃ front op operand back, links = front ++ (op, operand) :: back ∧
          (∀ link ∈ front, ∃ value, link.2.evaluate bindings = .ok value) ∧
          operand.evaluate bindings = .error error) ∧
      ∀ x, (chain first links).evaluate bindings ≠ .ok (.number x) := by
  constructor
  · intro e value hvalue
    exact ⟨isText_iff_of_evaluate e hvalue, Value.not_isText_iff.mp⟩
  · intro first written links hfirst hplus
    have hjoined : ∀ values, HaveValues bindings links values →
        (chain first links).evaluate bindings =
          .ok (.text (written ++ String.join (values.map Value.write))) := by
      intro values hvalues
      rw [evaluate_chain_of_eq_ok hfirst, evaluateLinks_plus hvalues hplus]
    have hoperands : ∀ value, (chain first links).evaluate bindings = .ok value →
        ∀ link ∈ links, ∃ value, link.2.evaluate bindings = .ok value := by
      intro value hvalue
      rw [evaluate_chain_of_eq_ok hfirst] at hvalue
      exact exists_value_of_evaluateLinks hvalue
    refine ⟨⟨?_, ?_⟩, hjoined, ?_, ?_⟩
    · rintro ⟨value, hvalue⟩
      exact hoperands value hvalue
    · intro hlinks
      obtain ⟨values, hvalues⟩ := exists_haveValues hlinks
      exact ⟨_, hjoined values hvalues⟩
    · intro error
      rw [evaluate_chain_of_eq_ok hfirst, evaluateLinks_plus_eq_error_iff hplus]
    · intro x hnumber
      obtain ⟨values, hvalues⟩ := exists_haveValues (hoperands _ hnumber)
      rw [hjoined values hvalues] at hnumber
      cases hnumber

/-- Operands that all look like numbers are joined to a text, from which a number is taken away. -/
theorem kind_follows_left_spine_digits :
    let bindings : Bindings := ({} : Bindings).assign "s" (.text "5")
    let links : List (Operator × Expression) := [(.plus, .number 3), (.plus, .string "2")]
    let less : Expression := .chain (.chain (.var "s") links) [(.minus, .number 1)]
    (chain (.var "s") links).evaluate bindings = .ok (.text "53.02") ∧
      (∀ x, (chain (.var "s") links).evaluate bindings ≠ .ok (.number x)) ∧
      ∃ value x, less.evaluate bindings = .ok value ∧ value = .number x := by
  intro bindings links less
  have hplus : ∀ link ∈ links, link.1 = .plus := by decide
  have hfirst : (var "s").evaluate bindings = .ok (.text "5") := by decide
  have hvalues : HaveValues bindings links [.number 3, .text "2"] := .cons rfl (.cons rfl .nil)
  have hless : less.evaluate bindings = .ok (.number 52.02) := by decide +kernel
  obtain ⟨hkind, hjoin⟩ := kind_follows_left_spine bindings
  obtain ⟨-, hjoined, -, hnever⟩ := hjoin (.var "s") "5" links hfirst hplus
  obtain ⟨hspine, hnumber⟩ := hkind less _ hless
  have hminus : ¬ ∀ op ∈ less.spine, op = .plus := by decide
  obtain ⟨x, hx⟩ := hnumber fun htext => hminus (hspine.mp htext).2
  refine ⟨?_, hnever, _, x, hless, hx⟩
  rw [hjoined _ hvalues]
  decide +kernel

end Expression

end LineBasic
