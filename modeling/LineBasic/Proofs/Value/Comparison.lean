import LineBasic.Proofs.Number.Order
import LineBasic.Proofs.Text.ByteOrder
import LineBasic.Proofs.Value.Kind
import LineBasic.Proofs.Value.Refusal

/-!
# Comparisons

The three comparisons of two values tell one order of them, or are refused for one text.  Behind a
text it is the order of what is written.  Behind a number it is the order of numbers, which is none
if one of them is not a number, and then no comparison holds.
-/

namespace LineBasic

/-- The order that a comparison asks for. -/
def Operator.asked? : Operator → Option Ordering
  | equal => some .eq
  | lessThan => some .lt
  | greaterThan => some .gt
  | plus | minus | multiply | divide => none

/-- The comparisons of two values tell this order of them: the comparison that asks for it gives one
and the others give zero, as all of them do if there is no order. -/
def Value.ComparesAs (left right : Value) (order : Option Ordering) : Prop :=
  ∀ op asked, Operator.asked? op = some asked →
    left.apply op right = .ok (.number (truth (order = some asked)))

theorem truth_eq_one_iff {holds : Bool} : truth holds = 1 ↔ holds = true := by
  cases holds <;> decide +kernel

theorem Operator.onNumbers_of_asked {op : Operator} {asked : Ordering}
    (hasked : op.asked? = some asked) (x y : Float) :
    op.onNumbers x y = truth (Number.order? x y = some asked) := by
  cases op with
  | equal =>
    cases hasked
    apply congrArg truth
    rw [Bool.eq_iff_iff, decide_eq_true_iff]
    exact Number.beq_iff
  | lessThan =>
    cases hasked
    simp only [onNumbers, Number.lt_iff]
  | greaterThan =>
    cases hasked
    simp only [onNumbers, Number.gt_iff]
  | plus | minus | multiply | divide => cases hasked

namespace Value

variable {left middle right : Value} {order : Option Ordering}

/-! ## The order that comparisons tell -/

theorem comparesAs_text {written : String} {order : Ordering}
    (horder : order.Compares written right.write) :
    (text written).ComparesAs right (some order) := by
  intro op asked hasked
  rw [apply_text]
  cases op with
  | equal =>
    cases hasked
    simp only [Operator.onTexts?, Option.some_inj, horder.eq_eq]
  | lessThan =>
    cases hasked
    simp only [Operator.onTexts?, Option.some_inj, horder.eq_lt]
  | greaterThan =>
    cases hasked
    simp only [Operator.onTexts?, Option.some_inj, horder.eq_gt, gt_iff_lt]
  | plus | minus | multiply | divide => cases hasked

theorem comparesAs_number {x y : Float} (hright : right.toNumber = .ok y) :
    (number x).ComparesAs right (Number.order? x y) := by
  intro op asked hasked
  rw [apply_number, applyNumbers_eq_ok_iff, ← Operator.onNumbers_of_asked hasked]
  exact ⟨x, y, rfl, hright, rfl⟩

/-- The comparisons are refused together, or they tell an order. -/
theorem refused_or_comparesAs (left right : Value) :
    (∃ error, ∀ op asked, Operator.asked? op = some asked → left.apply op right = .error error) ∨
      ∃ order, left.ComparesAs right order := by
  cases left with
  | text written => exact .inr ⟨_, comparesAs_text (cmp_compares written right.write)⟩
  | number x =>
    cases hright : right.toNumber with
    | ok y => exact .inr ⟨_, comparesAs_number hright⟩
    | error error =>
      left
      refine ⟨error, fun op asked _ => ?_⟩
      rw [apply_number, applyNumbers, toNumber_number, hright]

/-! ## Values of one kind -/

/-- Values of one kind are ordered the other way round from the other side. -/
theorem exists_comparesAs_of_same_kind (hkind : left.IsText ↔ right.IsText) :
    ∃ order, left.ComparesAs right order ∧ right.ComparesAs left (order.map Ordering.swap) := by
  cases left with
  | text written =>
    obtain ⟨other, rfl⟩ := hkind.mp ⟨written, rfl⟩
    have horder : (cmp written other).Compares written other := cmp_compares written other
    exact ⟨some _, comparesAs_text horder, comparesAs_text (Ordering.compares_swap.mpr horder)⟩
  | number x =>
    obtain ⟨y, rfl⟩ : ∃ y, right = .number y := by
      rw [← not_isText_iff, ← hkind, not_isText_iff]
      exact ⟨x, rfl⟩
    refine ⟨_, comparesAs_number rfl, ?_⟩
    rw [← Number.order?_swap]
    exact comparesAs_number rfl

theorem ComparesAs.apply_swap (hleft : left.ComparesAs right order)
    (hright : right.ComparesAs left (order.map Ordering.swap)) {op mirrored : Operator}
    {asked : Ordering} (hasked : op.asked? = some asked)
    (hmirrored : mirrored.asked? = some asked.swap) :
    left.apply op right = right.apply mirrored left := by
  rw [hleft op asked hasked, hright mirrored asked.swap hmirrored]
  cases order with
  | none => rfl
  | some order => simp only [Option.map_some, Option.some_inj, Ordering.swap_inj]

theorem ComparesAs.lessThan_eq_one_iff (horder : left.ComparesAs right order) :
    left.apply .lessThan right = .ok (.number 1) ↔ order = some .lt := by
  rw [horder .lessThan .lt rfl, Except.ok.injEq, number.injEq, truth_eq_one_iff,
    decide_eq_true_iff]

theorem lessThan_text_iff {written : String} :
    (text written).apply .lessThan right = .ok (.number 1) ↔ written < right.write := by
  rw [(comparesAs_text (cmp_compares _ _)).lessThan_eq_one_iff, Option.some_inj, cmp_eq_lt_iff]

/-- Values of one kind are ordered transitively. -/
theorem lessThan_trans (hkind : left.IsText ↔ middle.IsText) (hkind' : middle.IsText ↔ right.IsText)
    (hleft : left.apply .lessThan middle = .ok (.number 1))
    (hright : middle.apply .lessThan right = .ok (.number 1)) :
    left.apply .lessThan right = .ok (.number 1) := by
  cases middle with
  | text written =>
    obtain ⟨front, rfl⟩ := hkind.mpr ⟨written, rfl⟩
    obtain ⟨back, rfl⟩ := hkind'.mp ⟨written, rfl⟩
    rw [lessThan_text_iff] at hleft hright ⊢
    exact hleft.trans hright
  | number y =>
    obtain ⟨x, rfl⟩ := not_isText_iff.mp (mt hkind.mp (not_isText_iff.mpr ⟨y, rfl⟩))
    obtain ⟨z, rfl⟩ := not_isText_iff.mp (mt hkind'.mpr (not_isText_iff.mpr ⟨y, rfl⟩))
    rw [(comparesAs_number rfl).lessThan_eq_one_iff] at hleft hright ⊢
    exact Number.order?_trans hleft hright

/-- The comparisons of two values are refused for one text, or they tell one order of the values.
Behind a text it is the order of what is written, by code points and so by bytes; behind a number
it is that of numbers, in which what is not a number has no place.  Two values of one kind compare
the other way round from the other side, and values of one kind compare transitively. -/
theorem comparisons_tell_one_order :
    (∀ left right : Value,
      (∃ error, ∀ op asked, Operator.asked? op = some asked →
        left.apply op right = .error error) ∨
      ∃ order, left.ComparesAs right order) ∧
    (∀ (written : String) (right : Value), ∃ order : Ordering,
      (text written).ComparesAs right (some order) ∧
      order.Compares (Text.codePoints written) (Text.codePoints right.write) ∧
      order.Compares (Text.bytes written) (Text.bytes right.write)) ∧
    (∀ (x y : Float) (right : Value), right.toNumber = .ok y →
      (number x).ComparesAs right (Number.order? x y) ∧
      (Number.order? x y = none ↔ x.isNaN = true ∨ y.isNaN = true)) ∧
    (∀ left right : Value, (left.IsText ↔ right.IsText) →
      left.apply .lessThan right = right.apply .greaterThan left ∧
      left.apply .equal right = right.apply .equal left) ∧
    ∀ left middle right : Value, (left.IsText ↔ middle.IsText) → (middle.IsText ↔ right.IsText) →
      left.apply .lessThan middle = .ok (.number 1) →
      middle.apply .lessThan right = .ok (.number 1) →
      left.apply .lessThan right = .ok (.number 1) := by
  refine ⟨refused_or_comparesAs, ?_, ?_, ?_, fun _ _ _ => lessThan_trans⟩
  · intro written right
    have horder := cmp_compares written right.write
    have hpoints := Text.compares_codePoints_iff.mpr horder
    exact ⟨_, comparesAs_text horder, hpoints, Text.compares_bytes_iff.mpr hpoints⟩
  · intro x y right hright
    exact ⟨comparesAs_number hright, Number.order?_eq_none_iff⟩
  · intro left right hkind
    obtain ⟨order, hleft, hright⟩ := exists_comparesAs_of_same_kind hkind
    exact ⟨hleft.apply_swap hright rfl rfl, hleft.apply_swap hright rfl rfl⟩

/-- A text that spells what is not a number has no order behind a number, the two zeros are equal,
and a character of four bytes comes behind every one of three. -/
theorem comparisons_tell_one_order_edges :
    (number 5).ComparesAs (text "nan") none ∧
      (number 0).ComparesAs (number (-0)) (some .eq) ∧
      (text "\uffff").ComparesAs (text "😀") (some .lt) ∧
      (text "\uffff").apply .lessThan (text "😀") =
        (text "😀").apply .greaterThan (text "\uffff") ∧
      (text "10").apply .lessThan (text "😀") = .ok (.number 1) := by
  obtain ⟨-, htext, hnumber, hmirrored, htrans⟩ := comparisons_tell_one_order
  have hnan : (text "nan").toNumber = .ok (0 / 0) := by decide +kernel
  have hzeros : Number.order? 0 (-0) = some .eq := by decide +kernel
  have htexts (front back : String) : (text front).IsText ↔ (text back).IsText := by
    simp [IsText]
  obtain ⟨hnone, hplace⟩ := hnumber 5 _ _ hnan
  obtain ⟨hequal, -⟩ := hnumber 0 (-0) (number (-0)) rfl
  obtain ⟨order, horder, hpoints, -⟩ := htext "\uffff" (text "😀")
  rw [hplace.mpr (.inr (by decide +kernel))] at hnone
  rw [hzeros] at hequal
  rw [hpoints.eq_lt.mpr (by decide)] at horder
  refine ⟨hnone, hequal, horder, (hmirrored _ _ (htexts _ _)).1, ?_⟩
  apply htrans (text "10") (text "\uffff") (text "😀") (htexts _ _) (htexts _ _)
  · decide +kernel
  · exact horder .lessThan .lt rfl

end Value

end LineBasic
