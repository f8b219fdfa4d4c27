import Std.Data.ExtTreeMap
import LineBasic.Proofs.Text.ByteOrder

/-!
# Tables of names

A table of names is made by entries, one after the other.  A later entry for a name takes the place
of the earlier one, and entries for different names do not touch each other, so the table holds the
latest entry for each name.  It is listed by names in ascending order.  There is one list of some
names in ascending order, so it does not matter in which order the names came before they were
sorted.
-/

namespace LineBasic.Text

variable {α : Type} {entries : List (String × α)} {name : String} {value : α}

/-! ## The latest entries -/

/-- The value of the latest entry for a name. -/
def latest? (entries : List (String × α)) (name : String) : Option α :=
  entries.reverse.lookup name

theorem latest?_cons (entry : String × α) (entries : List (String × α)) (name : String) :
    latest? (entry :: entries) name =
      (latest? entries name).or (if entry.1 = name then some entry.2 else none) := by
  obtain ⟨key, value⟩ := entry
  rw [latest?, List.reverse_cons, List.lookup_append, latest?, List.lookup_cons, List.lookup_nil]
  by_cases hname : key = name
  · simp [hname]
  · have hne : (name == key) = false := beq_false_of_ne (Ne.symm hname)
    simp [hname, hne]

theorem latest?_eq_none_iff : latest? entries name = none ↔ name ∉ entries.map Prod.fst := by
  simp only [latest?, List.lookup_eq_none_iff, List.mem_reverse, bne_iff_ne, ne_comm (a := name),
    List.mem_map, not_exists, not_and]

/-- A table that has been made by entries holds the latest one for each name. -/
theorem getElem?_foldl_insert (entries : List (String × α)) (table : Std.ExtTreeMap String α)
    (name : String) :
    (entries.foldl (fun table entry => table.insert entry.1 entry.2) table)[name]? =
      (latest? entries name).or table[name]? := by
  induction entries generalizing table with
  | nil => rfl
  | cons entry entries ih =>
    rw [List.foldl_cons, ih, latest?_cons, Std.ExtTreeMap.getElem?_insert]
    by_cases hname : entry.1 = name <;> simp [hname]

/-! ## Ascending names -/

theorem pairwise_toList (table : Std.ExtTreeMap String α) :
    table.toList.Pairwise fun entry other => entry.1 < other.1 := by
  apply table.ordered_keys_toList.imp
  intro entry other hcompare
  exact compare_lt_iff_lt.mp hcompare

/-- Names that have been sorted by their bytes are in ascending order. -/
theorem eq_of_perm_of_pairwise_bytes {names sorted : List String}
    (hnames : names.Pairwise (· < ·)) (hperm : sorted.Perm names)
    (hsorted : sorted.Pairwise fun name other => bytes name ≤ bytes other) : sorted = names := by
  have hascending : sorted.Pairwise (· ≤ ·) := by
    apply hsorted.imp
    intro name other hle
    exact strictMono_bytes.le_iff_le.mp hle
  have hnames : names.Pairwise (· ≤ ·) := hnames.imp le_of_lt
  apply List.Perm.eq_of_pairwise _ hascending hnames hperm
  exact fun _ _ _ _ hle hge => le_antisymm hle hge

end LineBasic.Text
