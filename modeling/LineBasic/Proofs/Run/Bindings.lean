import LineBasic.Proofs.Run.Visit
import LineBasic.Proofs.Text.NameTable

/-!
# Bindings and their listing

Bindings come about by assignments, one after the other, and hold the latest value for each name.
Their listing shows the names that have been assigned to, each once and in ascending order, with
these values; so it depends neither on the order in which names were first assigned to nor on the
values that have been replaced.  The bindings that a run leaves are those that its assignments make:
a name that is only read does not get into them.
-/

namespace LineBasic

namespace Bindings

variable {bindings : Bindings} {entries others : List (String × Value)} {name : String}

/-- The bindings behind assignments, one after the other. -/
def assignAll (bindings : Bindings) (entries : List (String × Value)) : Bindings :=
  entries.foldl (fun bindings entry => bindings.assign entry.1 entry.2) bindings

/-- The names that have values, in ascending order. -/
def names (bindings : Bindings) : List String :=
  bindings.values.toList.map Prod.fst

/-- The listing of the values of some names, in their order. -/
def listingOf (bindings : Bindings) (names : List String) : String :=
  "\x7b" ++ String.intercalate ", "
    (names.map fun name => entryListing (name, bindings.get name)) ++ "\x7d"

/-! ## Assignments -/

theorem assignAll_append (bindings : Bindings) (entries more : List (String × Value)) :
    bindings.assignAll (entries ++ more) = (bindings.assignAll entries).assignAll more :=
  List.foldl_append

theorem values_assignAll (bindings : Bindings) (entries : List (String × Value)) :
    (bindings.assignAll entries).values =
      entries.foldl (fun table entry => table.insert entry.1 entry.2) bindings.values := by
  induction entries generalizing bindings with
  | nil => rfl
  | cons entry entries ih => exact ih (bindings.assign entry.1 entry.2)

/-- New bindings hold the latest value for each name. -/
theorem getElem?_values_assignAll (entries : List (String × Value)) (name : String) :
    (assignAll {} entries).values[name]? = Text.latest? entries name := by
  rw [values_assignAll, Text.getElem?_foldl_insert]
  simp

theorem get_assignAll (entries : List (String × Value)) (name : String) :
    (assignAll {} entries).get name = (Text.latest? entries name).getD (.number 0) := by
  rw [get, getElem?_values_assignAll]

/-- Assignments that leave each name with the same value make the same bindings. -/
theorem assignAll_congr (hlatest : ∀ name, Text.latest? entries name = Text.latest? others name) :
    assignAll {} entries = assignAll {} others := by
  have hvalues : (assignAll {} entries).values = (assignAll {} others).values := by
    apply Std.ExtTreeMap.ext_getElem?
    intro name
    rw [getElem?_values_assignAll, getElem?_values_assignAll, hlatest]
  exact congrArg Bindings.mk hvalues

/-! ## Listings -/

theorem pairwise_names (bindings : Bindings) : bindings.names.Pairwise (· < ·) :=
  (Text.pairwise_toList bindings.values).map _ fun _ _ hlt => hlt

theorem mem_names_iff : name ∈ bindings.names ↔ bindings.values[name]? ≠ none := by
  simp only [names, List.mem_map, Prod.exists, Std.ExtTreeMap.mem_toList_iff_getElem?_eq_some,
    exists_and_right, exists_eq_right, Option.ne_none_iff_exists']

/-- The names that have values are those that have been assigned to. -/
theorem mem_names_assignAll_iff : name ∈ (assignAll {} entries).names ↔
    name ∈ entries.map Prod.fst := by
  rw [mem_names_iff, getElem?_values_assignAll, ne_eq, Text.latest?_eq_none_iff, not_not]

theorem listing_eq_listingOf (bindings : Bindings) :
    bindings.listing = bindings.listingOf bindings.names := by
  rw [listing, listingOf, names, List.map_map]
  congr 3
  apply List.map_congr_left
  rintro ⟨name, value⟩ hentry
  rw [Std.ExtTreeMap.mem_toList_iff_getElem?_eq_some] at hentry
  simp [get, hentry]

/-- It makes no difference in which order the names come before they are sorted by their bytes. -/
theorem listing_eq_of_perm {keys sorted : List String} (hnodup : keys.Nodup)
    (hkeys : ∀ name, name ∈ keys ↔ name ∈ bindings.names) (hperm : sorted.Perm keys)
    (hsorted : sorted.Pairwise fun name other => Text.bytes name ≤ Text.bytes other) :
    bindings.listing = bindings.listingOf sorted := by
  have hnames : bindings.names.Nodup := bindings.pairwise_names.imp ne_of_lt
  have hperm : sorted.Perm bindings.names :=
    hperm.trans ((List.perm_ext_iff_of_nodup hnodup hnames).mpr hkeys)
  rw [Text.eq_of_perm_of_pairwise_bytes bindings.pairwise_names hperm hsorted,
    listing_eq_listingOf]

end Bindings

/-! ## Assignments of a run -/

namespace Machine

open Visit

variable {program : Program} {statement : Statement} {machine after : Machine}

/-- A statement changes the bindings by its assignment only. -/
theorem Executes.bindings_eq {fault : Option Fault}
    (hexecutes : Executes program machine statement after fault) :
    after.bindings = machine.bindings.assignAll (assignments [⟨statement, machine⟩]) := by
  cases hexecutes with
  | printed | cut | printRefused | passed | jumped | jumpRefused => rfl
  | assigned hvalue | assignRefused hvalue =>
    simp [assignments, assignment?, hvalue, Except.toOption, Bindings.assignAll]

/-- The assignments of a run make the bindings that it leaves. -/
theorem Visits.bindings_eq {steps : Nat} {run : Run (List Visit)}
    (hvisits : Visits program steps machine run) :
    run.machine.bindings = machine.bindings.assignAll (assignments run.seen) := by
  induction hvisits with
  | outOfSteps | finished => rfl
  | failed steps hstatement hexecutes => exact hexecutes.bindings_eq
  | @head steps machine next statement run hstatement hexecutes hrest ih =>
    have hnext : next.bindings = machine.bindings.assignAll (assignments [⟨statement, machine⟩]) :=
      hexecutes.bindings_eq
    calc run.machine.bindings
        = next.bindings.assignAll (assignments run.seen) := ih
      _ = (machine.bindings.assignAll (assignments [⟨statement, machine⟩])).assignAll
            (assignments run.seen) := by rw [hnext]
      _ = machine.bindings.assignAll (assignments (⟨statement, machine⟩ :: run.seen)) := by
        rw [assignments_cons _ run.seen, Bindings.assignAll_append]

end Machine

namespace Bindings

/-- New bindings hold the latest value that has been assigned to each name, and zero for the other
names.  Their listing shows the names that have been assigned to, in ascending order, with these
values, whatever order the names came in before they were sorted.  It is the same for assignments
that leave the same values.  The bindings of a run change by its assignments alone. -/
theorem listing_shows_latest_values :
    (∀ (entries : List (String × Value)) (name : String),
      (assignAll {} entries).get name = (Text.latest? entries name).getD (.number 0)) ∧
    (∀ entries : List (String × Value), ∃ names : List String,
      (names.Pairwise fun name other => Text.codePoints name < Text.codePoints other) ∧
      (∀ name, name ∈ names ↔ name ∈ entries.map Prod.fst) ∧
      (assignAll {} entries).listing = (assignAll {} entries).listingOf names) ∧
    (∀ (entries : List (String × Value)) (keys sorted : List String), keys.Nodup →
      (∀ name, name ∈ keys ↔ name ∈ entries.map Prod.fst) → sorted.Perm keys →
      (sorted.Pairwise fun name other => Text.bytes name ≤ Text.bytes other) →
      (assignAll {} entries).listing = (assignAll {} entries).listingOf sorted) ∧
    (∀ entries others : List (String × Value),
      (∀ name, Text.latest? entries name = Text.latest? others name) →
      (assignAll {} entries).listing = (assignAll {} others).listing) ∧
    ∀ (program : Program) (steps : Nat) (machine : Machine),
      let run := Machine.visitsRun program steps machine
      run.machine.bindings = machine.bindings.assignAll (Visit.assignments run.seen) := by
  refine ⟨get_assignAll, ?_, ?_, ?_, ?_⟩
  · intro entries
    refine ⟨(assignAll {} entries).names, ?_, fun name => mem_names_assignAll_iff,
      listing_eq_listingOf _⟩
    exact (pairwise_names _).imp fun hlt => Text.strictMono_codePoints hlt
  · intro entries keys sorted hnodup hkeys hperm hsorted
    refine listing_eq_of_perm hnodup (fun name => ?_) hperm hsorted
    rw [hkeys, mem_names_assignAll_iff]
  · intro entries others hlatest
    rw [assignAll_congr hlatest]
  · intro program steps machine
    exact (Machine.visits_visitsRun program steps machine).bindings_eq

/-- Values that have been replaced, and the order of the names, leave no trace. -/
theorem listing_shows_latest_values_reassigned :
    let entries := [("b", Value.number 1), ("a", .text "x"), ("b", .text "y")]
    let others := [("b", Value.text "y"), ("a", .text "x")]
    (assignAll {} entries).listing = "\x7b\"a\": x, \"b\": y\x7d" ∧
      (assignAll {} others).listing = (assignAll {} entries).listing := by
  intro entries others
  obtain ⟨-, -, hsorted, hlatest, -⟩ := listing_shows_latest_values
  have hsame : ∀ name, Text.latest? others name = Text.latest? entries name := by
    intro name
    by_cases hb : name = "b"
    · rw [hb]
      rfl
    · simp [others, entries, Text.latest?_cons, Ne.symm hb]
  have hkeys : (assignAll {} entries).listing = (assignAll {} entries).listingOf ["a", "b"] := by
    apply hsorted entries ["b", "a"] ["a", "b"]
    · decide
    · intro name
      grind
    · decide
    · decide
  refine ⟨?_, hlatest others entries hsame⟩
  rw [hkeys, listingOf]
  simp only [List.map_cons, List.map_nil, String.intercalate_cons_cons,
    String.intercalate_singleton, get_assignAll, entryListing, Text.quoted,
    String.foldl_eq_foldl_toList]
  decide +kernel

end Bindings

end LineBasic
