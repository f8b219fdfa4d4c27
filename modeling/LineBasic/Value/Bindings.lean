import Std.Data.ExtTreeMap
import LineBasic.Text.Quoted
import LineBasic.Value.Basic

/-!
# Bindings

Bindings give values to names.  A name without a value reads as the number zero.
-/

namespace LineBasic

/-- The values of the names that have been assigned to. -/
structure Bindings where
  values : Std.ExtTreeMap String Value := ∅

namespace Bindings

instance : Inhabited Bindings := ⟨{}⟩

/-- The value of a name. -/
def get (bindings : Bindings) (name : String) : Value :=
  bindings.values[name]?.getD (.number 0)

/-- The bindings with a new value for a name. -/
def assign (bindings : Bindings) (name : String) (value : Value) : Bindings :=
  ⟨bindings.values.insert name value⟩

/-- A name and its value. -/
def entryListing (entry : String × Value) : String :=
  Text.quoted entry.1 ++ ": " ++ entry.2.write

/-- The names that have values, in ascending order, with their values as they are printed. -/
def listing (bindings : Bindings) : String :=
  "\x7b" ++ String.intercalate ", " (bindings.values.toList.map entryListing) ++ "\x7d"

/-- A name reads as the value assigned last; other names read as before. -/
theorem get_assign (bindings : Bindings) (name other : String) (value : Value) :
    (bindings.assign name value).get other =
      if name = other then value else bindings.get other := by
  by_cases hname : name = other <;> simp [get, assign, Std.ExtTreeMap.getElem?_insert, hname]

@[simp]
theorem get_empty (name : String) : ({} : Bindings).get name = .number 0 := by
  simp [get]

end Bindings

end LineBasic
