/-
  Tables by name.

  - `SymbolTable`: what is known under each name; two tables with the same answers are equal;
  - `names`: the names of a table, in order;
  - `get?_add`, `get?_remove`: what the operations do to the answers.
-/
import Std.Data.ExtTreeMap

namespace Kaleidoscope

/-- A table from names to values of one kind. -/
abbrev SymbolTable (α : Type) := Std.ExtTreeMap String α

namespace SymbolTable

variable {α : Type}

/-- A table without names. -/
def empty : SymbolTable α := (∅ : Std.ExtTreeMap String α)

/-- Sets the value of a name. -/
def add (t : SymbolTable α) (name : String) (value : α) : SymbolTable α :=
  Std.ExtTreeMap.insert t name value

/-- The value of a name. -/
def get? (t : SymbolTable α) (name : String) : Option α := t[name]?

/-- Forgets a name. -/
def remove (t : SymbolTable α) (name : String) : SymbolTable α := Std.ExtTreeMap.erase t name

/-- The names, in ascending order of their bytes. -/
def names (t : SymbolTable α) : List String := Std.ExtTreeMap.keys t

@[simp] theorem get?_empty (name : String) : (empty : SymbolTable α).get? name = none := by
  simp [empty, get?]

theorem get?_add (t : SymbolTable α) (name other : String) (value : α) :
    (t.add name value).get? other = if name = other then some value else t.get? other := by
  simp [add, get?, Std.ExtTreeMap.getElem?_insert]

theorem get?_remove (t : SymbolTable α) (name other : String) :
    (t.remove name).get? other = if name = other then none else t.get? other := by
  simp [remove, get?, Std.ExtTreeMap.getElem?_erase]

/-- **Tables with the same answers are equal.** -/
theorem ext_get? {s t : SymbolTable α} (h : ∀ name, s.get? name = t.get? name) : s = t :=
  Std.ExtTreeMap.ext_getElem? fun {name} => h name

end SymbolTable

end Kaleidoscope
