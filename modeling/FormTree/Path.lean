/-!
# Paths and name paths

A path is a chain of list indices from the root of a form.  A name path is what a host calls a node
by: the names and item indices on the way to it, joined by a separator.
-/

namespace FormTree

/-- List indices from the root, outermost first. -/
abbrev Path := List Nat

namespace Path

/-- The list item `index` under a path, and further fixed steps below it. -/
def descend (p : Path) (index : Nat) (offsets : List Nat) : Path := p ++ index :: offsets

/-- The path without its last step; the root has none. -/
def parent? (p : Path) : Option Path := if p.isEmpty then none else some p.dropLast

/-- The steps, joined by commas. -/
def text (p : Path) : String := ",".intercalate (p.map toString)

@[simp] theorem parent?_concat (p : Path) (index : Nat) : parent? (p ++ [index]) = some p := by
  simp [parent?]

end Path

namespace NamePath

/-- What joins the segments of a name path unless the settings say otherwise. -/
def defaultSeparator : String := "."

/-- A name path with one more segment; the first segment stands alone. -/
def append (separator : String) (base : Option String) (segment : String) : String :=
  match base with
  | some base => base ++ separator ++ segment
  | none => segment

@[simp] theorem append_none (separator segment : String) :
    append separator none segment = segment := rfl

@[simp] theorem append_some (separator base segment : String) :
    append separator (some base) segment = base ++ separator ++ segment := rfl

end NamePath

end FormTree
