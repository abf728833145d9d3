import FormTree.Form.Handle

/-!
# The names of a form

A `Directory` finds the handle of a node by its name path.  It keeps the names in the order in which
they were first registered; of two nodes with one name path the later one counts, in the place of
the earlier one.
-/

namespace FormTree

/-- A node that has a name. -/
inductive Entry (κ : Type) where
  | field (handle : FieldHandle κ)
  | container (handle : ContainerHandle κ)

namespace Entry

variable {κ : Type}

/-- The path of the node's definition. -/
def path : Entry κ → Path
  | .field handle => handle.path
  | .container handle => handle.path

/-- What sort of node it is. -/
def sort : Entry κ → EntrySort
  | .field _ => .field
  | .container handle => .container handle.container

/-- The kind of the node. -/
def kind : Entry κ → Kind
  | .field _ => .field
  | .container handle => handle.container.kind

end Entry

/-- Entries by name path, in the order of their first registration. -/
structure Directory (κ : Type) where
  entries : List (String × Entry κ)

namespace Directory

variable {κ : Type}

/-- The directory without names. -/
def empty : Directory κ := ⟨[]⟩

instance : Inhabited (Directory κ) := ⟨empty⟩

/-- Put an entry in the place of the one of that name, or at the end. -/
def place (name : String) (entry : Entry κ) : List (String × Entry κ) → List (String × Entry κ)
  | [] => [(name, entry)]
  | head :: rest =>
    if head.1 = name then (name, entry) :: rest else head :: place name entry rest

/-- Register an entry. -/
def insert (m : Directory κ) (name : String) (entry : Entry κ) : Directory κ :=
  ⟨place name entry m.entries⟩

/-- The directory of entries registered one after the other. -/
def ofList (entries : List (String × Entry κ)) : Directory κ :=
  entries.foldl (fun m entry => m.insert entry.1 entry.2) empty

/-- The names, in the order of their first registration. -/
def names (m : Directory κ) : List String := m.entries.map Prod.fst

/-- The entry of a name. -/
def get? (m : Directory κ) (name : String) : Option (Entry κ) := m.entries.lookup name

/-- Whether a name is registered. -/
def contains (m : Directory κ) (name : String) : Bool := (m.get? name).isSome

/-- The entry of a name that is meant to be registered. -/
def entry (m : Directory κ) (name : String) : Except Fault (Entry κ) :=
  match m.get? name with
  | some entry => .ok entry
  | none => .error (.unknownName name)

/-- The handle of a name that is meant to be a field. -/
def field (m : Directory κ) (name : String) : Except Fault (FieldHandle κ) :=
  match m.entry name with
  | .ok (.field handle) => .ok handle
  | .ok _ => .error (.wrongEntry name .field)
  | .error e => .error e

/-- The handle of a name that is meant to be a container of some sort. -/
def container (m : Directory κ) (sort : Container) (name : String) :
    Except Fault (ContainerHandle κ) :=
  match m.entry name with
  | .ok (.container handle) =>
    if handle.container = sort then .ok handle else .error (.wrongEntry name (.container sort))
  | .ok _ => .error (.wrongEntry name (.container sort))
  | .error e => .error e

end Directory

end FormTree
