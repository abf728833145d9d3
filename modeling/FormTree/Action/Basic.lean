import FormTree.Fault

/-!
# Actions

An action is one change to a form, addressed to a path.  Two things in it are left to the host:
updates that compute a new value from the previous one, and validators that turn a value into error
messages.  The host's code stands behind names of a type `κ`, so that actions are plain data.
-/

namespace FormTree

/-- A replacement for the content of a slot: a fixed value, or what the host computes from the
previous content. -/
inductive Update (κ : Type) where
  | fixed (value : Data)
  | computed (name : κ)

/-- One change to a form.  The path of an action leads to the definition it changes, except that
`removeField` and `deleteItem` give the path of the list item they take out. -/
inductive Action (κ : Type) where
  | removeField (path : Path)
  | editField (path : Path) (update : Update κ)
  /-- Store the given errors of a field; without errors nothing happens. -/
  | validateField (path : Path) (errors : Option (List String))
  /-- Store the errors that a validator finds in the value of a field. -/
  | checkField (path : Path) (validator : κ)
  /-- Append the container's own template. -/
  | addContent (path : Path)
  | addChildForm (path : Path) (form : Data)
  | deleteItem (container : Container) (path : Path)
  | editItems (container : Container) (path : Path) (update : Update κ)
  /-- Bring the items into an order: position `i` gets the item that was at `order[i]`. -/
  | reorderItems (container : Container) (path : Path) (order : List Nat)
  /-- Store the errors that a validator finds in the items; without validator nothing happens. -/
  | validateItems (container : Container) (path : Path) (validator : Option κ)
  /-- An action of the host's own, which changes nothing here. -/
  | custom (kind : String) (payload : Data)

/-- Actions that are applied one after the other, all of them or none. -/
abbrev Batch (κ : Type) := List (Action κ)

namespace Action

variable {κ : Type}

/-- The name of the kind of action. -/
def kindName : Action κ → String
  | .removeField _ => "remove-field"
  | .editField _ _ => "edit-field"
  | .validateField _ _ => "validate-field"
  | .checkField _ _ => "check-field"
  | .addContent _ => "add-many-content"
  | .addChildForm _ _ => "add-many-child-form"
  | .deleteItem .many _ => "delete-many-content"
  | .deleteItem .childForms _ => "remove-many-child-form"
  | .editItems .many _ _ => "edit-many-contents"
  | .editItems .childForms _ _ => "edit-many-child-forms"
  | .reorderItems .many _ _ => "reorder-many-contents"
  | .reorderItems .childForms _ _ => "reorder-many-child-forms"
  | .validateItems .many _ _ => "validate-many"
  | .validateItems .childForms _ _ => "validate-many-child-forms"
  | .custom kind _ => kind

/-- The path that an action is addressed to, if it has one. -/
def path? : Action κ → Option Path
  | .removeField path
  | .editField path _
  | .validateField path _
  | .checkField path _
  | .addContent path
  | .addChildForm path _
  | .deleteItem _ path
  | .editItems _ path _
  | .reorderItems _ path _
  | .validateItems _ path _ => some path
  | .custom _ _ => none

end Action

end FormTree
