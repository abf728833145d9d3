import FormTree.Program
import FormTree.Text.Quoted

/-!
# Handles

A handle acts on one named node of a form.  It holds the path that the node had when the form was
rendered, and is meant to be used until the form is rendered again.

An operation submits one batch, which changes the node and validates it again, and leaves the
reporting to what comes after the batch.  So what is reported is always taken from a state that was
applied, whether the batch was applied at once or had to wait.
-/

namespace FormTree

/-- A handle on a field. -/
structure FieldHandle (κ : Type) where
  form : FormId
  /-- The path of the field's definition. -/
  path : Path
  namePath : String
  validator : Option κ

/-- A handle on a container. -/
structure ContainerHandle (κ : Type) where
  form : FormId
  container : Container
  /-- The path of the container's definition. -/
  path : Path
  namePath : String
  validator : Option κ

variable {σ κ : Type}

/-- The definition at a path of a state, of whatever sort it is. -/
def locate (state : Data) (path : Path) : Except Fault Data :=
  match state.node? path with
  | some definition => .ok definition
  | none => .error (.pathNotFound path)

/-- Submit a batch with the report that follows it; whether it had to wait does not matter. -/
def Program.submitThen (form : FormId) (submission : Submission κ) :
    Program σ κ (Except Fault Unit) := do
  return (← submit form submission).map fun _ => ()

namespace FieldHandle

/-- The value of the field in a state; a missing slot reads as null. -/
def valueIn (h : FieldHandle κ) (state : Data) : Except Fault Data :=
  (locate state h.path).map fun definition => (definition.child? Kind.valueAt).getD .null

/-- The current value of the field. -/
def value (h : FieldHandle κ) : Program σ κ (Except Fault Data) := do
  return h.valueIn (← Program.look h.form).state

/-- The batch of an edit: the new value, and its validation. -/
def editBatch (h : FieldHandle κ) (update : Update κ) : Batch κ :=
  .editField h.path update :: h.validator.toList.map (.checkField h.path ·)

/-- What an edit submits. -/
def editSubmission (h : FieldHandle κ) (update : Update κ) : Submission κ where
  batch := h.editBatch update
  after := some (.fieldEdited h.path h.namePath h.validator.isSome)
  suits := by rintro _ ⟨⟩; exact ⟨update, h.validator, rfl, rfl⟩

/-- Replace the value and validate it again. -/
def edit (h : FieldHandle κ) (update : Update κ) : Program σ κ (Except Fault Unit) :=
  Program.submitThen h.form (h.editSubmission update)

/-- What a removal of the node at a path submits. -/
def removeSubmission (h : FieldHandle κ) (node : Path) : Submission κ where
  batch := [.removeField node]
  after := some (.fieldRemoved h.namePath)

/-- Take the field out of the list it stands in. -/
def remove (h : FieldHandle κ) : Program σ κ (Except Fault Unit) :=
  match Path.parent? h.path with
  | none => pure (.error (.pathNotFound h.path))
  | some node => Program.submitThen h.form (h.removeSubmission node)

/-- A description of the handle. -/
def describe (h : FieldHandle κ) : String :=
  "FieldHandle \x7b path: [" ++ h.path.text ++ "], name_path: " ++ Text.quoted h.namePath
    ++ ", validated: " ++ toString h.validator.isSome ++ " \x7d"

end FieldHandle

namespace ContainerHandle

/-- The items of the container in a state, as a JSON array. -/
def itemsIn (h : ContainerHandle κ) (state : Data) : Except Fault Json :=
  (locate state h.path).map fun definition =>
    Data.itemsJson (definition.child? h.container.itemsAt)

/-- The current items of the container. -/
def items (h : ContainerHandle κ) : Program σ κ (Except Fault Json) := do
  return h.itemsIn (← Program.look h.form).state

/-- What a change of the items submits. -/
def changeSubmission (h : ContainerHandle κ) (action : Action κ) : Submission κ where
  batch := [action, .validateItems h.container h.path h.validator]
  after := some (.itemsChanged h.container h.path h.namePath h.validator.isSome)
  suits := by rintro _ ⟨⟩; exact ⟨action, h.validator, rfl, rfl⟩

/-- Change the items and validate them again. -/
def change (h : ContainerHandle κ) (action : Action κ) : Program σ κ (Except Fault Unit) :=
  Program.submitThen h.form (h.changeSubmission action)

/-- Append a copy of the template of a `many` container. -/
def append (h : ContainerHandle κ) : Program σ κ (Except Fault Unit) :=
  h.change (.addContent h.path)

/-- Append the child form template of a name. -/
def appendForm (h : ContainerHandle κ) (name : String) : Program σ κ (Except Fault Unit) := do
  match (← Program.profile h.form).template? name with
  | none => return .error (.unknownTemplate name)
  | some template => h.change (.addChildForm h.path template)

/-- Take an item out. -/
def removeItem (h : ContainerHandle κ) (index : Nat) : Program σ κ (Except Fault Unit) :=
  h.change (.deleteItem h.container (h.path ++ [h.container.itemsAt, index]))

/-- Bring the items into an order: position `i` gets the item that was at `order[i]`. -/
def reorder (h : ContainerHandle κ) (order : List Nat) :
    Program σ κ (Except Fault Unit) :=
  h.change (.reorderItems h.container h.path order)

/-- Replace the items. -/
def editItems (h : ContainerHandle κ) (update : Update κ) :
    Program σ κ (Except Fault Unit) :=
  h.change (.editItems h.container h.path update)

/-- A description of the handle. -/
def describe (h : ContainerHandle κ) : String :=
  let sort := match h.container with
    | .many => "ManyHandle"
    | .childForms => "ChildFormsHandle"
  sort ++ " \x7b path: [" ++ h.path.text ++ "], name_path: " ++ Text.quoted h.namePath ++ " \x7d"

end ContainerHandle

end FormTree
