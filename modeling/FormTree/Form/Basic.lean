import FormTree.Node.Reader

/-!
# Forms

`Form.create` sets up a form from a configuration and initial data; `Form.render` reads its current
state, calls the render handlers and makes the directory that the other operations use.  A render
that fails leaves the directory as it was.
-/

namespace FormTree

variable {σ κ : Type}

/-- A form with the names of its last render. -/
structure Form (κ : Type) where
  id : FormId
  directory : Directory κ

/-- What a render gives: an output for every node of the form, nothing for a blank node; or the form
is not a list of nodes. -/
inductive Rendered (ρ : Type) where
  | nodes (outputs : List (Option ρ))
  | notATree

namespace Form

/-- Set up a form.  The given handlers are registered first, so that they hear of its beginning. -/
def create (config : Config κ) (handlers : List (HostEvent × κ)) (initial : Data) :
    Program σ κ (Form κ) := do
  let id ← Program.call (.create config.profile handlers initial)
  let _ ← Program.emit id (.internal .formInitialised) (.state initial)
  return ⟨id, .empty⟩

/-- Announce that a form is given up. -/
def discard (form : Form κ) : Program σ κ Unit := do
  let state := (← Program.look form.id).state
  let _ ← Program.emit form.id (.internal .formRemoved) (.state state)

/-- Read the form, call the render handlers and take over the names. -/
def render {ρ : Type} (config : Config κ) (renderer : Node.Renderer (Program σ κ) κ ρ)
    (form : Form κ) : Program σ κ (Form κ × Except Fault (Rendered ρ)) := do
  match Node.readForm config form.id (← Program.look form.id).state with
  | none => return ({ form with directory := .empty }, .ok .notATree)
  | some (.error failure) =>
    let _ ← Node.renderAll renderer failure.before
    return (form, .error failure.error)
  | some (.ok nodes) =>
    let outputs ← Node.renderAll renderer nodes
    return ({ form with directory := .ofList (Node.entriesAll nodes) }, .ok (.nodes outputs))

/-- The value of a field, or the items of a container, in a state. -/
def valueIn (form : Form κ) (state : Data) (name : String) : Except Fault Json := do
  match ← form.directory.entry name with
  | .field handle =>
    return ((state.node? (handle.path ++ [Kind.valueAt])).map Data.toJson).getD .null
  | .container handle => handle.itemsIn state

/-- The current value of a field, or the current items of a container, by name. -/
def value (form : Form κ) (name : String) : Program σ κ (Except Fault Json) := do
  return form.valueIn (← Program.look form.id).state name

/-- Edit a field, or replace the items of a container, by name. -/
def edit (form : Form κ) (name : String) (update : Update κ) :
    Program σ κ (Except Fault Unit) :=
  match form.directory.entry name with
  | .error e => pure (.error e)
  | .ok (.field handle) => handle.edit update
  | .ok (.container handle) => handle.editItems update

/-- Submit a batch of actions. -/
def submit (form : Form κ) (batch : Batch κ) : Program σ κ (Except Fault Unit) := do
  return (← Program.submit form.id { batch, after := none }).map fun _ => ()

end Form

end FormTree
