import FormTree.Session.Host

/-!
# Render handlers of a session

The render handlers of a session put out what they are given, with a number for the key of the
node's path: keys are numbered in the order in which they first appear in the session.  Every
handler records its call.  If the session has components, the handler of a field registers two
handlers that edit and delete the field at the host's request.
-/

namespace FormTree.Session

/-- The output of a render handler: what it was given, the number of its key, and the output for
what is inside. -/
inductive Output where
  | field (key : Nat) (node : FieldNode Callback)
  | attr (key : Nat) (node : AttrNode) (children : List (Option Output))
  | block (kind : Kind) (key : Nat) (node : BlockNode) (children : List (Option Output))
  | many (key : Nat) (node : ContainerNode Callback) (items : List (List (Option Output)))
  | childForms (key : Nat) (node : ContainerNode Callback) (templates : List String)
      (items : List (Option Output))

namespace Play

/-- The number of the key of a path. -/
def key (path : Path) : Play Nat := do
  let memory ← Program.memory
  match memory.keys.idxOf? path.key with
  | some index => return index
  | none =>
    Program.setMemory { memory with keys := memory.keys ++ [path.key] }
    return memory.keys.length

/-- Record the call of a render handler. -/
def record (kind : Kind) (label : String) : Play Unit :=
  Program.change fun memory => { memory with calls := (kind.tag ++ ":" ++ label) :: memory.calls }

/-- Register the handlers of a component for a field. -/
def mount (handle : FieldHandle Callback) : Play Unit := do
  let _ ← Program.register handle.form (.internal .fieldEdit) (.component handle false)
  let _ ← Program.register handle.form (.internal .fieldDelete) (.component handle true)

/-- The render handlers. -/
def renderer (components : Bool) (templates : List String) :
    Node.Renderer (Program Memory Callback) Callback Output where
  field node := do
    record .field node.namePath
    if components then mount node.handle
    return .field (← key node.path) node
  attr node children := do
    record .attr node.namePath
    return .attr (← key node.path) node children
  block kind node children := do
    record kind (node.label.getD node.typeName)
    return .block kind (← key node.path) node children
  many node items := do
    record .many node.namePath
    return .many (← key node.path) node items
  childForms node items := do
    record .manyChildForms node.namePath
    return .childForms (← key node.path) node templates items

end Play

end FormTree.Session
