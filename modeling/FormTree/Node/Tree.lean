import FormTree.Form.Config

/-!
# Nodes of a form

What a form's data stand for, once they have been read: a tree of nodes, each with what its render
handler is given.  Every node has the path of its definition; fields and containers have a name path
and a handle as well.

`Node.entries` lists the nodes that can be addressed, in the order of the document, a container
after everything inside it.  `Node.render` calls the host's render handlers in the same order and
hands every handler what came out for the nodes inside.
-/

namespace FormTree

/-- What the render handler of a field is given. -/
structure FieldNode (κ : Type) where
  path : Path
  name : String
  namePath : String
  typeName : String
  handler : FieldHandler
  value : Data
  errors : List String
  attributes : Attribute
  /-- The validation rules among the attributes. -/
  rules : Option Attribute
  handle : FieldHandle κ

/-- What the render handler of an `attr` node is given, besides the children. -/
structure AttrNode where
  path : Path
  name : String
  namePath : String
  typeName : String
  errors : List String
  attributes : Attribute

/-- What the render handler of a node without a name of its own is given, besides the children.  The
name of sections and child forms is only a label; other kinds have none. -/
structure BlockNode where
  path : Path
  label : Option String
  typeName : String
  attributes : Attribute

/-- What the render handler of a container is given, besides what is inside. -/
structure ContainerNode (κ : Type) where
  path : Path
  name : String
  namePath : String
  typeName : String
  errors : List String
  attributes : Attribute
  rules : Option Attribute
  /-- The item template of a `many` container. -/
  template : Option Data
  handle : ContainerHandle κ

/-- A node of a form. -/
inductive Node (κ : Type) where
  | field (node : FieldNode κ)
  | attr (node : AttrNode) (children : List (Node κ))
  /-- A compound field, child form, section or group. -/
  | block (kind : Kind) (node : BlockNode) (children : List (Node κ))
  /-- A `many` container with its items, which are lists of nodes. -/
  | many (node : ContainerNode κ) (items : List (List (Node κ)))
  /-- A container of child forms with its items, which are nodes. -/
  | childForms (node : ContainerNode κ) (items : List (Node κ))
  /-- A section or group without children, which renders nothing. -/
  | blank (kind : Kind)

namespace Node

variable {κ : Type}

/-! ## Addressable nodes -/

mutual

/-- The addressable nodes with their name paths, in the order of registration. -/
def entries : Node κ → List (String × Entry κ)
  | .field node => [(node.namePath, .field node.handle)]
  | .attr _ children => entriesAll children
  | .block _ _ children => entriesAll children
  | .many node items => entriesItems items ++ [(node.namePath, .container node.handle)]
  | .childForms node items => entriesAll items ++ [(node.namePath, .container node.handle)]
  | .blank _ => []

/-- The addressable nodes of a list of nodes. -/
def entriesAll : List (Node κ) → List (String × Entry κ)
  | [] => []
  | node :: rest => entries node ++ entriesAll rest

/-- The addressable nodes of the items of a `many` container. -/
def entriesItems : List (List (Node κ)) → List (String × Entry κ)
  | [] => []
  | nodes :: rest => entriesAll nodes ++ entriesItems rest

end

/-! ## Rendering -/

/-- The render handlers of a host, in a monad `m` and with output `ρ`.  The children that a handler
is given are what came out for them, nothing for a blank node. -/
structure Renderer (m : Type → Type) (κ ρ : Type) where
  field : FieldNode κ → m ρ
  attr : AttrNode → List (Option ρ) → m ρ
  block : Kind → BlockNode → List (Option ρ) → m ρ
  many : ContainerNode κ → List (List (Option ρ)) → m ρ
  childForms : ContainerNode κ → List (Option ρ) → m ρ

variable {m : Type → Type} [Monad m] {ρ : Type}

mutual

/-- Call the handlers of a node and of everything inside it. -/
def render (r : Renderer m κ ρ) : Node κ → m (Option ρ)
  | .field node => some <$> r.field node
  | .attr node children => do return some (← r.attr node (← renderAll r children))
  | .block kind node children => do return some (← r.block kind node (← renderAll r children))
  | .many node items => do return some (← r.many node (← renderItems r items))
  | .childForms node items => do return some (← r.childForms node (← renderAll r items))
  | .blank _ => pure none

/-- Call the handlers of nodes, one after the other. -/
def renderAll (r : Renderer m κ ρ) : List (Node κ) → m (List (Option ρ))
  | [] => pure []
  | node :: rest => do
    let output ← render r node
    return output :: (← renderAll r rest)

/-- Call the handlers of the items of a `many` container, one after the other. -/
def renderItems (r : Renderer m κ ρ) : List (List (Node κ)) → m (List (List (Option ρ)))
  | [] => pure []
  | nodes :: rest => do
    let outputs ← renderAll r nodes
    return outputs :: (← renderItems r rest)

end

end Node

end FormTree
