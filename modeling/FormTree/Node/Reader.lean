import FormTree.Node.Tree

/-!
# Reading the nodes of a form

`Node.readForm` reads the data of a form as a list of nodes.  It goes through the data in the order
of the document, a node after everything inside it, and stops at the first defect; the nodes that
were complete by then, whose render handlers are still to be called, are part of the failure.

Paths and name paths grow on the way down.  A node at `index` below a path has its definition one
step further, at position 1.  `attr` nodes and containers add their name to the name path, and
containers add the index of the item; blocks add nothing.
-/

namespace FormTree

/-- Why a form could not be read, and the complete nodes before the defect. -/
structure ReadFailure (κ : Type) where
  error : Fault
  before : List (Node κ)

namespace Node

variable {κ : Type}

/-- The position of the definition in a node. -/
abbrev definitionStep : Nat := 1

/-- The text in a slot; anything but a string reads as empty. -/
def textAt (definition : List Data) (slot : Nat) : String :=
  ((slotAt definition slot).toString?).getD ""

/-- The name in a definition, which must be a string that is not empty. -/
def nameOf (kind : Kind) (path : Path) (definition : List Data) : Except Fault String :=
  match slotAt definition Kind.nameAt with
  | .string name => if name = "" then .error (.malformedNode path (.noName kind)) else .ok name
  | _ => .error (.malformedNode path (.noName kind))

/-- The attributes in a definition. -/
def attributesOf (kind : Kind) (definition : List Data) : Except Fault Attribute :=
  Attribute.ofData (slotAt definition kind.attributesAt)

/-- The error messages in a definition. -/
def messagesOf (kind : Kind) (definition : List Data) : List String :=
  (slotAt definition kind.errorsAt).texts

/-- Where the reader stands: the configuration, the form, and the path of the definition. -/
structure Place (κ : Type) where
  config : Config κ
  form : FormId
  path : Path

/-- The name path of a node of a name. -/
def Place.nameBelow (place : Place κ) (base : Option String) (segment : String) : String :=
  NamePath.append place.config.settings.nameSeparator base segment

/-- The field of a definition. -/
def ofField (place : Place κ) (base : Option String) (definition : List Data) :
    Except Fault (FieldNode κ) := do
  let name ← nameOf .field place.path definition
  let typeName := textAt definition Kind.field.typeAt
  let handler ← place.config.handlerFor typeName
  let namePath := place.nameBelow base name
  let attributes ← attributesOf .field definition
  let rules := attributes.get? "validation"
  return {
    path := place.path
    name := name
    namePath := namePath
    typeName := typeName
    handler := handler
    value := slotAt definition Kind.valueAt
    errors := messagesOf .field definition
    attributes := attributes
    rules := rules
    handle := ⟨place.form, place.path, namePath, place.config.validatorOf rules⟩ }

/-- What is checked of a named node before its children are read: its handler, and its name. -/
def openNamed (place : Place κ) (kind : Kind) (definition : List Data) :
    Except Fault String := do
  place.config.requireHandler kind
  nameOf kind place.path definition

/-- The `attr` node of a definition. -/
def ofAttr (place : Place κ) (name namePath : String) (definition : List Data) :
    Except Fault AttrNode := do
  return {
    path := place.path
    name := name
    namePath := namePath
    typeName := textAt definition Kind.attr.typeAt
    errors := messagesOf .attr definition
    attributes := ← attributesOf .attr definition }

/-- The block of a definition. -/
def ofBlock (place : Place κ) (kind : Kind) (definition : List Data) :
    Except Fault BlockNode := do
  return {
    path := place.path
    label := (kind.slot .name).map (textAt definition)
    typeName := textAt definition kind.typeAt
    attributes := ← attributesOf kind definition }

/-- The container of a definition. -/
def ofContainer (place : Place κ) (container : Container) (name namePath : String)
    (definition : List Data) : Except Fault (ContainerNode κ) := do
  let kind := container.kind
  let attributes ← attributesOf kind definition
  let rules := attributes.get? "validation"
  return {
    path := place.path
    name := name
    namePath := namePath
    typeName := textAt definition kind.typeAt
    errors := messagesOf kind definition
    attributes := attributes
    rules := rules
    template := (kind.slot .template).map (slotAt definition)
    handle := ⟨place.form, container, place.path, namePath, place.config.validatorOf rules⟩ }

/-- A defect with no complete node before it. -/
def fail {α : Type} (error : Fault) : Except (ReadFailure κ) α := .error ⟨error, []⟩

/-- A result whose failure has the given complete nodes before it. -/
def behind {α : Type} (before : List (Node κ)) : Except Fault α → Except (ReadFailure κ) α
  | .ok result => .ok result
  | .error e => .error ⟨e, before⟩

/-- A result whose failure has further complete nodes before it. -/
def after {α : Type} (before : List (Node κ)) :
    Except (ReadFailure κ) α → Except (ReadFailure κ) α
  | .ok result => .ok result
  | .error failure => .error ⟨failure.error, before ++ failure.before⟩

variable (config : Config κ) (form : FormId)

mutual

/-- Read the node at an index below a path, under a name path. -/
def read (parent : Path) (base : Option String) (index : Nat) :
    Data → Except (ReadFailure κ) (Node κ)
  | .list (.string tag :: rest) =>
    match Kind.ofTag? tag with
    | none => fail (.malformedNode (parent ++ [index]) (.unknownKind tag))
    | some kind => readBody parent base index kind rest
  | found => fail (.malformedNode (parent ++ [index]) (.notNode found))

/-- Read what follows the tag of a node. -/
def readBody (parent : Path) (base : Option String) (index : Nat) (kind : Kind) :
    List Data → Except (ReadFailure κ) (Node κ)
  | .list definition :: _ =>
    let place : Place κ := ⟨config, form, parent ++ [index, definitionStep]⟩
    let inside := place.path ++ [kind.insideAt]
    match kind with
    | .field => (behind [] (ofField place base definition)).map .field
    | .attr => do
      let name ← behind [] (openNamed place .attr definition)
      let namePath := place.nameBelow base name
      -- a defect among the children wins over one of the attributes
      let children ← readSlot inside (fun _ => some namePath) kind.insideAt definition
      let node ← behind children (ofAttr place name namePath definition)
      return .attr node children
    | .compoundField | .childForm => do
      behind [] (config.requireHandler kind)
      let children ← readSlot inside (fun _ => base) kind.insideAt definition
      let node ← behind children (ofBlock place kind definition)
      return .block kind node children
    | .sect | .group =>
      -- a block with nothing inside asks for no handler and puts nothing out
      match slotAt definition kind.insideAt with
      | .null | .list [] => return .blank kind
      | .list (_ :: _) => do
        behind [] (config.requireHandler kind)
        let children ← readSlot inside (fun _ => base) kind.insideAt definition
        let node ← behind children (ofBlock place kind definition)
        return .block kind node children
      | found => fail (.malformedNode inside (.notList found))
    | .many => do
      let name ← behind [] (openNamed place .many definition)
      let namePath := place.nameBelow base name
      let items ← readItemsSlot inside (fun i => place.nameBelow (some namePath) (toString i))
        kind.insideAt definition
      let node ← behind items.flatten (ofContainer place .many name namePath definition)
      return .many node items
    | .manyChildForms => do
      let name ← behind [] (openNamed place .manyChildForms definition)
      let namePath := place.nameBelow base name
      let items ← readSlot inside (fun i => some (place.nameBelow (some namePath) (toString i)))
        kind.insideAt definition
      let node ← behind items (ofContainer place .childForms name namePath definition)
      return .childForms node items
  | _ => fail (.malformedNode (parent ++ [index]) (.noDefinition kind))

/-- Read the nodes in a slot; a missing slot holds none. -/
def readSlot (parent : Path) (base : Nat → Option String) :
    Nat → List Data → Except (ReadFailure κ) (List (Node κ))
  | _, [] => .ok []
  | 0, content :: _ => readList parent base content
  | slot + 1, _ :: rest => readSlot parent base slot rest

/-- Read a list of nodes; null holds none. -/
def readList (parent : Path) (base : Nat → Option String) :
    Data → Except (ReadFailure κ) (List (Node κ))
  | .null => .ok []
  | .list nodes => readAll parent base 0 nodes
  | found => fail (.malformedNode parent (.notList found))

/-- Read the nodes from an index on; `base` gives the name path above the node at each index. -/
def readAll (parent : Path) (base : Nat → Option String) (index : Nat) :
    List Data → Except (ReadFailure κ) (List (Node κ))
  | [] => .ok []
  | node :: rest => do
    let first ← read parent (base index) index node
    let others ← after [first] (readAll parent base (index + 1) rest)
    return first :: others

/-- Read the items in a slot of a `many` container; a missing slot holds none. -/
def readItemsSlot (parent : Path) (base : Nat → String) :
    Nat → List Data → Except (ReadFailure κ) (List (List (Node κ)))
  | _, [] => .ok []
  | 0, content :: _ => readItemsList parent base content
  | slot + 1, _ :: rest => readItemsSlot parent base slot rest

/-- Read a list of items; null holds none. -/
def readItemsList (parent : Path) (base : Nat → String) :
    Data → Except (ReadFailure κ) (List (List (Node κ)))
  | .null => .ok []
  | .list items => readItems parent base 0 items
  | found => fail (.malformedNode parent (.notList found))

/-- Read the items from an index on; `base` gives the name path of the item at each index. -/
def readItems (parent : Path) (base : Nat → String) (index : Nat) :
    List Data → Except (ReadFailure κ) (List (List (Node κ)))
  | [] => .ok []
  | .list nodes :: rest => do
    let first ← readAll (parent ++ [index]) (fun _ => some (base index)) 0 nodes
    let others ← after first (readItems parent base (index + 1) rest)
    return first :: others
  | found :: _ => fail (.malformedNode (parent ++ [index]) (.itemNotList found))

end

/-- Read the nodes of a form; nothing if the form is not a list. -/
def readForm : Data → Option (Except (ReadFailure κ) (List (Node κ)))
  | .list nodes => some (readAll config form [] (fun _ => none) 0 nodes)
  | _ => none

end Node

end FormTree
