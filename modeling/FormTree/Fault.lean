import FormTree.Data.Json
import FormTree.Node.Kind
import FormTree.Text.Quoted

/-!
# What can go wrong with a form

Every failure is a cause; `Fault.message` has the wording.
-/

namespace FormTree

/-- What a node lacks. -/
inductive NodeDefect where
  /-- Not a list that starts with a tag. -/
  | notNode (found : Data)
  | unknownKind (tag : String)
  | noDefinition (kind : Kind)
  | noName (kind : Kind)
  /-- A slot for nodes that holds something other than a list. -/
  | notList (found : Data)
  /-- An item of a container that is not a list of nodes. -/
  | itemNotList (found : Data)
  /-- An action was addressed to something other than a definition. -/
  | notDefinition (found : Data)

/-- What an attribute node lacks. -/
inductive AttributeDefect where
  | notPair (found : Data)
  | unknownKind (tag : String)
  | noDefinition (tag : String)
  | objectNotList
  | entryWithoutKey (found : Data)
  | keyWithoutNode (key : String)
  | arrayNotList
  | noLiteral

/-- What a render handler is looked up by. -/
inductive HandlerKey where
  | fieldType (name : String)
  | node (kind : Kind)
deriving DecidableEq, Repr

/-- What a name on a form can stand for. -/
inductive EntrySort where
  | field
  | container (container : Container)
deriving DecidableEq, Repr

/-- The failures of reading, changing and addressing a form. -/
inductive Fault where
  | missingHandler (key : HandlerKey)
  | malformedNode (path : Path) (defect : NodeDefect)
  | malformedAttribute (defect : AttributeDefect)
  | duplicateAttributeKey (key : String)
  | pathNotFound (path : Path)
  | invalidOrder (order : List Nat) (count : Nat)
  | wrongEntry (name : String) (expected : EntrySort)
  | unknownName (name : String)
  | unknownTemplate (name : String)
  | reentrantDispatch

/-- Numbers in brackets, separated by commas. -/
def orderText (order : List Nat) : String := Text.bracketed (order.map toString)

namespace NodeDefect

/-- The wording of a defect. -/
def message : NodeDefect → String
  | .notNode found => "expected a `[kind, definition]` node, got " ++ found.text
  | .unknownKind tag => s!"unknown node kind `{tag}`"
  | .noDefinition kind => kind.tag ++ " node has no definition list"
  | .noName kind => kind.tag ++ " node has no name"
  | .notList found => "expected a list, got " ++ found.text
  | .itemNotList found => "content item must be a list of nodes, got " ++ found.text
  | .notDefinition found => "expected a definition list, got " ++ found.text

end NodeDefect

namespace AttributeDefect

/-- The wording of a defect. -/
def message : AttributeDefect → String
  | .notPair found => "expected a `[kind, definition]` pair, got " ++ found.text
  | .unknownKind tag => s!"unknown attribute kind `{tag}`"
  | .noDefinition tag => s!"`{tag}` node has no definition"
  | .objectNotList => "object definition must be a list of pairs"
  | .entryWithoutKey found => "object pair without a string key: " ++ found.text
  | .keyWithoutNode key => s!"object key `{key}` has no node"
  | .arrayNotList => "array definition must be a list"
  | .noLiteral => "value definition must hold a literal"

end AttributeDefect

namespace HandlerKey

/-- How a message names the missing handler. -/
def text : HandlerKey → String
  | .fieldType name => s!"field type `{name}`"
  | .node kind => kind.tag

end HandlerKey

namespace EntrySort

/-- How a message names what was expected. -/
def text : EntrySort → String
  | .field => "field"
  | .container .many => "many container"
  | .container .childForms => "child forms container"

end EntrySort

namespace Fault

/-- The wording of an error. -/
def message : Fault → String
  | .missingHandler key => "Expected a handler for " ++ key.text ++ " to be registered"
  | .malformedNode path defect => "Malformed node at [" ++ path.text ++ "]: " ++ defect.message
  | .malformedAttribute defect => "Malformed attribute node: " ++ defect.message
  | .duplicateAttributeKey key => s!"Duplicate attribute key `{key}`"
  | .pathNotFound path => "No node at path [" ++ path.text ++ "]"
  | .invalidOrder order count => "Invalid order " ++ orderText order ++ s!" for {count} items"
  | .wrongEntry name expected => s!"`{name}` is not a " ++ expected.text
  | .unknownName name => s!"No field or container named `{name}`"
  | .unknownTemplate name => s!"No child form template named `{name}`"
  | .reentrantDispatch => "Dispatch rejected: another dispatch is in progress"

end Fault

end FormTree
