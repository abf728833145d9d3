import FormTree.Fault

/-!
# Attributes

A node carries attributes as a small tree of its own: a list of a tag and a definition, where
`value` holds a literal, `array` a list of attribute nodes, and `object` a list of pairs of a key
and an attribute node.  `Attribute.ofData` reads that tree into an `Attribute`, whose objects keep
the order in which their keys are declared; a key must not be declared twice in one object.

A missing or empty tree stands for the empty object, at the top only.
-/

namespace FormTree

/-- What an attribute tree stands for. -/
inductive Attribute where
  | object (entries : List (String × Attribute))
  | array (items : List Attribute)
  | literal (json : Json)

namespace Attribute

/-- No attributes. -/
def empty : Attribute := .object []

instance : Inhabited Attribute := ⟨empty⟩

/-! ## Looking inside -/

/-- The value under a key of an object. -/
def get? (key : String) : Attribute → Option Attribute
  | .object entries => entries.lookup key
  | _ => none

/-- The items of an array. -/
def toArray? : Attribute → Option (List Attribute)
  | .array items => some items
  | _ => none

/-- The literal of a value. -/
def toLiteral? : Attribute → Option Json
  | .literal json => some json
  | _ => none

/-- The text of a value that is a string. -/
def toString? (a : Attribute) : Option String := a.toLiteral?.bind Json.toString?

/-- Whether an object or array has nothing in it; a value never counts as empty. -/
def isEmpty : Attribute → Bool
  | .object entries => entries.isEmpty
  | .array items => items.isEmpty
  | .literal _ => false

/-- Whether this is the empty object, which stands for missing attributes. -/
def isDefault : Attribute → Bool
  | .object entries => entries.isEmpty
  | _ => false

mutual

/-- The attributes as plain JSON. -/
def toJson : Attribute → Json
  | .object entries => .ofFields (toJsonEntries entries)
  | .array items => .array (toJsonItems items)
  | .literal json => json

/-- The items as plain JSON. -/
def toJsonItems : List Attribute → List Json
  | [] => []
  | item :: rest => toJson item :: toJsonItems rest

/-- The entries as members, in declaration order. -/
def toJsonEntries : List (String × Attribute) → List (String × Json)
  | [] => []
  | (key, child) :: rest => (key, toJson child) :: toJsonEntries rest

end

/-! ## Reading a tree -/

mutual

/-- Read an attribute node. -/
def ofNode : Data → Except Fault Attribute
  | .list (.string tag :: rest) => ofTagged tag rest
  | found => .error (.malformedAttribute (.notPair found))

/-- Read the definition behind a tag. -/
def ofTagged (tag : String) : List Data → Except Fault Attribute
  | [] =>
    if tag = "object" ∨ tag = "array" ∨ tag = "value" then
      .error (.malformedAttribute (.noDefinition tag))
    else .error (.malformedAttribute (.unknownKind tag))
  | definition :: _ =>
    if tag = "object" then ofObject definition
    else if tag = "array" then ofArray definition
    else if tag = "value" then ofValue definition
    else .error (.malformedAttribute (.unknownKind tag))

/-- Read the definition of an object. -/
def ofObject : Data → Except Fault Attribute
  | .list pairs => (ofPairs [] pairs).map .object
  | _ => .error (.malformedAttribute .objectNotList)

/-- Read the definition of an array. -/
def ofArray : Data → Except Fault Attribute
  | .list nodes => (ofNodes nodes).map .array
  | _ => .error (.malformedAttribute .arrayNotList)

/-- Read the definition of a value. -/
def ofValue : Data → Except Fault Attribute
  | .list (found :: _) => .ok (.literal found.toJson)
  | _ => .error (.malformedAttribute .noLiteral)

/-- Read attribute nodes from left to right, up to the first defect. -/
def ofNodes : List Data → Except Fault (List Attribute)
  | [] => .ok []
  | node :: rest =>
    match ofNode node with
    | .error e => .error e
    | .ok item =>
      match ofNodes rest with
      | .error e => .error e
      | .ok items => .ok (item :: items)

/-- Read the pairs of an object from left to right, up to the first defect; `seen` holds the keys
before them. -/
def ofPairs (seen : List String) : List Data → Except Fault (List (String × Attribute))
  | [] => .ok []
  | pair :: rest =>
    match ofPair seen pair with
    | .error e => .error e
    | .ok entry =>
      match ofPairs (entry.1 :: seen) rest with
      | .error e => .error e
      | .ok entries => .ok (entry :: entries)

/-- Read one pair of an object; a key that was seen is refused before its node is read. -/
def ofPair (seen : List String) : Data → Except Fault (String × Attribute)
  | .list (.string key :: node :: _) =>
    if key ∈ seen then .error (.duplicateAttributeKey key)
    else
      match ofNode node with
      | .error e => .error e
      | .ok child => .ok (key, child)
  | .list [.string key] => .error (.malformedAttribute (.keyWithoutNode key))
  | found => .error (.malformedAttribute (.entryWithoutKey found))

end

/-- Read an attribute tree; null and the empty list stand for no attributes. -/
def ofData : Data → Except Fault Attribute
  | .null => .ok empty
  | .list [] => .ok empty
  | node => ofNode node

end Attribute

end FormTree
