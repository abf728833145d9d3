import FormTree.Node.Attribute
import FormTree.Form.Directory

/-!
# Configuration of forms

A configuration says for which kinds of nodes and types of fields the host has a render handler, how
validation rules become validators, which child form templates there are, and the settings.
-/

namespace FormTree

/-- Which render handler serves a field. -/
inductive FieldHandler where
  /-- The handler for the field's type. -/
  | own (typeName : String)
  /-- The handler for all other types. -/
  | fallback
deriving DecidableEq, Repr

/-- What a host sets up for its forms. -/
structure Config (κ : Type) where
  /-- The field types that have a handler of their own. -/
  fieldTypes : List String
  /-- Whether there is a handler for all other field types. -/
  fallbackField : Bool
  /-- The kinds of nodes, besides fields, that have a handler. -/
  handled : List Kind
  /-- The validator that rules ask for. -/
  validator : Option (Attribute → κ)
  /-- Child form templates, in the order of their names. -/
  templates : Fields Data
  settings : Settings

namespace Config

variable {κ : Type}

instance : Inhabited (Config κ) := ⟨⟨[], false, [], none, [], {}⟩⟩

/-- The names of the child form templates, in order. -/
def templateNames (c : Config κ) : List String := c.templates.map Prod.fst

/-- What the forms of this configuration are set up with. -/
def profile (c : Config κ) : Profile := ⟨c.settings, c.templates⟩

/-- The handler of a field type. -/
def handlerFor (c : Config κ) (typeName : String) : Except Fault FieldHandler :=
  if typeName ∈ c.fieldTypes then .ok (.own typeName)
  else if c.fallbackField then .ok .fallback
  else .error (.missingHandler (.fieldType typeName))

/-- Refuses a kind of node that has no handler. -/
def requireHandler (c : Config κ) (kind : Kind) : Except Fault Unit :=
  if kind ∈ c.handled then .ok () else .error (.missingHandler (.node kind))

/-- The validator of a node with the given rules, if it has rules and there are validators. -/
def validatorOf (c : Config κ) (rules : Option Attribute) : Option κ :=
  c.validator.bind fun validator => rules.map validator

end Config

end FormTree
