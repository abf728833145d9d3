/-!
# Kinds of nodes and their slots

A node is a list of a tag and a definition; the tag names one of eight kinds, and the definition is
a list whose positions have a fixed meaning for each kind.  `Kind.slot` is the table of those
positions.

Two kinds repeat items: `many` holds lists of nodes, `manyChildForms` holds nodes.  They are the
containers.
-/

namespace FormTree

/-- The kinds of nodes; `sect` is the section. -/
inductive Kind where
  | field
  | attr
  | compoundField
  | many
  | sect
  | group
  | childForm
  | manyChildForms
deriving DecidableEq, Repr

/-- What a position of a definition can mean. -/
inductive Slot where
  | name
  | typeName
  | value
  | errors
  | attributes
  | children
  | template
  | contents
deriving DecidableEq, Repr

namespace Kind

/-- Every kind. -/
def all : List Kind :=
  [.field, .attr, .compoundField, .many, .sect, .group, .childForm, .manyChildForms]

/-- The tag that marks a node of this kind. -/
def tag : Kind → String
  | .field => "field"
  | .attr => "attr"
  | .compoundField => "compound_field"
  | .many => "many"
  | .sect => "section"
  | .group => "group"
  | .childForm => "child_form"
  | .manyChildForms => "many_child_forms"

/-- The kind that a tag names. -/
def ofTag? (tag : String) : Option Kind := all.find? (·.tag == tag)

/-- The position of a slot in definitions of this kind, if they have it. -/
def slot : Kind → Slot → Option Nat
  | .field, .name => some 0
  | .field, .typeName => some 1
  | .field, .value => some 2
  | .field, .errors => some 3
  | .field, .attributes => some 4
  | .attr, .name => some 0
  | .attr, .typeName => some 1
  | .attr, .errors => some 2
  | .attr, .attributes => some 3
  | .attr, .children => some 4
  | .compoundField, .typeName => some 0
  | .compoundField, .attributes => some 1
  | .compoundField, .children => some 2
  | .group, .typeName => some 0
  | .group, .attributes => some 1
  | .group, .children => some 2
  | .sect, .name => some 0
  | .sect, .typeName => some 1
  | .sect, .attributes => some 2
  | .sect, .children => some 3
  | .many, .name => some 0
  | .many, .typeName => some 1
  | .many, .errors => some 2
  | .many, .attributes => some 3
  | .many, .template => some 4
  | .many, .contents => some 5
  | .childForm, .name => some 0
  | .childForm, .typeName => some 1
  | .childForm, .children => some 2
  | .childForm, .attributes => some 3
  | .manyChildForms, .name => some 0
  | .manyChildForms, .typeName => some 1
  | .manyChildForms, .errors => some 2
  | .manyChildForms, .attributes => some 3
  | .manyChildForms, .children => some 4
  | _, _ => none

/-- The position of the slot that holds the repeated items, for the kinds that repeat items. -/
def itemsSlot : Kind → Option Nat
  | .many => slot .many .contents
  | .manyChildForms => slot .manyChildForms .children
  | _ => none

/-! ## Positions by name -/

/-- The position of the name in the kinds that have one. -/
abbrev nameAt : Nat := 0

/-- The position of a field's value. -/
abbrev valueAt : Nat := 2

/-- The position of the item template of a `many` container. -/
abbrev templateAt : Nat := 4

/-- The position of the type. -/
def typeAt : Kind → Nat
  | .compoundField | .group => 0
  | _ => 1

/-- The position of the attributes. -/
def attributesAt : Kind → Nat
  | .field => 4
  | .attr | .many | .childForm | .manyChildForms => 3
  | .sect => 2
  | .compoundField | .group => 1

/-- The position of the errors in the kinds that have them. -/
def errorsAt : Kind → Nat
  | .field => 3
  | _ => 2

/-- The position of the nodes inside, for the kinds that have nodes inside. -/
def insideAt : Kind → Nat
  | .many => 5
  | .attr | .manyChildForms => 4
  | .sect => 3
  | _ => 2

theorem ofTag?_tag (k : Kind) : ofTag? k.tag = some k := by
  cases k <;> decide

theorem tag_of_ofTag? {tag : String} {k : Kind} (h : ofTag? tag = some k) : k.tag = tag := by
  simpa using List.find?_some h

theorem slot_children {k : Kind} {position : Nat} (h : k.slot .children = some position) :
    position = k.insideAt := by
  cases k <;> simp_all [slot, insideAt]

end Kind

/-! ## Containers -/

/-- The two kinds that repeat items. -/
inductive Container where
  | many
  | childForms
deriving DecidableEq, Repr

namespace Container

/-- The kind of node that a container is. -/
def kind : Container → Kind
  | .many => .many
  | .childForms => .manyChildForms

/-- The position of the items. -/
abbrev itemsAt (c : Container) : Nat := c.kind.insideAt

/-- The position of the errors. -/
abbrev errorsAt (c : Container) : Nat := c.kind.errorsAt

end Container

end FormTree
