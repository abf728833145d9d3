import FormTree.Node.Attribute

/-!
# Validation rules

A small vocabulary of validators: bounds on the number of items, a text that must be filled in, and
a rule that shows the value it was asked about.  Rules come from a lookup of their keys; a rule
whose value is of another type is ignored.
-/

namespace FormTree.Session

/-- Validation rules; each may be missing. -/
structure Rules where
  minItems : Option Nat
  maxItems : Option Nat
  filled : Bool
  shown : Option String

namespace Rules

/-- The non-negative integer that a value is. -/
def natural? : Json → Option Nat
  | .number n => n.toNat64?
  | _ => none

/-- The rules that a lookup of keys gives. -/
def ofLookup (find : String → Option Json) : Rules where
  minItems := (find "min_items").bind natural?
  maxItems := (find "max_items").bind natural?
  filled := match find "filled" with
    | some (.bool b) => b
    | _ => false
  shown := (find "show").bind Json.toString?

/-- The rules in an object. -/
def ofJson (rules : Json) : Rules := ofLookup (rules.get? ·)

/-- The rules in an attribute, whose keys count if they hold literals. -/
def ofAttribute (rules : Attribute) : Rules :=
  ofLookup fun key => (rules.get? key).bind Attribute.toLiteral?

/-- Whether a value is a text that is not empty. -/
def isFilled : Json → Bool
  | .string s => s != ""
  | _ => false

/-- The errors that the rules find in a value, in the order of the rules. -/
def errors (r : Rules) (value : Json) : List String :=
  let size := (value.toArray?.getD []).length
  let below := r.minItems.filter (size < ·) |>.map fun least => s!"size cannot be less than {least}"
  let above := r.maxItems.filter (· < size) |>.map fun most => s!"size cannot be more than {most}"
  let blank := if r.filled && !isFilled value then some "must be filled" else none
  let shown := r.shown.map (· ++ value.text)
  [below, above, blank, shown].filterMap id

end Rules

end FormTree.Session
