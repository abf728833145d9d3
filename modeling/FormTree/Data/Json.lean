import FormTree.Data.Basic
import FormTree.Json.Printer

/-!
# Form data and plain JSON

`Data.ofJson` keeps a JSON value as it is; `Data.toJson` puts the entries of every map into the
order of keys, and so forgets the order in which they came.
-/

namespace FormTree.Data

mutual

/-- A JSON value as form data. -/
def ofJson : Json → Data
  | .null => .null
  | .bool b => .bool b
  | .number n => .number n
  | .string s => .string s
  | .array items => .list (ofJsonItems items)
  | .object fields => .map (ofJsonFields fields)

/-- JSON items as form data. -/
def ofJsonItems : List Json → List Data
  | [] => []
  | item :: rest => ofJson item :: ofJsonItems rest

/-- JSON members as map entries. -/
def ofJsonFields : List (String × Json) → List (String × Data)
  | [] => []
  | (key, value) :: rest => (key, ofJson value) :: ofJsonFields rest

end

mutual

/-- Form data as a JSON value. -/
def toJson : Data → Json
  | .null => .null
  | .bool b => .bool b
  | .number n => .number n
  | .string s => .string s
  | .list items => .array (toJsonItems items)
  | .map entries => .ofFields (toJsonEntries entries)

/-- Form data items as JSON. -/
def toJsonItems : List Data → List Json
  | [] => []
  | item :: rest => toJson item :: toJsonItems rest

/-- Map entries as members, in the order of the map. -/
def toJsonEntries : List (String × Data) → List (String × Json)
  | [] => []
  | (key, value) :: rest => (key, toJson value) :: toJsonEntries rest

end

@[simp] theorem toJsonItems_eq_map (items : List Data) : toJsonItems items = items.map toJson := by
  induction items with
  | nil => rfl
  | cons item rest ih => simp [toJsonItems, ih]

@[simp] theorem ofJsonItems_eq_map (items : List Json) : ofJsonItems items = items.map ofJson := by
  induction items with
  | nil => rfl
  | cons item rest ih => simp [ofJsonItems, ih]

/-- The compact JSON text of form data. -/
def text (d : Data) : String := d.toJson.text

/-- The items of a list as a JSON array, empty for anything else and for nothing. -/
def itemsJson (d : Option Data) : Json :=
  match d with
  | some (.list items) => .array (items.map toJson)
  | _ => .array []

theorem itemsJson_some (d : Data) : itemsJson (some d) = .array (d.items.map toJson) := by
  cases d <;> rfl

/-- The texts among the items of a list. -/
def texts (d : Data) : List String := d.items.filterMap toString?

/-- A list of texts. -/
def ofTexts (texts : List String) : Data := .list (texts.map .string)

theorem texts_ofTexts (texts : List String) : (ofTexts texts).texts = texts := by
  simp [ofTexts, Data.texts, List.filterMap_map, Function.comp_def, toString?]

end FormTree.Data
