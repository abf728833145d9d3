import FormTree.Proofs.Attribute.Meaning
import FormTree.Proofs.Data.Arrangement

/-!
# The order of attribute keys

An attribute tree declares the members of its objects one after the other, at every depth.
`Data.declared` is the plain JSON that lists them in this order.  The attributes that are read from the
tree keep the order, but their plain JSON does not: its objects have their members in the order of keys,
as `toJson_arranges` says.  So the order of declaration survives exactly if it is the order of keys.
-/

namespace FormTree

namespace Data

/-- The literal of a value, as it stands in the definition. -/
def declaredLiteral : List Data → Json
  | [] => .null
  | literal :: _ => literal.listed

mutual

/-- The plain JSON that an attribute tree declares, with the members of every object in the order of
their declaration; of a tree that declares nothing, the empty object. -/
def declared : Data → Json
  | .list (.string tag :: .list definition :: _) =>
    if tag = "object" then .object (declaredEntries definition)
    else if tag = "array" then .array (declaredItems definition)
    else declaredLiteral definition
  | _ => .object []

/-- What attribute nodes declare, one by one. -/
def declaredItems : List Data → List Json
  | [] => []
  | node :: rest => declared node :: declaredItems rest

/-- What pairs of a key and an attribute node declare, one by one. -/
def declaredEntries : List Data → List (String × Json)
  | [] => []
  | .list (.string key :: node :: _) :: rest => (key, declared node) :: declaredEntries rest
  | _ :: rest => declaredEntries rest

end

section

variable {d : Data} {definition : List Data}

theorem declared_of_tag {tag : String} (htag : d.child? 0 = some (.string tag))
    (hdefinition : d.child? 1 = some (.list definition)) :
    d.declared = if tag = "object" then .object (declaredEntries definition)
      else if tag = "array" then .array (declaredItems definition)
      else declaredLiteral definition := by
  obtain ⟨more, rfl⟩ := eq_list_of_children htag hdefinition
  rw [declared]

theorem declared_object (htag : d.child? 0 = some (.string "object"))
    (hdefinition : d.child? 1 = some (.list definition)) :
    d.declared = .object (declaredEntries definition) := by
  rw [declared_of_tag htag hdefinition, if_pos rfl]

theorem declared_array (htag : d.child? 0 = some (.string "array"))
    (hdefinition : d.child? 1 = some (.list definition)) :
    d.declared = .array (declaredItems definition) := by
  rw [declared_of_tag htag hdefinition, if_neg (by decide), if_pos rfl]

theorem declared_value (htag : d.child? 0 = some (.string "value"))
    (hdefinition : d.child? 1 = some (.list definition)) :
    d.declared = declaredLiteral definition := by
  rw [declared_of_tag htag hdefinition, if_neg (by decide), if_neg (by decide)]

end

mutual

/-- What a tree denotes has as plain JSON what the tree declares, with the keys put in order. -/
theorem Denotes.toJson_eq {d : Data} {a : Attribute} (h : d.Denotes a) :
    a.toJson = d.declared.arranged := by
  cases h with
  | value htag hliteral =>
    rw [declared_value htag hliteral, declaredLiteral, Attribute.toJson, toJson_eq_arranged]
  | array htag hnodes hitems =>
    rw [declared_array htag hnodes, Json.arranged, Attribute.toJson, hitems.toJson_eq]
  | object htag hpairs hentries =>
    rw [declared_object htag hpairs, Json.arranged, Attribute.toJson, hentries.toJson_eq]

theorem DenoteItems.toJson_eq {nodes : List Data} {items : List Attribute}
    (h : DenoteItems nodes items) :
    Attribute.toJsonItems items = Json.arrangedItems (declaredItems nodes) := by
  cases h with
  | nil => rfl
  | cons hnode hrest =>
    rw [Attribute.toJsonItems, hnode.toJson_eq, hrest.toJson_eq, declaredItems, Json.arrangedItems]

theorem DenoteEntries.toJson_eq {pairs : List Data} {entries : List (String × Attribute)}
    (h : DenoteEntries pairs entries) :
    Attribute.toJsonEntries entries = Json.arrangedFields (declaredEntries pairs) := by
  cases h with
  | nil => rfl
  | cons hkey hnode hchild hrest =>
    obtain ⟨more, rfl⟩ := eq_list_of_children hkey hnode
    rw [Attribute.toJsonEntries, hchild.toJson_eq, hrest.toJson_eq, declaredEntries,
      Json.arrangedFields]

end

end Data

namespace Attribute

/-- The plain JSON of the attributes that are read from a tree is what the tree declares, with the
members of every object, at every depth, in the order of keys; arrays keep the order of their items.
So it lists the members as they are declared exactly if every object declares them in the order of
keys. -/
theorem toJson_arranges {d : Data} {a : Attribute} (h : ofData d = .ok a) :
    a.toJson = d.declared.arranged ∧ (a.toJson = d.declared ↔ d.declared.Ordered) := by
  have harranged : a.toJson = d.declared.arranged := by
    rcases ofData_eq_ok.1 h with ⟨rfl | rfl, rfl⟩ | hdenotes
    · rfl
    · rfl
    · exact hdenotes.toJson_eq
  exact ⟨harranged, harranged ▸ Json.arranged_eq_iff⟩

/-! ## Keys in both orders -/

namespace Radio

/-- A literal that is a text. -/
def text (s : String) : Data := .list [.string "value", .list [.string s]]

/-- An object with the given members. -/
def object (pairs : List Data) : Data := .list [.string "object", .list pairs]

/-- Two objects in an array, with their members in the order of keys. -/
def sorted : Data := object [
  .list [.string "label", text "Size"],
  .list [.string "options", .list [.string "array", .list [
    object [.list [.string "value", text "l"]],
    object [.list [.string "hint", text "small"], .list [.string "value", text "s"]]]]]]

/-- Two members, the second of which comes first in the order of keys. -/
def unsorted : Data :=
  object [.list [.string "label", text "Size"], .list [.string "hint", text "wide"]]

end Radio

open Radio in
theorem toJson_arranges_sorted : ∃ a, ofData sorted = .ok a ∧ a.toJson = sorted.declared
    ∧ sorted.declared = .object [("label", .string "Size"), ("options", .array
      [.object [("value", .string "l")],
        .object [("hint", .string "small"), ("value", .string "s")]])] := by
  have hdeclared : sorted.declared = .object [("label", .string "Size"), ("options", .array
      [.object [("value", .string "l")],
        .object [("hint", .string "small"), ("value", .string "s")]])] := rfl
  have hordered : sorted.declared.Ordered := Json.arranged_eq_iff.1 rfl
  exact ⟨_, rfl, (toJson_arranges rfl).2.2 hordered, hdeclared⟩

open Radio in
/-- The two members change places. -/
theorem unsorted_keys : ∃ a, ofData unsorted = .ok a
    ∧ a.toJson = .object [("hint", .string "wide"), ("label", .string "Size")]
    ∧ unsorted.declared = .object [("label", .string "Size"), ("hint", .string "wide")]
    ∧ a.toJson ≠ unsorted.declared := by
  have hne : Json.object [("hint", .string "wide"), ("label", .string "Size")]
      ≠ .object [("label", .string "Size"), ("hint", .string "wide")] := by simp
  exact ⟨_, rfl, rfl, rfl, hne⟩

end Attribute

end FormTree
