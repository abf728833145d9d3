import FormTree.Data.Json

/-!
# The order of keys

`Json.arranged` brings the members of every object inside a value into the order of keys, and leaves
the arrays as they are; it changes nothing exactly if they were in that order (`arranged_eq_iff`).

The plain JSON of form data is arranged: it forgets in which order the entries of a map came.
`Data.listed` keeps that order, and `toJson_eq_arranged` says that this is all the two differ in.
-/

namespace FormTree

/-! ## Members in the order of keys -/

namespace Fields

variable {α : Type}

theorem mem_ofList {entries : List (String × α)} {entry : String × α}
    (h : entry ∈ ofList entries) : entry ∈ entries := by
  suffices hfold : ∀ (fields : Fields α),
      entry ∈ entries.foldl (fun fields entry => fields.insert entry.1 entry.2) fields →
        entry ∈ fields ∨ entry ∈ entries from (hfold [] h).resolve_left List.not_mem_nil
  clear h
  induction entries with
  | nil => exact fun fields h => .inl h
  | cons first rest ih =>
    intro fields h
    rcases ih _ h with hinsert | hrest
    · rcases mem_insert hinsert with rfl | hfields
      · exact .inr List.mem_cons_self
      · exact .inl hfields
    · exact .inr (List.mem_cons_of_mem _ hrest)

/-- What has the greatest key is put at the end. -/
theorem insert_eq_append {key : String} {value : α} {fields : Fields α}
    (h : ∀ entry ∈ fields, entry.1 < key) : fields.insert key value = fields ++ [(key, value)] := by
  induction fields with
  | nil => rfl
  | cons first rest ih =>
    obtain ⟨hfirst, hrest⟩ := List.forall_mem_cons.1 h
    have hne : first.1 ≠ key := by
      rintro rfl
      exact String.lt_irrefl _ hfirst
    rw [insert, if_neg hne, if_neg (String.lt_asymm hfirst), ih hrest, List.cons_append]

/-- Members whose keys increase are in the order of keys. -/
theorem ofList_of_increasing {entries : List (String × α)} (h : Increasing entries) :
    ofList entries = entries := by
  -- entries that were read are in front, and their keys are below all that follow
  suffices hfold : ∀ (fields : Fields α), Increasing (fields ++ entries) →
      entries.foldl (fun fields entry => fields.insert entry.1 entry.2) fields = fields ++ entries from
    hfold [] h
  clear h
  induction entries with
  | nil => exact fun fields _ => (List.append_nil fields).symm
  | cons first rest ih =>
    intro fields h
    have hbelow : ∀ entry ∈ fields, entry.1 < first.1 := fun entry hentry =>
      (List.pairwise_append.1 h).2.2 entry hentry first List.mem_cons_self
    rw [List.append_cons] at h
    rw [List.foldl_cons, insert_eq_append hbelow]
    exact (ih _ h).trans (List.append_cons fields first rest).symm

end Fields

namespace Json

mutual

/-- The value with the members of every object in the order of keys. -/
def arranged : Json → Json
  | .array items => .array (arrangedItems items)
  | .object fields => .ofFields (arrangedFields fields)
  | json => json

/-- The items, each with the members of its objects in the order of keys. -/
def arrangedItems : List Json → List Json
  | [] => []
  | item :: rest => arranged item :: arrangedItems rest

/-- The members where they are, each value with the members of its objects in the order of keys. -/
def arrangedFields : List (String × Json) → List (String × Json)
  | [] => []
  | (key, value) :: rest => (key, arranged value) :: arrangedFields rest

end

theorem orderedFields_iff {fields : List (String × Json)} :
    OrderedFields fields ↔ ∀ entry ∈ fields, entry.2.Ordered := by
  induction fields with
  | nil => simp [OrderedFields]
  | cons entry rest ih => rw [List.forall_mem_cons, ← ih, OrderedFields]

mutual

theorem ordered_arranged (json : Json) : json.arranged.Ordered := by
  cases json with
  | array items =>
    rw [arranged, Ordered]
    exact orderedItems_arranged items
  | object fields =>
    rw [arranged, ofFields, Ordered, orderedFields_iff]
    exact ⟨Fields.increasing_ofList _, fun entry hentry =>
      orderedFields_iff.1 (orderedFields_arranged fields) entry (Fields.mem_ofList hentry)⟩
  | _ => trivial

theorem orderedItems_arranged (items : List Json) : OrderedItems (arrangedItems items) := by
  cases items with
  | nil => trivial
  | cons item rest => exact ⟨ordered_arranged item, orderedItems_arranged rest⟩

theorem orderedFields_arranged (fields : List (String × Json)) :
    OrderedFields (arrangedFields fields) := by
  cases fields with
  | nil => trivial
  | cons entry rest => exact ⟨ordered_arranged entry.2, orderedFields_arranged rest⟩

end

mutual

theorem arranged_of_ordered {json : Json} (h : json.Ordered) : json.arranged = json := by
  cases json with
  | array items => rw [arranged, arrangedItems_of_ordered h]
  | object fields =>
    rw [arranged, arrangedFields_of_ordered h.2, ofFields, Fields.ofList_of_increasing h.1]
  | _ => rfl

theorem arrangedItems_of_ordered {items : List Json} (h : OrderedItems items) :
    arrangedItems items = items := by
  cases items with
  | nil => rfl
  | cons item rest => rw [arrangedItems, arranged_of_ordered h.1, arrangedItems_of_ordered h.2]

theorem arrangedFields_of_ordered {fields : List (String × Json)} (h : OrderedFields fields) :
    arrangedFields fields = fields := by
  cases fields with
  | nil => rfl
  | cons entry rest => rw [arrangedFields, arranged_of_ordered h.1, arrangedFields_of_ordered h.2]

end

/-- Arranging changes nothing exactly if the members of every object are in the order of keys. -/
theorem arranged_eq_iff {json : Json} : json.arranged = json ↔ json.Ordered :=
  ⟨fun h => h ▸ ordered_arranged json, arranged_of_ordered⟩

end Json

/-! ## The plain JSON of form data -/

namespace Data

mutual

/-- Form data as plain JSON whose objects list their members in the order of the maps. -/
def listed : Data → Json
  | .null => .null
  | .bool b => .bool b
  | .number n => .number n
  | .string s => .string s
  | .list items => .array (listedItems items)
  | .map entries => .object (listedEntries entries)

/-- The items as plain JSON. -/
def listedItems : List Data → List Json
  | [] => []
  | item :: rest => listed item :: listedItems rest

/-- The entries as members. -/
def listedEntries : List (String × Data) → List (String × Json)
  | [] => []
  | (key, value) :: rest => (key, listed value) :: listedEntries rest

end

mutual

/-- Form data becomes plain JSON by putting the keys of its maps in order. -/
theorem toJson_eq_arranged (d : Data) : d.toJson = d.listed.arranged := by
  cases d with
  | list items => rw [toJson, toJsonItems_eq_arranged items, listed, Json.arranged]
  | map entries => rw [toJson, toJsonEntries_eq_arranged entries, listed, Json.arranged]
  | _ => rfl

theorem toJsonItems_eq_arranged (items : List Data) :
    toJsonItems items = Json.arrangedItems (listedItems items) := by
  cases items with
  | nil => rfl
  | cons item rest =>
    rw [toJsonItems, toJson_eq_arranged item, toJsonItems_eq_arranged rest, listedItems,
      Json.arrangedItems]

theorem toJsonEntries_eq_arranged (entries : List (String × Data)) :
    toJsonEntries entries = Json.arrangedFields (listedEntries entries) := by
  cases entries with
  | nil => rfl
  | cons entry rest =>
    rw [toJsonEntries, toJson_eq_arranged entry.2, toJsonEntries_eq_arranged rest, listedEntries,
      Json.arrangedFields]

end

end Data

end FormTree
