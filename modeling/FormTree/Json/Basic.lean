import FormTree.Number.Basic

/-!
# Plain JSON values

An object lists its members in increasing order of their keys, without repeats: that is
`Json.Ordered`, and `Json.object` of `Fields.insert` keeps it.  The order of keys is the order of
their code points, which is also the order of their UTF-8 bytes.

`Json.same` is equality of values: arrays and objects member by member, numbers as `Number.same`
compares them.
-/

namespace FormTree

/-- A JSON value.  The members of an object are meant to be in increasing order of keys. -/
inductive Json where
  | null
  | bool (value : Bool)
  | number (value : Number)
  | string (value : String)
  | array (items : List Json)
  | object (fields : List (String × Json))

instance : Inhabited Json := ⟨.null⟩

/-! ## Ordered fields -/

/-- Members of an object, a list of keys with their values. -/
abbrev Fields (α : Type) := List (String × α)

namespace Fields

variable {α : Type}

/-- Put a value under a key: replace what is there, else keep the keys in increasing order. -/
def insert (key : String) (value : α) : Fields α → Fields α
  | [] => [(key, value)]
  | (k, v) :: rest =>
    if k = key then (key, value) :: rest
    else if key < k then (key, value) :: (k, v) :: rest
    else (k, v) :: insert key value rest

/-- Ordered fields of any list of keys with values; of a repeated key the last value counts. -/
def ofList (entries : List (String × α)) : Fields α :=
  entries.foldl (fun fields entry => fields.insert entry.1 entry.2) []

/-- The keys of `fields` increase strictly. -/
def Increasing (fields : Fields α) : Prop := fields.Pairwise fun a b => a.1 < b.1

theorem increasing_nil : Increasing ([] : Fields α) := List.Pairwise.nil

theorem mem_insert {key : String} {value : α} {fields : Fields α} {entry : String × α}
    (h : entry ∈ fields.insert key value) : entry = (key, value) ∨ entry ∈ fields := by
  induction fields with
  | nil => simpa [insert] using h
  | cons head rest ih => grind [insert]

theorem increasing_insert {key : String} {value : α} {fields : Fields α}
    (h : Increasing fields) : Increasing (fields.insert key value) := by
  induction fields with
  | nil => exact List.pairwise_singleton _ _
  | cons head rest ih =>
    obtain ⟨k, v⟩ := head
    obtain ⟨hhead, hrest⟩ := List.pairwise_cons.1 h
    simp only [insert]
    split
    · next hk => subst hk; exact List.pairwise_cons.2 ⟨hhead, hrest⟩
    · next hne =>
      split
      · next hlt =>
        refine List.pairwise_cons.2 ⟨fun entry hentry => ?_, h⟩
        rcases List.mem_cons.1 hentry with rfl | hentry
        · exact hlt
        · exact String.lt_trans hlt (hhead entry hentry)
      · next hge =>
        refine List.pairwise_cons.2 ⟨fun entry hentry => ?_, ih hrest⟩
        rcases mem_insert hentry with rfl | hentry
        · exact Std.lt_of_le_of_ne (String.not_lt.1 hge) hne
        · exact hhead entry hentry

theorem increasing_ofList (entries : List (String × α)) : Increasing (ofList entries) := by
  suffices h : ∀ (fields : Fields α), Increasing fields →
      Increasing (entries.foldl (fun fields entry => fields.insert entry.1 entry.2) fields) from
    h [] increasing_nil
  induction entries with
  | nil => exact fun fields h => h
  | cons entry rest ih => exact fun fields h => ih _ (increasing_insert h)

end Fields

namespace Json

/-! ## Reading -/

/-- The text of a string value. -/
def toString? : Json → Option String
  | .string s => some s
  | _ => none

/-- The items of an array. -/
def toArray? : Json → Option (List Json)
  | .array items => some items
  | _ => none

/-- The value under a key of an object. -/
def get? (key : String) : Json → Option Json
  | .object fields => fields.lookup key
  | _ => none

/-- An object with the given members, in order of keys. -/
def ofFields (entries : List (String × Json)) : Json := .object (Fields.ofList entries)

/-- An array of strings. -/
def ofStrings (texts : List String) : Json := .array (texts.map .string)

/-! ## Equality and order -/

mutual

/-- Equality of values. -/
def same : Json → Json → Bool
  | .null, .null => true
  | .bool a, .bool b => a == b
  | .number m, .number n => m.same n
  | .string s, .string t => s == t
  | .array xs, .array ys => sameItems xs ys
  | .object xs, .object ys => sameFields xs ys
  | _, _ => false

/-- Equality of lists of values, item by item. -/
def sameItems : List Json → List Json → Bool
  | [], [] => true
  | x :: xs, y :: ys => same x y && sameItems xs ys
  | _, _ => false

/-- Equality of members, in their order. -/
def sameFields : List (String × Json) → List (String × Json) → Bool
  | [], [] => true
  | (k, x) :: xs, (l, y) :: ys => k == l && same x y && sameFields xs ys
  | _, _ => false

end

mutual

/-- Every object inside a value has strictly increasing keys. -/
def Ordered : Json → Prop
  | .array items => OrderedItems items
  | .object fields => Fields.Increasing fields ∧ OrderedFields fields
  | _ => True

/-- Every item is ordered. -/
def OrderedItems : List Json → Prop
  | [] => True
  | item :: rest => Ordered item ∧ OrderedItems rest

/-- Every member is ordered. -/
def OrderedFields : List (String × Json) → Prop
  | [] => True
  | (_, value) :: rest => Ordered value ∧ OrderedFields rest

end

end Json

end FormTree
