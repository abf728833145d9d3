import FormTree.Json.Basic
import FormTree.Path

/-!
# Form data

A form is a tree of data like JSON, whose maps remember the order in which their keys were put in.
`Data.same` compares values and does not look at that order.

Lists are what paths lead through.  `node?` follows a path, `replace?` replaces the node at its end,
and `erase?` takes a list item out, so that later items move down by one.  All three succeed on the
same paths, except that the root cannot be taken out.
-/

namespace FormTree

/-- A node of form data.  The keys of a map are meant to be distinct. -/
inductive Data where
  | null
  | bool (value : Bool)
  | number (value : Number)
  | string (value : String)
  | list (items : List Data)
  | map (entries : List (String × Data))

namespace Data

instance : Inhabited Data := ⟨.null⟩

/-! ## Reading -/

/-- Whether the node is null. -/
def isNull : Data → Bool
  | .null => true
  | _ => false

/-- The text of a string. -/
def toString? : Data → Option String
  | .string s => some s
  | _ => none

/-- The truth value of a boolean. -/
def toBool? : Data → Option Bool
  | .bool b => some b
  | _ => none

/-- The number of a number. -/
def toNumber? : Data → Option Number
  | .number n => some n
  | _ => none

/-- The items of a list. -/
def toList? : Data → Option (List Data)
  | .list items => some items
  | _ => none

/-- The entries of a map. -/
def toMap? : Data → Option (List (String × Data))
  | .map entries => some entries
  | _ => none

/-- The items of a list, and none of anything else. -/
def items (d : Data) : List Data := d.toList?.getD []

/-- The number of items or entries; zero of anything else. -/
def size : Data → Nat
  | .list items => items.length
  | .map entries => entries.length
  | _ => 0

/-- The item of a list at an index. -/
def child? (d : Data) (index : Nat) : Option Data := d.toList?.bind (·[index]?)

@[simp] theorem items_list (xs : List Data) : (list xs).items = xs := rfl

@[simp] theorem child?_list (xs : List Data) (index : Nat) :
    (list xs).child? index = xs[index]? := rfl

/-! ## Paths -/

/-- The node at the end of a path. -/
def node? (d : Data) : Path → Option Data
  | [] => some d
  | index :: rest => (d.child? index).bind (node? · rest)

/-- The tree with the node at the end of a path replaced. -/
def replace? : Data → Path → Data → Option Data
  | _, [], value => some value
  | .list xs, index :: rest, value =>
    match xs[index]? with
    | some child => (replace? child rest value).map fun child => .list (xs.set index child)
    | none => none
  | _, _ :: _, _ => none

/-- The tree without the list item at the end of a path. -/
def erase? (d : Data) (p : Path) : Option Data := do
  let index ← p.getLast?
  let xs ← (← d.node? p.dropLast).toList?
  if index < xs.length then d.replace? p.dropLast (.list (xs.eraseIdx index)) else none

@[simp] theorem node?_nil (d : Data) : d.node? [] = some d := rfl

theorem node?_cons (d : Data) (index : Nat) (rest : Path) :
    d.node? (index :: rest) = (d.child? index).bind (node? · rest) := rfl

theorem node?_append (d : Data) (p q : Path) :
    d.node? (p ++ q) = (d.node? p).bind (node? · q) := by
  induction p generalizing d with
  | nil => rfl
  | cons index rest ih =>
    simp only [List.cons_append, node?_cons]
    cases d.child? index with
    | none => rfl
    | some child => exact ih child

/-! ## Equality -/

mutual

/-- Equality of values; maps are equal if they have as many entries and agree under every key. -/
def same : Data → Data → Bool
  | .null, .null => true
  | .bool a, .bool b => a == b
  | .number m, .number n => m.same n
  | .string s, .string t => s == t
  | .list xs, .list ys => sameItems xs ys
  | .map xs, .map ys => xs.length == ys.length && sameEntries xs ys
  | _, _ => false

/-- Equality of lists, item by item. -/
def sameItems : List Data → List Data → Bool
  | [], [] => true
  | x :: xs, y :: ys => same x y && sameItems xs ys
  | _, _ => false

/-- Whether every entry has an equal value under its key in `ys`. -/
def sameEntries : List (String × Data) → List (String × Data) → Bool
  | [], _ => true
  | (key, x) :: xs, ys =>
    (match ys.lookup key with
      | some y => same x y
      | none => false) && sameEntries xs ys

end

mutual

/-- Every map inside a node has distinct keys. -/
def Distinct : Data → Prop
  | .list xs => DistinctItems xs
  | .map entries => (entries.map Prod.fst).Nodup ∧ DistinctEntries entries
  | _ => True

/-- Every item has distinct keys inside. -/
def DistinctItems : List Data → Prop
  | [] => True
  | x :: xs => Distinct x ∧ DistinctItems xs

/-- Every value has distinct keys inside. -/
def DistinctEntries : List (String × Data) → Prop
  | [] => True
  | (_, x) :: xs => Distinct x ∧ DistinctEntries xs

end

end Data

end FormTree
