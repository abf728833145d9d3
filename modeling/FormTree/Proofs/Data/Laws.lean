import FormTree.Proofs.Data.Paths

/-!
# The laws of replacing and taking out

`NodeReplaced` and `ItemTakenOut` say what every path reads after a node was replaced or an item
taken out: the new content at the place and below it, lists of the same length above it, and all else
as before.  Such reads determine the tree, so that the two operations are known by them
(`replace?_eq_some_iff`, `erase?_eq_some_iff`).

`replacement_laws` and `erasure_laws` add when the operations succeed and what two of them do one
after the other.
-/

namespace FormTree

/-- The lists on the way to a path are still there, with as many items. -/
def SpineKept (s : Data) (path : Path) (s' : Data) : Prop :=
  ∀ q, q <+: path → q ≠ path → ∃ xs xs', s.node? q = some (.list xs)
    ∧ s'.node? q = some (.list xs') ∧ xs'.length = xs.length

/-- The node at a path was replaced, and nothing else happened. -/
structure NodeReplaced (s : Data) (path : Path) (value s' : Data) : Prop where
  below : ∀ rest, s'.node? (path ++ rest) = value.node? rest
  above : SpineKept s path s'
  frame : ∀ q, ¬ path <+: q → ¬ q <+: path → s'.node? q = s.node? q

/-- An item of the list at a path was taken out, and nothing else happened. -/
structure ItemTakenOut (s : Data) (path : Path) (items : List Data) (index : Nat) (s' : Data) :
    Prop where
  found : s.node? path = some (.list items)
  inside : index < items.length
  left : s'.node? path = some (.list (items.eraseIdx index))
  before : ∀ j rest, j < index → s'.node? (path ++ j :: rest) = s.node? (path ++ j :: rest)
  behind : ∀ j rest, index ≤ j → s'.node? (path ++ j :: rest) = s.node? (path ++ (j + 1) :: rest)
  above : SpineKept s path s'
  frame : ∀ q, ¬ path <+: q → ¬ q <+: path → s'.node? q = s.node? q

variable {s s' value : Data} {path rest : Path} {items : List Data} {index : Nat}

/-- A path below a list reads an item of it. -/
theorem node?_below (h : s.node? path = some (.list items)) (index : Nat) (rest : Path) :
    s.node? (path ++ index :: rest) = items[index]?.bind (Data.node? · rest) := by
  rw [Data.node?_append, h]
  rfl

/-! ## Replacing -/

theorem spineKept_of_replace? (h : s.replace? path value = some s') : SpineKept s path s' := by
  intro q hq hne
  obtain ⟨rest, rfl⟩ := hq
  cases rest with
  | nil => simp at hne
  | cons index rest =>
    obtain ⟨xs, child, hbefore, hafter⟩ := Data.node?_replace?_above h
    exact ⟨xs, _, hbefore, hafter, List.length_set⟩

theorem NodeReplaced.of_replace? (h : s.replace? path value = some s') :
    NodeReplaced s path value s' :=
  ⟨Data.node?_replace?_append h, spineKept_of_replace? h, fun _ => Data.node?_replace?_apart h⟩

section

variable {xs xs' : List Data} {child child' : Data} {j : Nat}

/-- What is replaced inside an item of a list leaves the other items, whose paths are apart. -/
theorem NodeReplaced.getElem?_ne (h : NodeReplaced (.list xs) (index :: rest) value (.list xs'))
    (hne : index ≠ j) : xs'[j]? = xs[j]? := by
  have hframe := h.frame [j] (fun hp => hne (List.cons_prefix_cons.1 hp).1)
    fun hp => hne (List.cons_prefix_cons.1 hp).1.symm
  simpa [Data.node?_cons_list] using hframe

/-- In the item itself the same is replaced, under the rest of the path. -/
theorem NodeReplaced.inside (h : NodeReplaced (.list xs) (index :: rest) value (.list xs'))
    (hchild : xs[index]? = some child) (hchild' : xs'[index]? = some child') :
    NodeReplaced child rest value child' := by
  have hread (q : Path) : (Data.list xs).node? (index :: q) = child.node? q := by
    rw [Data.node?_cons_list, hchild, Option.bind_some]
  have hread' (q : Path) : (Data.list xs').node? (index :: q) = child'.node? q := by
    rw [Data.node?_cons_list, hchild', Option.bind_some]
  refine ⟨fun r => ?_, fun q hq hne => ?_, fun q hbelow habove => ?_⟩
  · rw [← hread', ← List.cons_append]
    exact h.below r
  · have habove := h.above (index :: q) ((List.prefix_cons_inj _).2 hq) (by simpa using hne)
    simpa only [hread, hread'] using habove
  · have hframe := h.frame (index :: q) (fun hp => hbelow ((List.prefix_cons_inj _).1 hp))
      fun hp => habove ((List.prefix_cons_inj _).1 hp)
    rwa [hread, hread'] at hframe

theorem NodeReplaced.exists_items (h : NodeReplaced s (index :: rest) value s') :
    ∃ xs child child', s = .list xs ∧ xs[index]? = some child
      ∧ s' = .list (xs.set index child') ∧ NodeReplaced child rest value child' := by
  obtain ⟨xs, xs', hs, hs', hlength⟩ := h.above [] List.nil_prefix (List.cons_ne_nil _ _).symm
  cases hs
  cases hs'
  have hvalue := h.below []
  rw [List.append_nil, Data.node?_nil, Data.node?_cons_list] at hvalue
  obtain ⟨child', hchild', -⟩ := Option.bind_eq_some_iff.1 hvalue
  have hlt : index < xs.length := hlength ▸ (List.getElem?_eq_some_iff.1 hchild').1
  have hset : xs' = xs.set index child' := by
    refine List.ext_getElem? fun j => ?_
    by_cases hj : index = j
    · rw [← hj, hchild', List.getElem?_set_self hlt]
    · rw [List.getElem?_set_ne hj, h.getElem?_ne hj]
  have hchild : xs[index]? = some xs[index] := List.getElem?_eq_getElem hlt
  exact ⟨xs, _, child', rfl, hchild, congrArg Data.list hset, h.inside hchild hchild'⟩

end

/-- The replacement is the one tree with these reads. -/
theorem replace?_eq_some_iff :
    s.replace? path value = some s' ↔ NodeReplaced s path value s' := by
  refine ⟨.of_replace?, fun h => ?_⟩
  induction path generalizing s s' with
  | nil => simpa [eq_comm] using h.below []
  | cons index rest ih =>
    obtain ⟨xs, child, child', rfl, hchild, rfl, hinside⟩ := h.exists_items
    exact Data.replace?_cons.2 ⟨xs, child, child', rfl, hchild, ih hinside, rfl⟩

/-- Two replacements at paths that lead apart can be made in either order, and either both orders
succeed or none does. -/
theorem replace?_bind_comm {q : Path} (hbelow : ¬ path <+: q) (habove : ¬ q <+: path)
    (value other : Data) : (s.replace? path value).bind (·.replace? q other)
      = (s.replace? q other).bind (·.replace? path value) := by
  refine Option.ext fun last => ?_
  simp only [Option.bind_eq_some_iff]
  exact ⟨fun ⟨_, hfirst, hsecond⟩ => Data.replace?_comm hbelow habove hfirst hsecond,
    fun ⟨_, hfirst, hsecond⟩ => Data.replace?_comm habove hbelow hfirst hsecond⟩

/-- Of two replacements at one path the second counts; they succeed where it does. -/
theorem replace?_bind_self (s value other : Data) (path : Path) :
    (s.replace? path value).bind (·.replace? path other) = s.replace? path other := by
  cases hvalue : s.replace? path value with
  | some between => exact Data.replace?_replace? hvalue other
  | none =>
    have hother : (s.replace? path other).isSome = false := by
      rw [Data.replace?_isSome, ← Data.replace?_isSome s value, hvalue, Option.isSome_none]
    rw [Option.bind_none, Option.isNone_iff_eq_none.1 (Option.isSome_eq_false_iff.1 hother)]

/-- For every tree and every path: a node can be replaced exactly where one can be read, and the
result is the one tree whose paths read the new content at the place and below it, lists of the same
length above it, and all else as before.  Putting back what was read changes nothing, a second
replacement at the same path overrides the first, and replacements at paths that lead apart commute,
also in whether they succeed. -/
theorem replacement_laws (s value : Data) (path : Path) :
    (s.replace? path value).isSome = (s.node? path).isSome
    ∧ (∀ s', s.replace? path value = some s' ↔ NodeReplaced s path value s')
    ∧ (∀ found, s.node? path = some found → s.replace? path found = some s)
    ∧ (∀ other, (s.replace? path value).bind (·.replace? path other) = s.replace? path other)
    ∧ ∀ q other, ¬ path <+: q → ¬ q <+: path →
      (s.replace? path value).bind (·.replace? q other)
        = (s.replace? q other).bind (·.replace? path value) :=
  ⟨Data.replace?_isSome s value path, fun _ => replace?_eq_some_iff,
    fun _ hfound => Data.replace?_self hfound, fun other => replace?_bind_self s value other path,
    fun _ other hbelow habove => replace?_bind_comm hbelow habove value other⟩

namespace Drawer

/-- A map inside a list. -/
def label : Data := .map [("text", .string "top"), ("bold", .bool true)]

/-- A list with a map and a list of three items, behind a scalar. -/
def state : Data := .list [.string "drawer",
  .list [label, .list [.string "a", .string "b", .string "c"], .null]]

end Drawer

open Drawer in
theorem replacement_laws_apart :
    ¬ [1, 0] <+: [1, 1, 2] ∧ ¬ [1, 1, 2] <+: [1, 0] ∧ state.node? [1, 0] = some label
    ∧ ∃ s', NodeReplaced state [1, 0] (.list [.null]) s' ∧ s'.replace? [1, 0] label = some state
      ∧ s'.replace? [1, 1, 2] .null
        = (state.replace? [1, 1, 2] .null).bind (·.replace? [1, 0] (.list [.null])) := by
  obtain ⟨hsuccess, hreads, hback, htwice, hcomm⟩ :=
    replacement_laws state (.list [.null]) [1, 0]
  obtain ⟨s', hs'⟩ := Option.isSome_iff_exists.1 (hsuccess.trans rfl)
  rw [hs'] at htwice hcomm
  exact ⟨by decide, by decide, rfl, s', (hreads s').1 hs', (htwice label).trans (hback label rfl),
    hcomm [1, 1, 2] .null (by decide) (by decide)⟩

/-! ## Taking out -/

/-- An item can be taken out exactly where one can be read. -/
theorem erase?_isSome (s : Data) (path : Path) (index : Nat) :
    (s.erase? (path ++ [index])).isSome = (s.node? (path ++ [index])).isSome := by
  rw [Bool.eq_iff_iff, Option.isSome_iff_exists, Option.isSome_iff_exists]
  constructor
  · rintro ⟨s', herase⟩
    obtain ⟨items, hitems, hinside, -⟩ := Data.erase?_concat.1 herase
    exact ⟨_, Data.node?_concat_eq_some.2 ⟨items, hitems, List.getElem?_eq_getElem hinside⟩⟩
  · rintro ⟨item, hitem⟩
    obtain ⟨items, hitems, hindex⟩ := Data.node?_concat_eq_some.1 hitem
    obtain ⟨s', hreplace⟩ := Data.exists_replace? hitems (.list (items.eraseIdx index))
    have hinside : index < items.length := (List.getElem?_eq_some_iff.1 hindex).1
    exact ⟨s', Data.erase?_concat.2 ⟨items, hitems, hinside, hreplace⟩⟩

theorem ItemTakenOut.of_erase? (h : s.erase? (path ++ [index]) = some s') :
    ∃ items, ItemTakenOut s path items index s' := by
  obtain ⟨items, hitems, hinside, hreplace⟩ := Data.erase?_concat.1 h
  have hnext := Data.node?_replace? hreplace
  have hreplaced := NodeReplaced.of_replace? hreplace
  refine ⟨items, hitems, hinside, hnext, fun j rest hlt => ?_, fun j rest hle => ?_,
    hreplaced.above, hreplaced.frame⟩
  · rw [node?_below hitems, node?_below hnext, List.getElem?_eraseIdx_of_lt hlt]
  · rw [node?_below hitems, node?_below hnext, List.getElem?_eraseIdx_of_ge hle]

/-- The tree without an item is the one with these reads. -/
theorem erase?_eq_some_iff : s.erase? (path ++ [index]) = some s'
    ↔ ∃ items, ItemTakenOut s path items index s' := by
  refine ⟨ItemTakenOut.of_erase?, ?_⟩
  rintro ⟨items, h⟩
  have hbelow (rest : Path) :
      s'.node? (path ++ rest) = (Data.list (items.eraseIdx index)).node? rest := by
    rw [Data.node?_append, h.left, Option.bind_some]
  exact Data.erase?_concat.2 ⟨items, h.found, h.inside,
    replace?_eq_some_iff.2 ⟨hbelow, h.above, h.frame⟩⟩

/-- Taking two items out of one list is replacing the list once. -/
theorem erase?_bind_eq_some {i j : Nat} {last : Data} :
    (s.erase? (path ++ [i])).bind (·.erase? (path ++ [j])) = some last
      ↔ ∃ items, s.node? path = some (.list items) ∧ i < items.length
        ∧ j < (items.eraseIdx i).length
        ∧ s.replace? path (.list ((items.eraseIdx i).eraseIdx j)) = some last := by
  rw [Option.bind_eq_some_iff]
  constructor
  · rintro ⟨between, hfirst, hsecond⟩
    obtain ⟨items, hitems, hi, hreplace⟩ := Data.erase?_concat.1 hfirst
    obtain ⟨left, hleft, hj, hlast⟩ := Data.erase?_concat.1 hsecond
    obtain rfl : items.eraseIdx i = left := by
      simpa [Data.node?_replace? hreplace] using hleft
    rw [Data.replace?_replace? hreplace] at hlast
    exact ⟨items, hitems, hi, hj, hlast⟩
  · rintro ⟨items, hitems, hi, hj, hlast⟩
    obtain ⟨between, hreplace⟩ := Data.exists_replace? hitems (.list (items.eraseIdx i))
    rw [← Data.replace?_replace? hreplace] at hlast
    exact ⟨between, Data.erase?_concat.2 ⟨items, hitems, hi, hreplace⟩,
      Data.erase?_concat.2 ⟨_, Data.node?_replace? hreplace, hj, hlast⟩⟩

/-- Of two items the one behind can be taken out first, from where it stands before the other is
gone. -/
theorem eraseIdx_comm {α : Type} {i j : Nat} (hle : i ≤ j) (xs : List α) :
    (xs.eraseIdx i).eraseIdx j = (xs.eraseIdx (j + 1)).eraseIdx i := by
  refine List.ext_getElem? fun k => ?_
  simp only [List.getElem?_eraseIdx]
  grind

theorem erase?_bind_comm {i j : Nat} (hle : i ≤ j) (s : Data) (path : Path) :
    (s.erase? (path ++ [i])).bind (·.erase? (path ++ [j]))
      = (s.erase? (path ++ [j + 1])).bind (·.erase? (path ++ [i])) := by
  refine Option.ext fun last => ?_
  rw [erase?_bind_eq_some, erase?_bind_eq_some]
  refine exists_congr fun items => and_congr_right fun _ => ?_
  rw [eraseIdx_comm hle, ← and_assoc, ← and_assoc, List.length_eraseIdx, List.length_eraseIdx]
  refine and_congr_left fun _ => ?_
  split <;> split <;> omega

/-- For every tree and every path: nothing is taken out at the root, and elsewhere an item can be
taken out exactly where one can be read.  The result is the one tree in which the list has one item
less, the items before the gap read as before and the items behind it at the index below, no list
above has another length, and all else reads as before.  Of two items the one behind can be taken out
first, from one index further up. -/
theorem erasure_laws (s : Data) (path : Path) :
    s.erase? [] = none
    ∧ (∀ index, (s.erase? (path ++ [index])).isSome = (s.node? (path ++ [index])).isSome)
    ∧ (∀ index s', s.erase? (path ++ [index]) = some s' ↔ ∃ items,
      ItemTakenOut s path items index s' ∧ (items.eraseIdx index).length + 1 = items.length)
    ∧ ∀ i j, i ≤ j → (s.erase? (path ++ [i])).bind (·.erase? (path ++ [j]))
      = (s.erase? (path ++ [j + 1])).bind (·.erase? (path ++ [i])) := by
  refine ⟨Data.erase?_nil s, erase?_isSome s path, fun index s' => ?_,
    fun i j hle => erase?_bind_comm hle s path⟩
  rw [erase?_eq_some_iff]
  refine exists_congr fun items => (and_iff_left_of_imp fun h => ?_).symm
  have hinside := h.inside
  rw [List.length_eraseIdx_of_lt hinside]
  omega

open Drawer in
theorem erasure_laws_two : 0 ≤ 1 ∧ ∃ between items last,
    state.erase? [1, 1, 0] = some between ∧ ItemTakenOut state [1, 1] items 0 between
    ∧ between.erase? [1, 1, 1] = some last ∧ last.node? [1, 1] = some (.list [.string "b"])
    ∧ (state.erase? [1, 1, 2]).bind (·.erase? [1, 1, 0]) = some last := by
  obtain ⟨-, -, hreads, hexchange⟩ := erasure_laws state [1, 1]
  have hfirst : state.erase? [1, 1, 0] = some (.list [.string "drawer",
    .list [label, .list [.string "b", .string "c"], .null]]) := rfl
  obtain ⟨items, htaken, -⟩ := (hreads 0 _).1 hfirst
  exact ⟨Nat.zero_le 1, _, items, _, hfirst, htaken, rfl, rfl,
    (hexchange 0 1 (Nat.zero_le 1)).symm.trans rfl⟩

end FormTree
