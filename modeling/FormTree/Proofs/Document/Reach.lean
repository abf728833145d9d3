import FormTree.Node.Reader
import FormTree.Proofs.Data.Paths
import Mathlib.Data.List.Sort

/-!
# The nodes of a document

`Reaches` says in terms of the data alone which nodes there are below a place of a document: the
node at the place, and what is reached from the nodes in its slots for children and contents.
Templates, values and attributes are never looked into, whatever they look like.  On the way down the
names and item indices are collected from which name paths are made.

`Path.Precedes` is the order in which the nodes come: as in the document, and a node after everything
inside it.  There is at most one list of the nodes of a document in this order, which
`Itinerary.unique` says.
-/

namespace FormTree

/-! ## Nodes -/

/-- Whether data are a node of a kind with a definition. -/
structure Data.IsNode (d : Data) (kind : Kind) (definition : List Data) : Prop where
  tag : d.child? 0 = some (.string kind.tag)
  definition : d.child? 1 = some (.list definition)

theorem Kind.tag_injective {kind other : Kind} (h : kind.tag = other.tag) : kind = other := by
  have hsome : some kind = some other := by rw [← ofTag?_tag kind, h, ofTag?_tag other]
  exact Option.some.inj hsome

theorem Data.IsNode.unique {d : Data} {kind other : Kind} {definition found : List Data}
    (h : d.IsNode kind definition) (h' : d.IsNode other found) :
    kind = other ∧ definition = found := by
  have htag := h.tag.symm.trans h'.tag
  have hdefinition := h.definition.symm.trans h'.definition
  simp only [Option.some.injEq, Data.string.injEq, Data.list.injEq] at htag hdefinition
  exact ⟨Kind.tag_injective htag, hdefinition⟩

/-- The segments that a node of a name adds to the name paths of what is at an index inside it. -/
def Kind.segmentsInside (kind : Kind) (name : String) (index : Nat) : List String :=
  match kind with
  | .attr => [name]
  | .many | .manyChildForms => [name, toString index]
  | .field | .compoundField | .sect | .group | .childForm => []

/-- A node as it is found on the way through a document. -/
structure Visit where
  /-- The path of the definition. -/
  path : Path
  /-- The segments of the name path that stand before the name. -/
  above : List String
  kind : Kind
  definition : List Data

namespace Visit

/-- The text in the first slot of the definition. -/
def name (v : Visit) : String := Node.textAt v.definition Kind.nameAt

/-- The segments of the name path. -/
def segments (v : Visit) : List String := v.above ++ [v.name]

/-- The name path. -/
def namePath (separator : String) (v : Visit) : String := separator.intercalate v.segments

end Visit

/-! ## What is reached -/

/-- The data at a path, below the given segments of a name path, are a node, and the visit is to this
node or to one that is reached through the slots for children and contents. -/
inductive Reaches : Path → List String → Data → Visit → Prop where
  | here {p : Path} {above : List String} {d : Data} {kind : Kind} {definition : List Data}
      (hnode : d.IsNode kind definition) :
      Reaches p above d ⟨p ++ [1], above, kind, definition⟩
  | child {p : Path} {above : List String} {d : Data} {kind : Kind} {definition : List Data}
      {slot index : Nat} {nodes : List Data} {node : Data} {v : Visit}
      (hnode : d.IsNode kind definition) (hslot : kind.slot .children = some slot)
      (hnodes : definition[slot]? = some (.list nodes)) (hchild : nodes[index]? = some node)
      (hreach : Reaches (p ++ [1, slot, index])
        (above ++ kind.segmentsInside (Node.textAt definition Kind.nameAt) index) node v) :
      Reaches p above d v
  | item {p : Path} {above : List String} {d : Data} {kind : Kind} {definition : List Data}
      {slot index inner : Nat} {items nodes : List Data} {node : Data} {v : Visit}
      (hnode : d.IsNode kind definition) (hslot : kind.slot .contents = some slot)
      (hitems : definition[slot]? = some (.list items)) (hitem : items[index]? = some (.list nodes))
      (hchild : nodes[inner]? = some node)
      (hreach : Reaches (p ++ [1, slot, index, inner])
        (above ++ kind.segmentsInside (Node.textAt definition Kind.nameAt) index) node v) :
      Reaches p above d v

/-- The visit is to something that is reached from a list of nodes, whose indices begin at the given
one. -/
def ReachesAll (parent : Path) (above : Nat → List String) (start : Nat) (nodes : List Data)
    (v : Visit) : Prop :=
  ∃ (index : Nat) (node : Data), nodes[index]? = some node
    ∧ Reaches (parent ++ [start + index]) (above (start + index)) node v

/-- The visit is to something that is reached from a list of items, whose indices begin at the given
one. -/
def ReachesItems (parent : Path) (above : Nat → List String) (start : Nat) (items : List Data)
    (v : Visit) : Prop :=
  ∃ (index : Nat) (nodes : List Data), items[index]? = some (.list nodes)
    ∧ ReachesAll (parent ++ [start + index]) (fun _ => above (start + index)) 0 nodes v

/-- The visit is to a node of the form. -/
def Data.Reached (state : Data) (v : Visit) : Prop :=
  ∃ nodes, state = .list nodes ∧ ReachesAll [] (fun _ => []) 0 nodes v

section

variable {p parent : Path} {above : List String} {inside : Nat → List String} {d : Data}
  {kind : Kind} {definition : List Data} {start : Nat} {v : Visit}

theorem not_reachesAll_nil : ¬ ReachesAll parent inside start [] v := by
  rintro ⟨_, _, hnode, _⟩
  cases hnode

theorem reachesAll_cons {node : Data} {rest : List Data} :
    ReachesAll parent inside start (node :: rest) v
      ↔ Reaches (parent ++ [start]) (inside start) node v
        ∨ ReachesAll parent inside (start + 1) rest v := by
  constructor
  · rintro ⟨index, found, hfound, hreach⟩
    cases index with
    | zero =>
      cases hfound
      exact .inl hreach
    | succ index => exact .inr ⟨index, found, hfound, by rwa [Nat.add_right_comm, Nat.add_assoc]⟩
  · rintro (hreach | ⟨index, found, hfound, hreach⟩)
    · exact ⟨0, node, rfl, hreach⟩
    · exact ⟨index + 1, found, hfound, by rwa [← Nat.add_assoc, Nat.add_right_comm]⟩

theorem reachesAll_singleton {node : Data} : ReachesAll parent inside start [node] v
    ↔ Reaches (parent ++ [start]) (inside start) node v :=
  reachesAll_cons.trans (or_iff_left not_reachesAll_nil)

theorem not_reachesItems_nil : ¬ ReachesItems parent inside start [] v := by
  rintro ⟨_, _, hitem, _⟩
  cases hitem

theorem reachesItems_cons {nodes rest : List Data} :
    ReachesItems parent inside start (.list nodes :: rest) v
      ↔ ReachesAll (parent ++ [start]) (fun _ => inside start) 0 nodes v
        ∨ ReachesItems parent inside (start + 1) rest v := by
  constructor
  · rintro ⟨index, found, hfound, hreach⟩
    cases index with
    | zero =>
      cases hfound
      exact .inl hreach
    | succ index => exact .inr ⟨index, found, hfound, by rwa [Nat.add_right_comm, Nat.add_assoc]⟩
  · rintro (hreach | ⟨index, found, hfound, hreach⟩)
    · exact ⟨0, nodes, rfl, hreach⟩
    · exact ⟨index + 1, found, hfound, by rwa [← Nat.add_assoc, Nat.add_right_comm]⟩

/-- The visit is to something that is reached from the nodes in a slot. -/
def ReachesSlot (parent : Path) (above : Nat → List String) (slot : Nat) (definition : List Data)
    (v : Visit) : Prop :=
  ∃ nodes, definition[slot]? = some (.list nodes) ∧ ReachesAll parent above 0 nodes v

/-- The visit is to something that is reached from the items in a slot. -/
def ReachesItemsSlot (parent : Path) (above : Nat → List String) (slot : Nat)
    (definition : List Data) (v : Visit) : Prop :=
  ∃ items, definition[slot]? = some (.list items) ∧ ReachesItems parent above 0 items v

/-- The visit is to something that is reached from the slots of a definition at a path. -/
def ReachesInside (path : Path) (above : List String) (kind : Kind) (definition : List Data)
    (v : Visit) : Prop :=
  (∃ slot, kind.slot .children = some slot ∧ ReachesSlot (path ++ [slot]) (fun index =>
      above ++ kind.segmentsInside (Node.textAt definition Kind.nameAt) index) slot definition v)
    ∨ ∃ slot, kind.slot .contents = some slot ∧ ReachesItemsSlot (path ++ [slot]) (fun index =>
      above ++ kind.segmentsInside (Node.textAt definition Kind.nameAt) index) slot definition v

/-- What is reached from a node: the node, and what is reached from its slots. -/
theorem reaches_iff (hnode : d.IsNode kind definition) : Reaches p above d v ↔
    v = ⟨p ++ [1], above, kind, definition⟩ ∨ ReachesInside (p ++ [1]) above kind definition v := by
  constructor
  · rintro (hfound | ⟨hfound, hslot, hnodes, hchild, hreach⟩ |
      ⟨hfound, hslot, hitems, hitem, hchild, hreach⟩)
    -- data are a node of one kind with one definition
    all_goals obtain ⟨rfl, rfl⟩ := hnode.unique hfound
    · exact .inl rfl
    · exact .inr (.inl ⟨_, hslot, _, hnodes, _, _, hchild, by simpa using hreach⟩)
    · exact .inr (.inr ⟨_, hslot, _, hitems, _, _, hitem, _, _, hchild, by simpa using hreach⟩)
  · rintro (rfl | ⟨slot, hslot, nodes, hnodes, index, node, hchild, hreach⟩ |
      ⟨slot, hslot, items, hitems, index, nodes, hitem, inner, node, hchild, hreach⟩)
    · exact .here hnode
    · exact .child hnode hslot hnodes hchild (by simpa using hreach)
    · exact .item hnode hslot hitems hitem hchild (by simpa using hreach)

/-- What is reached from a path has its definition below the path. -/
theorem Reaches.path_eq (h : Reaches p above d v) : ∃ q, v.path = p ++ 1 :: q := by
  induction h with
  | here _ => exact ⟨[], rfl⟩
  | child _ _ _ _ _ ih =>
    obtain ⟨q, hq⟩ := ih
    exact ⟨_, hq.trans (by simp only [List.append_assoc, List.cons_append]; rfl)⟩
  | item _ _ _ _ _ _ ih =>
    obtain ⟨q, hq⟩ := ih
    exact ⟨_, hq.trans (by simp only [List.append_assoc, List.cons_append]; rfl)⟩

theorem ReachesAll.path_eq {nodes : List Data} (h : ReachesAll parent inside start nodes v) :
    ∃ index q, start ≤ index ∧ v.path = parent ++ index :: q := by
  obtain ⟨index, _, _, hreach⟩ := h
  obtain ⟨q, hq⟩ := hreach.path_eq
  exact ⟨start + index, 1 :: q, Nat.le_add_right .., by rw [hq, List.append_assoc]; rfl⟩

theorem ReachesItems.path_eq {items : List Data} (h : ReachesItems parent inside start items v) :
    ∃ index q, start ≤ index ∧ v.path = parent ++ index :: q := by
  obtain ⟨index, _, _, hreach⟩ := h
  obtain ⟨inner, q, -, hq⟩ := hreach.path_eq
  exact ⟨start + index, inner :: q, Nat.le_add_right .., by rw [hq, List.append_assoc]; rfl⟩

theorem ReachesSlot.path_eq {slot : Nat} (h : ReachesSlot parent inside slot definition v) :
    ∃ index q, v.path = parent ++ index :: q := by
  obtain ⟨_, _, hreach⟩ := h
  obtain ⟨index, q, -, hq⟩ := hreach.path_eq
  exact ⟨index, q, hq⟩

theorem ReachesItemsSlot.path_eq {slot : Nat}
    (h : ReachesItemsSlot parent inside slot definition v) :
    ∃ index q, v.path = parent ++ index :: q := by
  obtain ⟨_, _, hreach⟩ := h
  obtain ⟨index, q, -, hq⟩ := hreach.path_eq
  exact ⟨index, q, hq⟩

theorem ReachesInside.path_eq (h : ReachesInside p above kind definition v) :
    ∃ slot q, v.path = p ++ slot :: q := by
  rcases h with ⟨slot, -, hreach⟩ | ⟨slot, -, hreach⟩
  all_goals
    obtain ⟨index, q, hq⟩ := hreach.path_eq
    exact ⟨slot, index :: q, by rw [hq, List.append_assoc]; rfl⟩

theorem reachesInside_children {slot : Nat} (hchildren : kind.slot .children = some slot)
    (hcontents : kind.slot .contents = none) : ReachesInside p above kind definition v
      ↔ ReachesSlot (p ++ [slot]) (fun index =>
        above ++ kind.segmentsInside (Node.textAt definition Kind.nameAt) index) slot definition v := by
  simp [ReachesInside, hchildren, hcontents]

theorem reachesInside_contents {slot : Nat} (hchildren : kind.slot .children = none)
    (hcontents : kind.slot .contents = some slot) : ReachesInside p above kind definition v
      ↔ ReachesItemsSlot (p ++ [slot]) (fun index =>
        above ++ kind.segmentsInside (Node.textAt definition Kind.nameAt) index) slot definition v := by
  simp [ReachesInside, hchildren, hcontents]

/-- Nothing is reached from a definition without nodes in its slots. -/
theorem not_reachesInside (hcontents : kind.slot .contents = none)
    (hchildren : ∀ slot, kind.slot .children = some slot →
      ∀ nodes, definition[slot]? = some (.list nodes) → nodes = []) :
    ¬ ReachesInside p above kind definition v := by
  rintro (⟨slot, hslot, nodes, hnodes, hreach⟩ | ⟨slot, hslot, -⟩)
  · rw [hchildren slot hslot nodes hnodes] at hreach
    exact not_reachesAll_nil hreach
  · rw [hcontents] at hslot
    cases hslot

theorem not_reachesInside_field {u : Visit} (hfield : u.kind = .field) (definition : List Data)
    (v : Visit) : ¬ ReachesInside u.path u.above u.kind definition v :=
  not_reachesInside (by rw [hfield]; rfl) fun slot hslot => by rw [hfield] at hslot; cases hslot

/-- In a field, nothing but the field itself is reached. -/
theorem Reaches.eq_field (hnode : d.IsNode .field definition) (h : Reaches p above d v) :
    v = ⟨p ++ [1], above, .field, definition⟩ :=
  ((reaches_iff hnode).1 h).resolve_right (not_reachesInside rfl nofun)

/-! ## Where a visit leads to -/

/-- The definition of a visit stands at its path, behind the tag of its kind. -/
structure Visit.Stands (v : Visit) (state : Data) : Prop where
  definition : state.node? v.path = some (.list v.definition)
  tag : ∃ node, state.node? v.path.dropLast = some (.list node)
    ∧ node[0]? = some (.string v.kind.tag)

/-- What is reached from a datum in its place stands in the whole. -/
theorem Reaches.stands {state : Data} (h : Reaches p above d v) (hplace : state.node? p = some d) :
    v.Stands state := by
  induction h with
  | @here p above d kind definition hnode =>
    refine ⟨(Data.node?_concat hplace 1).trans hnode.definition, ?_⟩
    cases d with
    | list node => exact ⟨node, by simpa using hplace, hnode.tag⟩
    | _ => cases hnode.tag
  | @child p above d kind definition slot index nodes node v hnode _ hnodes hchild _ ih =>
    have hdefinition := (Data.node?_concat hplace 1).trans hnode.definition
    have hslot := (Data.node?_concat hdefinition slot).trans hnodes
    have hindex := (Data.node?_concat hslot index).trans hchild
    exact ih (by simpa using hindex)
  | @item p above d kind definition slot index inner items nodes node v hnode _ hitems hitem hchild _
      ih =>
    have hdefinition := (Data.node?_concat hplace 1).trans hnode.definition
    have hslot := (Data.node?_concat hdefinition slot).trans hitems
    have hindex := (Data.node?_concat hslot index).trans hitem
    have hinner := (Data.node?_concat hindex inner).trans hchild
    exact ih (by simpa using hinner)

end

theorem Data.Reached.stands {state : Data} {v : Visit} (h : state.Reached v) : v.Stands state := by
  obtain ⟨nodes, rfl, index, node, hnode, hreach⟩ := h
  exact hreach.stands (by simp [Data.node?_cons, hnode])

/-! ## The order of the document -/

/-- The order of a document: a place comes before what stands later in the same list, and after
everything inside it. -/
def Path.Precedes : Path → Path → Prop
  | [], _ => False
  | _ :: _, [] => True
  | a :: p, b :: q => a < b ∨ a = b ∧ Precedes p q

namespace Path

@[simp] theorem precedes_append (p : Path) {q r : Path} :
    Precedes (p ++ q) (p ++ r) ↔ Precedes q r := by
  induction p with
  | nil => rfl
  | cons index rest ih => simp [Precedes, ih]

theorem not_precedes_self (p : Path) : ¬ Precedes p p := by
  induction p with
  | nil => exact id
  | cons index rest ih => simp [Precedes, ih]

theorem Precedes.asymm {p q : Path} (h : Precedes p q) : ¬ Precedes q p := by
  induction p generalizing q with
  | nil => exact h.elim
  | cons a p ih =>
    cases q with
    | nil => exact id
    | cons b q =>
      rcases h with hlt | ⟨rfl, h⟩
      · rintro (hgt | ⟨rfl, -⟩) <;> omega
      · rintro (hgt | ⟨-, h'⟩)
        · omega
        · exact ih h h'

/-- A place of a list comes before the later places, with all that is inside. -/
theorem precedes_of_lt {p q r : Path} {i j : Nat} (h : i < j) :
    Precedes (p ++ i :: q) (p ++ j :: r) :=
  (precedes_append p).2 (.inl h)

/-- What is inside a place comes before it. -/
theorem precedes_outer {p q : Path} {i : Nat} : Precedes (p ++ i :: q) p := by
  simpa [Precedes] using precedes_append p (q := i :: q) (r := [])

end Path

/-- The visits to the nodes of a form, in the order of the document. -/
structure Itinerary (state : Data) (visits : List Visit) : Prop where
  mem : ∀ v, v ∈ visits ↔ state.Reached v
  ordered : visits.Pairwise fun u v => u.path.Precedes v.path

/-- The nodes and their order determine the list. -/
theorem Itinerary.unique {state : Data} {visits others : List Visit} (h : Itinerary state visits)
    (h' : Itinerary state others) : visits = others := by
  have hirrefl : Std.Irrefl fun u v : Visit => u.path.Precedes v.path :=
    ⟨fun v => Path.not_precedes_self v.path⟩
  have hasymm : Std.Asymm fun u v : Visit => u.path.Precedes v.path := ⟨fun _ _ => Path.Precedes.asymm⟩
  exact h.ordered.eq_of_mem_iff h'.ordered fun v => (h.mem v).trans (h'.mem v).symm

end FormTree
