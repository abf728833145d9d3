import FormTree.Proofs.Data.Paths
import FormTree.Proofs.Document.Sound

/-!
# Nodes directly inside a node

`Inside` says which nodes stand in the slots of a definition, and at which offset: a child two steps
below the definition, a node of an item three steps below.  What is reached from a node is the node, or
is reached from a node directly inside it; so inductions over what is reached have two cases.

Offsets of one definition have one length.  So of two nodes inside a definition neither stands below
the other, and what is inside a node is known by its path.
-/

namespace FormTree

variable {κ : Type}

/-- A node stands directly inside a definition, at an offset, and the given segments are added to its
name path. -/
inductive Inside (kind : Kind) (definition : List Data) : Path → List String → Data → Prop where
  | child {slot index : Nat} {nodes : List Data} {node : Data}
      (hslot : kind.slot .children = some slot) (hnodes : definition[slot]? = some (.list nodes))
      (hnode : nodes[index]? = some node) :
      Inside kind definition [slot, index]
        (kind.segmentsInside (Node.textAt definition Kind.nameAt) index) node
  | item {slot index inner : Nat} {items nodes : List Data} {node : Data}
      (hslot : kind.slot .contents = some slot) (hitems : definition[slot]? = some (.list items))
      (hitem : items[index]? = some (.list nodes)) (hnode : nodes[inner]? = some node) :
      Inside kind definition [slot, index, inner]
        (kind.segmentsInside (Node.textAt definition Kind.nameAt) index) node

theorem Kind.slot_exclusive {kind : Kind} {slot other : Nat} (h : kind.slot .children = some slot)
    (h' : kind.slot .contents = some other) : False := by
  cases kind <;> simp_all [Kind.slot]

theorem Kind.slot_contents {kind : Kind} {slot : Nat} (h : kind.slot .contents = some slot) :
    slot = kind.insideAt := by
  cases kind <;> simp_all [Kind.slot, Kind.insideAt]

/-- The slot of the nodes inside is none of those that a reader looks at otherwise. -/
theorem Kind.insideAt_ne {kind : Kind} (h : kind ≠ .field) : Kind.nameAt ≠ kind.insideAt
    ∧ kind.typeAt ≠ kind.insideAt ∧ kind.attributesAt ≠ kind.insideAt := by
  cases kind <;> simp_all [Kind.typeAt, Kind.attributesAt, Kind.insideAt]

section

variable {kind : Kind} {definition : List Data} {offset other p : Path}
  {segments further above : List String} {node found d : Data} {u v : Visit}

/-- What is reached from the slots of a definition is reached from a node directly inside. -/
theorem reachesInside_iff : ReachesInside p above kind definition v
    ↔ ∃ offset segments node, Inside kind definition offset segments node
      ∧ Reaches (p ++ offset) (above ++ segments) node v := by
  constructor
  · rintro (⟨slot, hslot, nodes, hnodes, index, node, hnode, hreach⟩ |
      ⟨slot, hslot, items, hitems, index, nodes, hitem, inner, node, hnode, hreach⟩)
    · exact ⟨_, _, node, .child hslot hnodes hnode, by simpa using hreach⟩
    · exact ⟨_, _, node, .item hslot hitems hitem hnode, by simpa using hreach⟩
  · rintro ⟨_, _, node, hinside, hreach⟩
    cases hinside with
    | child hslot hnodes hnode =>
      exact .inl ⟨_, hslot, _, hnodes, _, node, hnode, by simpa using hreach⟩
    | item hslot hitems hitem hnode =>
      exact .inr ⟨_, hslot, _, hitems, _, _, hitem, _, node, hnode, by simpa using hreach⟩

/-- What is reached from a node directly inside is reached. -/
theorem Reaches.of_inside (hnode : d.IsNode kind definition)
    (h : Inside kind definition offset segments node)
    (hreach : Reaches (p ++ 1 :: offset) (above ++ segments) node v) : Reaches p above d v :=
  (reaches_iff hnode).2 (.inr (reachesInside_iff.2 ⟨offset, segments, node, h, by simpa using hreach⟩))

/-- Whatever holds of a node itself, and of what is reached from a node if it is reached from a node
directly inside it, holds of all that is reached. -/
theorem Reaches.induct
    {motive : ∀ {p : Path} {above : List String} {d : Data} {v : Visit}, Reaches p above d v → Prop}
    (here : ∀ {p above kind definition} {d : Data} (hnode : d.IsNode kind definition),
      motive (.here hnode : Reaches p above d (visitAt p above kind definition)))
    (inside : ∀ {p above kind definition offset segments node v} {d : Data}
      (hnode : d.IsNode kind definition)
      (hinside : Inside kind definition offset segments node)
      (hreach : Reaches (p ++ 1 :: offset) (above ++ segments) node v), motive hreach →
      motive (.of_inside hnode hinside hreach))
    (h : Reaches p above d v) : motive h := by
  induction h with
  | here hnode => exact here hnode
  | child hnode hslot hnodes hchild hreach ih =>
    exact inside hnode (.child hslot hnodes hchild) hreach ih
  | item hnode hslot hitems hitem hchild hreach ih =>
    exact inside hnode (.item hslot hitems hitem hchild) hreach ih

/-- What is reached is the node itself or is reached from a node directly inside. -/
theorem Reaches.cases (hnode : d.IsNode kind definition) (h : Reaches p above d v) :
    v = visitAt p above kind definition ∨ ∃ offset segments node,
      Inside kind definition offset segments node
        ∧ Reaches (p ++ 1 :: offset) (above ++ segments) node v := by
  refine ((reaches_iff hnode).1 h).imp_right fun hinside => ?_
  obtain ⟨offset, segments, node, hin, hreach⟩ := reachesInside_iff.1 hinside
  exact ⟨offset, segments, node, hin, by simpa using hreach⟩

namespace Inside

theorem kind_ne_field (h : Inside kind definition offset segments node) : kind ≠ .field := by
  rintro rfl
  cases h <;> simp_all [Kind.slot]

theorem node? (h : Inside kind definition offset segments node) :
    (Data.list definition).node? offset = some node := by
  cases h with
  | child _ hnodes hnode => simp [Data.node?_cons, hnodes, hnode]
  | item _ hitems hitem hnode => simp [Data.node?_cons, hitems, hitem, hnode]

/-- All offsets of a definition have the same length. -/
theorem length_eq (h : Inside kind definition offset segments node)
    (h' : Inside kind definition other further found) : offset.length = other.length := by
  cases h with
  | child hslot =>
    cases h' with
    | child => rfl
    | item hslot' => exact (Kind.slot_exclusive hslot hslot').elim
  | item hslot =>
    cases h' with
    | child hslot' => exact (Kind.slot_exclusive hslot' hslot).elim
    | item => rfl

/-- The offset determines the node and the segments. -/
theorem unique (h : Inside kind definition offset segments node)
    (h' : Inside kind definition offset further found) : segments = further ∧ node = found := by
  refine ⟨?_, Option.some.inj (h.node?.symm.trans h'.node?)⟩
  cases h <;> cases h' <;> rfl

/-- A path below one offset stands below a path below another only if the offsets are the same. -/
theorem eq_of_isPrefix (h : Inside kind definition offset segments node)
    (h' : Inside kind definition other further found) {q r : Path}
    (hpre : p ++ 1 :: offset ++ q <+: p ++ 1 :: other ++ r) : offset = other ∧ q <+: r := by
  obtain ⟨rest, hrest⟩ := hpre
  simp only [List.append_assoc, List.cons_append, List.append_cancel_left_eq, List.cons.injEq,
    true_and] at hrest
  obtain ⟨rfl, hq⟩ := List.append_inj hrest (h.length_eq h')
  exact ⟨rfl, rest, hq⟩

end Inside

/-! ## What is inside a node that is reached -/

/-- What is inside a node that is reached is reached. -/
theorem Reaches.trans (hv : Reaches p above d v)
    (hu : ReachesInside v.path v.above v.kind v.definition u) : Reaches p above d u := by
  induction hv using Reaches.induct with
  | here hnode => exact (reaches_iff hnode).2 (.inr hu)
  | inside hnode hinside _ ih => exact .of_inside hnode hinside (ih hu)

/-- What is reached at or below the path of a node is the node or inside it. -/
theorem Reaches.inside_of_isPrefix (hv : Reaches p above d v) (hu : Reaches p above d u)
    (hpre : v.path <+: u.path) :
    u = v ∨ ReachesInside v.path v.above v.kind v.definition u := by
  induction hv using Reaches.induct with
  | here hnode => exact (reaches_iff hnode).1 hu
  | inside hnode hinside hreach ih =>
    obtain ⟨q, hq⟩ := hreach.path_eq
    rcases hu.cases hnode with rfl | ⟨other, further, found, hinside', hreach'⟩
    · -- the node itself stands above what is inside it
      have hlength := hpre.length_le
      simp [hq] at hlength
    · obtain ⟨r, hr⟩ := hreach'.path_eq
      obtain ⟨rfl, -⟩ := hinside.eq_of_isPrefix hinside' (hq ▸ hr ▸ hpre)
      obtain ⟨rfl, rfl⟩ := hinside.unique hinside'
      exact ih hreach' hpre

end

/-! ## Whole documents -/

namespace Data.Reached

variable {state : Data} {u v : Visit}

theorem trans (hv : state.Reached v)
    (hu : ReachesInside v.path v.above v.kind v.definition u) : state.Reached u := by
  obtain ⟨nodes, rfl, index, node, hnode, hreach⟩ := hv
  exact ⟨nodes, rfl, index, node, hnode, hreach.trans hu⟩

theorem inside_of_isPrefix (hv : state.Reached v) (hu : state.Reached u) (hpre : v.path <+: u.path) :
    u = v ∨ ReachesInside v.path v.above v.kind v.definition u := by
  obtain ⟨nodes, rfl, index, node, hnode, hreach⟩ := hv
  obtain ⟨_, ⟨⟩, index', node', hnode', hreach'⟩ := hu
  obtain ⟨q, hq⟩ := hreach.path_eq
  obtain ⟨r, hr⟩ := hreach'.path_eq
  obtain rfl : index = index' := by
    rw [hq, hr] at hpre
    simpa using (List.cons_prefix_cons.1 (by simpa using hpre)).1
  obtain rfl := Option.some.inj (hnode.symm.trans hnode')
  exact hreach.inside_of_isPrefix hreach' hpre

/-- The path determines the node. -/
theorem eq_of_path (hu : state.Reached u) (hv : state.Reached v) (h : u.path = v.path) : u = v := by
  rcases hv.inside_of_isPrefix hu (h ▸ List.prefix_refl _) with heq | hinside
  · exact heq
  · obtain ⟨slot, q, hq⟩ := hinside.path_eq
    rw [h] at hq
    simp at hq

end Data.Reached

end FormTree
