import FormTree.Proofs.Document.Inside

/-!
# Rewriting a node of a document

What becomes of the nodes of a document when the definition of one of them is replaced.  The node
itself is reached as before, with its new definition.  The nodes inside it are those of the new
definition.  All others are reached as before, with the same names and attributes; a node around the
rewritten one has a new definition, which is as sound as the old one.

So a document stays readable if the rewritten node is sound and everything inside it is.
-/

namespace FormTree

variable {κ : Type}

/-! ## Nodes that read alike -/

/-- Two visits to one place, to nodes that have the same name, type and attributes. -/
structure Visit.Alike (u v : Visit) : Prop where
  path : v.path = u.path
  above : v.above = u.above
  kind : v.kind = u.kind
  name : slotAt v.definition Kind.nameAt = slotAt u.definition Kind.nameAt
  typeName : slotAt v.definition u.kind.typeAt = slotAt u.definition u.kind.typeAt
  attributes : slotAt v.definition u.kind.attributesAt = slotAt u.definition u.kind.attributesAt

namespace Visit

variable {u v : Visit} {config : Config κ}

theorem Alike.refl (u : Visit) : u.Alike u := ⟨rfl, rfl, rfl, rfl, rfl, rfl⟩

theorem Alike.name_eq (h : u.Alike v) : v.name = u.name := by
  rw [Visit.name, Visit.name, Node.textAt, Node.textAt, h.name]

theorem Alike.segments (h : u.Alike v) : v.segments = u.segments := by
  rw [Visit.segments, Visit.segments, h.above, h.name_eq]

theorem Alike.attributesOf (h : u.Alike v) :
    Node.attributesOf v.kind v.definition = Node.attributesOf u.kind u.definition := by
  rw [Node.attributesOf, Node.attributesOf, h.kind, h.attributes]

/-- Nodes that read alike are registered alike. -/
theorem Alike.registered (h : u.Alike v) (config : Config κ) (form : FormId) :
    v.registered config form = u.registered config form := by
  have hrules : v.rules = u.rules := by rw [rules, rules, h.attributesOf]
  rw [Visit.registered, Visit.registered, Visit.entry?, Visit.entry?, hrules, h.kind, h.path,
    Visit.namePath, Visit.namePath, h.segments]

/-- A node that reads like a sound one is sound, if its slots for children or contents are right and
it is blank only if the other is. -/
theorem Sound.of_alike (hu : u.Sound config) (h : u.Alike v) (hblank : u.Blank → v.Blank)
    (hnodes : ∀ slot, u.kind.slot .children = some slot → (slotAt v.definition slot).HoldsNodes)
    (hitems : ∀ slot, u.kind.slot .contents = some slot → (slotAt v.definition slot).HoldsItems) :
    v.Sound config where
  named hnamed := by
    rw [h.name]
    exact hu.named (h.kind ▸ hnamed)
  served hfield := by
    rw [h.kind] at hfield
    rw [h.kind, Node.textAt, h.typeName]
    exact hu.served hfield
  handled hfield hv := by
    rw [h.kind] at hfield ⊢
    exact hu.handled hfield fun hu' => hv (hblank hu')
  attributes hv := by
    rw [h.attributesOf]
    exact hu.attributes fun hu' => hv (hblank hu')
  nodes slot hslot := hnodes slot (h.kind ▸ hslot)
  items slot hslot := hitems slot (h.kind ▸ hslot)

end Visit

/-! ## The nodes around a rewritten one -/

theorem slotAt_set_ne {definition : List Data} {slot other : Nat} (h : other ≠ slot) (d : Data) :
    slotAt (definition.set slot d) other = slotAt definition other := by
  simp [slotAt, List.getD_eq_getElem?_getD, List.getElem?_set_ne (Ne.symm h)]

/-- A definition in which the node at an offset was replaced by another node. -/
structure Renewed (kind : Kind) (definition : List Data) (offset : Path) (segments : List String)
    (node : Data) (renewed : List Data) : Prop where
  slots : ∀ slot, slot ≠ kind.insideAt → slotAt renewed slot = slotAt definition slot
  inside : Inside kind renewed offset segments node
  others : ∀ {other further found}, other ≠ offset → Inside kind definition other further found →
    Inside kind renewed other further found
  full : (slotAt definition kind.insideAt).items ≠ []
  nodes : ∀ slot, kind.slot .children = some slot → (slotAt definition slot).HoldsNodes →
    (slotAt renewed slot).HoldsNodes
  items : ∀ slot, kind.slot .contents = some slot → (slotAt definition slot).HoldsItems →
    (slotAt renewed slot).HoldsItems

section

variable {kind : Kind} {definition : List Data} {offset p : Path} {segments above : List String}
  {node d : Data} {config : Config κ}

theorem textAt_set_inside {slot : Nat} (hkind : kind ≠ .field) (hslot : slot = kind.insideAt)
    (definition : List Data) (content : Data) :
    Node.textAt (definition.set slot content) Kind.nameAt = Node.textAt definition Kind.nameAt := by
  subst hslot
  rw [Node.textAt, slotAt_set_ne (Kind.insideAt_ne hkind).1, Node.textAt]

/-- Replacing a child renews the definition. -/
theorem Renewed.child {slot index : Nat} {nodes : List Data}
    (hslot : kind.slot .children = some slot) (hnodes : definition[slot]? = some (.list nodes))
    (hchild : nodes[index]? = some node) (hnode : d.IsSomeNode) :
    Renewed kind definition [slot, index]
      (kind.segmentsInside (Node.textAt definition Kind.nameAt) index) d
      (definition.set slot (.list (nodes.set index d))) := by
  have hat := Kind.slot_children hslot
  have hself : (definition.set slot (.list (nodes.set index d)))[slot]?
      = some (.list (nodes.set index d)) :=
    List.getElem?_set_self (List.getElem?_eq_some_iff.1 hnodes).1
  have htext := textAt_set_inside (Inside.child hslot hnodes hchild).kind_ne_field hat definition
    (.list (nodes.set index d))
  constructor
  case slots => exact fun other hother => slotAt_set_ne (hat ▸ hother) _
  case inside =>
    rw [← htext]
    exact .child hslot hself (List.getElem?_set_self (List.getElem?_eq_some_iff.1 hchild).1)
  case others =>
    rintro _ _ _ hne (⟨hslot', hnodes', hchild'⟩ | ⟨hslot', -⟩)
    · obtain rfl := Option.some.inj (hslot.symm.trans hslot')
      obtain rfl := Data.list.inj (Option.some.inj (hnodes.symm.trans hnodes'))
      rw [← htext]
      refine .child hslot hself ?_
      rwa [List.getElem?_set_ne (fun hindex => hne (by rw [hindex]))]
    · exact (Kind.slot_exclusive hslot hslot').elim
  case full =>
    rw [← hat, slotAt_of_some hnodes, Data.items_list]
    exact List.ne_nil_of_mem (List.mem_of_getElem? hchild)
  case nodes =>
    intro other hother hholds
    obtain rfl := Option.some.inj (hslot.symm.trans hother)
    rw [slotAt_of_some hnodes] at hholds
    rw [slotAt_of_some hself]
    intro found hfound
    rcases List.mem_or_eq_of_mem_set hfound with hfound | rfl
    · exact hholds found hfound
    · exact hnode
  case items => exact fun other hother => (Kind.slot_exclusive hslot hother).elim

/-- Replacing a node of an item renews the definition. -/
theorem Renewed.item {slot index inner : Nat} {items nodes : List Data}
    (hslot : kind.slot .contents = some slot) (hitems : definition[slot]? = some (.list items))
    (hitem : items[index]? = some (.list nodes)) (hchild : nodes[inner]? = some node)
    (hnode : d.IsSomeNode) :
    Renewed kind definition [slot, index, inner]
      (kind.segmentsInside (Node.textAt definition Kind.nameAt) index) d
      (definition.set slot (.list (items.set index (.list (nodes.set inner d))))) := by
  have hat := Kind.slot_contents hslot
  have hself : (definition.set slot (.list (items.set index (.list (nodes.set inner d)))))[slot]?
      = some (.list (items.set index (.list (nodes.set inner d)))) :=
    List.getElem?_set_self (List.getElem?_eq_some_iff.1 hitems).1
  have hitem' : (items.set index (.list (nodes.set inner d)))[index]?
      = some (.list (nodes.set inner d)) :=
    List.getElem?_set_self (List.getElem?_eq_some_iff.1 hitem).1
  have htext := textAt_set_inside (Inside.item hslot hitems hitem hchild).kind_ne_field hat definition
    (.list (items.set index (.list (nodes.set inner d))))
  constructor
  case slots => exact fun other hother => slotAt_set_ne (hat ▸ hother) _
  case inside =>
    rw [← htext]
    exact .item hslot hself hitem'
      (List.getElem?_set_self (List.getElem?_eq_some_iff.1 hchild).1)
  case others =>
    intro _ _ _ hne hinside
    cases hinside with
    | child hslot' => exact (Kind.slot_exclusive hslot' hslot).elim
    | @item _ index' inner' _ nodes' _ hslot' hitems' hitem'' hchild' =>
      obtain rfl := Option.some.inj (hslot.symm.trans hslot')
      obtain rfl := Data.list.inj (Option.some.inj (hitems.symm.trans hitems'))
      rw [← htext]
      -- a node of the same item has another place in it, and other items stay as they are
      by_cases hindex : index = index'
      · subst hindex
        obtain rfl := Data.list.inj (Option.some.inj (hitem.symm.trans hitem''))
        refine .item hslot hself hitem' ?_
        rwa [List.getElem?_set_ne (fun hinner => hne (by rw [hinner]))]
      · exact .item hslot hself (by rwa [List.getElem?_set_ne hindex]) hchild'
  case full =>
    rw [← hat, slotAt_of_some hitems, Data.items_list]
    exact List.ne_nil_of_mem (List.mem_of_getElem? hitem)
  case nodes => exact fun other hother => (Kind.slot_exclusive hother hslot).elim
  case items =>
    intro other hother hholds
    obtain rfl := Option.some.inj (hslot.symm.trans hother)
    rw [slotAt_of_some hitems] at hholds
    rw [slotAt_of_some hself]
    intro found hfound
    rcases List.mem_or_eq_of_mem_set hfound with hfound | rfl
    · exact hholds found hfound
    -- the item that was changed is still a list of nodes
    · obtain ⟨_, ⟨⟩, hall⟩ := hholds _ (List.mem_of_getElem? hitem)
      refine ⟨_, rfl, fun inside hinside => ?_⟩
      rcases List.mem_or_eq_of_mem_set hinside with hinside | rfl
      · exact hall inside hinside
      · exact hnode

/-- Replacing a node inside a definition renews the definition. -/
theorem Inside.renew (h : Inside kind definition offset segments node) (hnode : d.IsSomeNode) :
    ∃ renewed, (Data.list definition).replace? offset d = some (.list renewed)
      ∧ Renewed kind definition offset segments d renewed := by
  cases h with
  | child hslot hnodes hchild =>
    exact ⟨_, by simp [Data.replace?, hnodes, hchild], .child hslot hnodes hchild hnode⟩
  | item hslot hitems hitem hchild =>
    exact ⟨_, by simp [Data.replace?, hitems, hitem, hchild],
      .item hslot hitems hitem hchild hnode⟩

/-- A node whose definition was renewed reads alike. -/
theorem Renewed.alike {renewed : List Data}
    (h : Renewed kind definition offset segments node renewed) :
    (visitAt p above kind definition).Alike (visitAt p above kind renewed) := by
  have hne := Kind.insideAt_ne h.inside.kind_ne_field
  exact ⟨rfl, rfl, rfl, h.slots _ hne.1, h.slots _ hne.2.1, h.slots _ hne.2.2⟩

/-- A node whose definition was renewed is as sound. -/
theorem Renewed.sound {renewed : List Data}
    (h : Renewed kind definition offset segments node renewed)
    (hsound : (visitAt p above kind definition).Sound config) :
    (visitAt p above kind renewed).Sound config :=
  hsound.of_alike h.alike (fun hblank => absurd hblank.2 h.full)
    (fun slot hslot => h.nodes slot hslot (hsound.nodes slot hslot))
    fun slot hslot => h.items slot hslot (hsound.items slot hslot)

theorem Data.IsNode.replace? {renewed : List Data} {rest : Path} {value : Data}
    (h : d.IsNode kind definition)
    (hreplace : (Data.list definition).replace? rest value = some (.list renewed)) :
    ∃ d', d.replace? (1 :: rest) value = some d' ∧ d'.IsNode kind renewed := by
  obtain ⟨more, rfl⟩ := h.eq_list
  exact ⟨.list (.string kind.tag :: .list renewed :: more), by simp [Data.replace?, hreplace],
    rfl, rfl⟩

/-- A replacement below a node inside a definition is one of the node. -/
theorem Inside.replace?_below {node' value : Data} {rest : Path}
    (h : Inside kind definition offset segments node) (hnode : node.replace? rest value = some node') :
    (Data.list definition).replace? (offset ++ rest) value
      = (Data.list definition).replace? offset node' := by
  rw [Data.replace?_append, h.node?, Option.bind_some, hnode, Option.bind_some]

/-- A node that is reached can be rewritten.  It is reached as before, and so is every node that does
not stand inside it, as a node that reads alike and is as sound. -/
theorem Reaches.rewrite {v : Visit} (config : Config κ) (hv : Reaches p above d v) {rel : Path}
    (hrel : v.path = p ++ rel) (definition : List Data) :
    ∃ d', d.replace? rel (.list definition) = some d' ∧ d'.IsSomeNode
      ∧ Reaches p above d' { v with definition := definition }
      ∧ ∀ u, Reaches p above d u → ¬ v.path <+: u.path →
        ∃ u', Reaches p above d' u' ∧ u.Alike u' ∧ (u.Sound config → u'.Sound config) := by
  -- the induction goes down to the node, and every step renews one definition around it
  induction hv using Reaches.induct generalizing rel with
  | here hnode =>
    obtain rfl : rel = [1] := (List.append_cancel_left hrel).symm
    obtain ⟨d', hreplace, hnode'⟩ := hnode.replace? (Data.replace?_nil _ (.list definition))
    refine ⟨d', hreplace, ⟨_, _, hnode'⟩, .here hnode', fun u hu habove => ?_⟩
    obtain ⟨q, hq⟩ := hu.path_eq
    exact absurd ⟨q, by rw [hq]; simp⟩ habove
  | @inside _ _ _ _ offset _ _ _ _ hnode hinside hreach ih =>
    obtain ⟨q, hq⟩ := hreach.path_eq
    obtain ⟨node', hreplace, hsome, hself, hothers⟩ := ih hq
    obtain ⟨renewed, hwhole, hrenewed⟩ := hinside.renew hsome
    obtain ⟨d', hreplace', hnode'⟩ :=
      hnode.replace? ((hinside.replace?_below hreplace).trans hwhole)
    obtain rfl := List.append_cancel_left
      (hrel.symm.trans (hq.trans (by rw [List.append_assoc, List.cons_append])))
    refine ⟨d', hreplace', ⟨_, _, hnode'⟩, .of_inside hnode' hrenewed.inside hself,
      fun u hu hne => ?_⟩
    -- beside the way to the node nothing changes, and on it the rest of the way counts
    rcases hu.cases hnode with rfl | ⟨other, further, found, hinside', hreach'⟩
    · exact ⟨_, .here hnode', hrenewed.alike, hrenewed.sound⟩
    · by_cases hsame : other = offset
      · subst hsame
        obtain ⟨rfl, rfl⟩ := hinside.unique hinside'
        obtain ⟨u', hu', halike, hsound⟩ := hothers u hreach' hne
        exact ⟨u', .of_inside hnode' hrenewed.inside hu', halike, hsound⟩
      · exact ⟨u, .of_inside hnode' (hrenewed.others hsame hinside') hreach', .refl u, id⟩

end

/-! ## Whole documents -/

/-- The definition of a node that is reached in a document was replaced. -/
structure Rewritten (config : Config κ) (state : Data) (v : Visit) (definition : List Data)
    (state' : Data) : Prop where
  replaced : state.replace? v.path (.list definition) = some state'
  reached : state.Reached v
  self : state'.Reached { v with definition := definition }
  /-- Every other node that does not stand inside it is still reached. -/
  kept : ∀ u, state.Reached u → ¬ v.path <+: u.path →
    ∃ u', state'.Reached u' ∧ u.Alike u' ∧ (u.Sound config → u'.Sound config)
  /-- Every other node that does not stand inside it was reached before. -/
  old : ∀ u', state'.Reached u' → ¬ v.path <+: u'.path →
    ∃ u, state.Reached u ∧ u.Alike u' ∧ (u.Sound config → u'.Sound config)
  nodes : ∀ found, state = .list found → (∀ d ∈ found, d.IsSomeNode) →
    ∃ found', state' = .list found' ∧ ∀ d ∈ found', d.IsSomeNode

/-- Half of what a rewriting does: the other half follows by undoing it. -/
theorem Data.Reached.rewrite_kept {state : Data} {v : Visit} (config : Config κ)
    (hv : state.Reached v) (definition : List Data) :
    ∃ state', state.replace? v.path (.list definition) = some state'
      ∧ state'.Reached { v with definition := definition }
      ∧ (∀ u, state.Reached u → ¬ v.path <+: u.path →
        ∃ u', state'.Reached u' ∧ u.Alike u' ∧ (u.Sound config → u'.Sound config))
      ∧ ∀ found, state = .list found → (∀ d ∈ found, d.IsSomeNode) →
        ∃ found', state' = .list found' ∧ ∀ d ∈ found', d.IsSomeNode := by
  obtain ⟨nodes, rfl, index, node, hnode, hreach⟩ := hv
  obtain ⟨q, hq⟩ := hreach.path_eq
  obtain ⟨node', hreplace, hsome, hself, hothers⟩ := hreach.rewrite config hq definition
  have hlt : index < nodes.length := (List.getElem?_eq_some_iff.1 hnode).1
  have hset : (nodes.set index node')[index]? = some node' := List.getElem?_set_self hlt
  refine ⟨.list (nodes.set index node'), ?_, ⟨_, rfl, index, node', hset, hself⟩,
    fun u hu hne => ?_, fun found hfound hnodes => ?_⟩
  · rw [hq]
    simp [Data.replace?, hnode, hreplace]
  · obtain ⟨_, ⟨⟩, other, found, hfound, hu⟩ := hu
    by_cases hsame : index = other
    · subst hsame
      obtain rfl := Option.some.inj (hnode.symm.trans hfound)
      obtain ⟨u', hu', halike, hsound⟩ := hothers u hu hne
      exact ⟨u', ⟨_, rfl, index, node', hset, hu'⟩, halike, hsound⟩
    · exact ⟨u, ⟨_, rfl, other, found, by rwa [List.getElem?_set_ne hsame], hu⟩, .refl u, id⟩
  · cases hfound
    refine ⟨_, rfl, fun d hd => ?_⟩
    rcases List.mem_or_eq_of_mem_set hd with hd | rfl
    · exact hnodes d hd
    · exact hsome

/-- Every node that is reached can be rewritten. -/
theorem Data.Reached.rewrite {state : Data} {v : Visit} (config : Config κ) (hv : state.Reached v)
    (definition : List Data) : ∃ state', Rewritten config state v definition state' := by
  obtain ⟨state', hreplaced, hself, hkept, hnodes⟩ := hv.rewrite_kept config definition
  obtain ⟨undone, hundone, -, hback, -⟩ := hself.rewrite_kept config v.definition
  obtain rfl : undone = state := by
    have hsame := Data.replace?_self hv.stands.definition
    rw [Data.replace?_replace? hreplaced, hsame] at hundone
    exact (Option.some.inj hundone).symm
  refine ⟨state', hreplaced, hv, hself, hkept, fun u' hu' hne => ?_, hnodes⟩
  obtain ⟨u, hu, halike, -⟩ := hback u' hu' hne
  -- going there and back leads to the same node
  obtain ⟨again, hagain, halike', hsound⟩ := hkept u hu (by rwa [halike.path])
  obtain rfl : again = u' := hagain.eq_of_path hu' (halike'.path.trans halike.path)
  exact ⟨u, hu, halike', hsound⟩

namespace Rewritten

variable {config : Config κ} {form : FormId} {state state' : Data} {u u' v : Visit}
  {definition : List Data} {nodes : List (Node κ)}

/-- A node that stands neither around nor inside the rewritten one is the same. -/
theorem same (h : Rewritten config state v definition state') (hu : state.Reached u)
    (hu' : state'.Reached u') (halike : u.Alike u') (hbelow : ¬ v.path <+: u.path)
    (habove : ¬ u.path <+: v.path) : u' = u := by
  have hdefinition := hu'.stands.definition
  rw [halike.path, Data.node?_replace?_apart h.replaced hbelow habove,
    hu.stands.definition] at hdefinition
  obtain ⟨path, above, kind, found⟩ := u'
  obtain ⟨rfl, rfl, rfl, -, -, -⟩ := halike
  obtain rfl := Data.list.inj (Option.some.inj hdefinition)
  rfl

/-- What is reached at or below the rewritten node is the node or stands inside it. -/
theorem cases (h : Rewritten config state v definition state') (hu' : state'.Reached u') :
    u' = { v with definition := definition } ∨ ReachesInside v.path v.above v.kind definition u'
      ∨ ¬ v.path <+: u'.path
        ∧ ∃ u, state.Reached u ∧ u.Alike u' ∧ (u.Sound config → u'.Sound config) := by
  by_cases hbelow : v.path <+: u'.path
  · exact (h.self.inside_of_isPrefix hu' hbelow).imp_right .inl
  · exact .inr (.inr ⟨hbelow, h.old u' hu' hbelow⟩)

/-- A document stays readable if the rewritten node and everything inside it are sound. -/
theorem readable (h : Rewritten config state v definition state')
    (hread : Node.readForm config form state = some (.ok nodes))
    (hself : ({ v with definition := definition } : Visit).Sound config)
    (hinside : SoundBelow config (ReachesInside v.path v.above v.kind definition)) :
    ∃ nodes', Node.readForm config form state' = some (.ok nodes') := by
  obtain ⟨found, hfound, hnodes, hsound⟩ := readForm_ok_iff.1 ⟨nodes, hread⟩
  obtain ⟨found', hfound', hnodes'⟩ := h.nodes found hfound hnodes
  refine readForm_ok_iff.2 ⟨found', hfound', hnodes', fun u' hu' => ?_⟩
  rcases h.cases hu' with rfl | hin | ⟨-, u, hu, -, hsame⟩
  · exact hself
  · exact hinside u' hin
  · exact hsame (hsound u hu)

end Rewritten

end FormTree
