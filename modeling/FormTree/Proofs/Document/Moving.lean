import FormTree.Proofs.Action.Frame
import FormTree.Proofs.Document.Naming
import FormTree.Proofs.Document.Rewriting

/-!
# Moving the items of a container

What stands in an item of a container is known by where it stands in the item alone.  So an item can be
taken for a document of its own: a list of nodes is one, and a single node is one as the only node of a
list.  `Visit.encloses_iff` says that what stands inside a container is what stands in the documents of
its items, so it is found again wherever an item is moved to.

`Rearranged` says that the items of a container were moved, repeated or left out; the nodes inside it
are then those of the items that were taken over.
-/

namespace FormTree

variable {κ : Type}

/-! ## Nodes at another place -/

/-- The node as it is found further down, below a path and some segments. -/
def Visit.under (t : Visit) (p : Path) (above : List String) : Visit :=
  { t with path := p ++ t.path, above := above ++ t.above }

theorem Visit.under_under (t : Visit) (p q : Path) (above further : List String) :
    (t.under q further).under p above = t.under (p ++ q) (above ++ further) := by
  simp [Visit.under]

/-- What is reached from data is reached from them at every place. -/
theorem Reaches.move {p : Path} {above : List String} {d : Data} {v : Visit}
    (h : Reaches p above d v) :
    ∃ t : Visit, v = t.under p above ∧ ∀ q further, Reaches q further d (t.under q further) := by
  induction h using Reaches.induct with
  | @here _ _ kind definition _ hnode =>
    refine ⟨⟨[1], [], kind, definition⟩, by simp [Visit.under], fun q further => ?_⟩
    have hreached : Reaches q further _ ⟨q ++ [1], further, kind, definition⟩ := .here hnode
    simpa [Visit.under] using hreached
  | @inside _ _ _ _ offset segments _ _ _ hnode hinside _ ih =>
    obtain ⟨t, rfl, hmove⟩ := ih
    refine ⟨t.under (1 :: offset) segments, (Visit.under_under ..).symm, fun q further => ?_⟩
    rw [Visit.under_under]
    exact .of_inside hnode hinside (hmove ..)

@[simp] theorem Visit.under_nil (t : Visit) : t.under [] [] = t := by
  simp [under]

theorem Visit.under_injective {s t : Visit} {p : Path} {above : List String}
    (h : s.under p above = t.under p above) : s = t := by
  obtain ⟨path, segments, kind, definition⟩ := s
  obtain ⟨path', segments', kind', definition'⟩ := t
  simpa [under] using h

/-- What is reached from data is what is reached from them at the beginning, further down. -/
theorem reaches_iff_under {p : Path} {above : List String} {d : Data} {v : Visit} :
    Reaches p above d v ↔ ∃ t, Reaches [] [] d t ∧ v = t.under p above := by
  constructor
  · intro h
    obtain ⟨t, rfl, hmove⟩ := h.move
    exact ⟨t, t.under_nil ▸ hmove [] [], rfl⟩
  · rintro ⟨t, h, rfl⟩
    obtain ⟨s, rfl, hmove⟩ := h.move
    rw [s.under_nil]
    exact hmove p above

/-- What is reached from a list of nodes is what is reached in the document that the list is, further
down. -/
theorem reachesAll_iff_under {p : Path} {above : List String} {nodes : List Data} {v : Visit} :
    ReachesAll p (fun _ => above) 0 nodes v
      ↔ ∃ t, (Data.list nodes).Reached t ∧ v = t.under p above := by
  constructor
  · rintro ⟨index, node, hnode, hreach⟩
    obtain ⟨t, ht, rfl⟩ := reaches_iff_under.1 hreach
    refine ⟨t.under [0 + index] [], ⟨nodes, rfl, index, node, hnode, ?_⟩, ?_⟩
    · exact reaches_iff_under.2 ⟨t, ht, rfl⟩
    · rw [Visit.under_under, List.append_nil]
  · rintro ⟨_, ⟨_, ⟨⟩, index, node, hnode, hreach⟩, rfl⟩
    obtain ⟨t, ht, rfl⟩ := reaches_iff_under.1 hreach
    refine ⟨index, node, hnode, reaches_iff_under.2 ⟨t, ht, ?_⟩⟩
    rw [Visit.under_under, List.append_nil, List.nil_append]

/-- What stands at a place of an item, in the item at an index. -/
def Visit.within (t v : Visit) (index : Nat) : Visit :=
  t.under (v.path ++ [v.kind.insideAt, index]) (v.above ++ v.kind.segmentsInside v.name index)

/-- The item and the place in it are determined by the node. -/
theorem Visit.within_injective {s t v : Visit} {index other : Nat}
    (h : s.within v other = t.within v index) : other = index ∧ s = t := by
  obtain ⟨path, above, kind, found⟩ := s
  obtain ⟨path', above', kind', found'⟩ := t
  simp only [within, under, mk.injEq] at h
  obtain ⟨hpath, habove, rfl, rfl⟩ := h
  obtain ⟨rfl, rfl⟩ : other = index ∧ path = path' := by simpa using hpath
  obtain rfl := List.append_cancel_left habove
  exact ⟨rfl, rfl⟩

/-! ## Items as documents -/

/-- The items of a container. -/
def Visit.items (v : Visit) : List Data := (slotAt v.definition v.kind.insideAt).items

/-- A slot with items holds a list. -/
theorem getElem?_of_lt_items {definition : List Data} {slot index : Nat}
    (h : index < (slotAt definition slot).items.length) :
    definition[slot]? = some (.list (slotAt definition slot).items) := by
  unfold slotAt at *
  rw [List.getD_eq_getElem?_getD] at *
  cases hslot : definition[slot]? with
  | none => simp [hslot, Data.items, Data.toList?] at h
  | some content =>
    rw [hslot] at h
    cases content with
    | list items => rfl
    | _ => simp [Data.items, Data.toList?] at h

theorem getElem?_items {definition : List Data} {slot index : Nat} {item : Data} :
    (slotAt definition slot).items[index]? = some item
      ↔ ∃ items, definition[slot]? = some (.list items) ∧ items[index]? = some item := by
  constructor
  · intro h
    exact ⟨_, getElem?_of_lt_items (List.getElem?_eq_some_iff.1 h).1, h⟩
  · rintro ⟨items, hitems, h⟩
    rwa [slotAt_of_some hitems, Data.items_list]

namespace Container

/-- An item as a document of its own. -/
def document : Container → Data → Data
  | .many, item => item
  | .childForms, item => .list [item]

/-- Where an item stands in its document. -/
def lead : Container → Path
  | .many => []
  | .childForms => [0]

/-- All nodes of the document stand below the place of the item. -/
theorem exists_under_lead {c : Container} {item : Data} {u : Visit}
    (h : (c.document item).Reached u) : ∃ t : Visit, u = t.under c.lead [] := by
  cases c with
  | many => exact ⟨u, u.under_nil.symm⟩
  | childForms =>
    obtain ⟨_, ⟨⟩, hreach⟩ := h
    obtain ⟨t, -, rfl⟩ := reaches_iff_under.1 (reachesAll_singleton.1 hreach)
    exact ⟨t, rfl⟩

theorem namePath_under_lead (c : Container) (t : Visit) :
    (t.under c.lead []).namePath "." = t.namePath "." := rfl

end Container

/-- What stands inside a container is what stands in the documents of its items. -/
theorem Visit.encloses_iff {c : Container} {u v : Visit} (hkind : v.kind = c.kind) : v.Encloses u
    ↔ ∃ (index : Nat) (item : Data) (t : Visit), v.items[index]? = some item
      ∧ (c.document item).Reached (t.under c.lead []) ∧ u = t.within v index := by
  obtain ⟨path, above, kind, definition⟩ := v
  obtain rfl : kind = c.kind := hkind
  simp only [Visit.items, getElem?_items]
  cases c with
  | many =>
    refine Iff.trans (reachesInside_contents rfl rfl) ⟨?_, ?_⟩
    · rintro ⟨items, hitems, index, nodes, hitem, hreach⟩
      obtain ⟨t, ht, rfl⟩ := reachesAll_iff_under.1 hreach
      refine ⟨index, _, t, ⟨items, hitems, hitem⟩, t.under_nil.symm ▸ ht, ?_⟩
      rw [Nat.zero_add, List.append_assoc]
      rfl
    · rintro ⟨index, item, t, ⟨items, hitems, hitem⟩, ht, rfl⟩
      obtain ⟨nodes, rfl, -⟩ := id ht
      refine ⟨items, hitems, index, nodes, hitem, reachesAll_iff_under.2 ⟨t, t.under_nil ▸ ht, ?_⟩⟩
      rw [Nat.zero_add, List.append_assoc]
      rfl
  | childForms =>
    refine Iff.trans (reachesInside_children rfl rfl) ⟨?_, ?_⟩
    · rintro ⟨nodes, hnodes, index, node, hnode, hreach⟩
      obtain ⟨t, ht, rfl⟩ := reaches_iff_under.1 hreach
      refine ⟨index, _, t, ⟨nodes, hnodes, hnode⟩, ⟨_, rfl, ?_⟩, ?_⟩
      · exact reachesAll_singleton.2 (reaches_iff_under.2 ⟨t, ht, rfl⟩)
      · rw [Nat.zero_add, List.append_assoc]
        rfl
    · rintro ⟨index, item, t, ⟨items, hitems, hitem⟩, ⟨_, ⟨⟩, hreach⟩, rfl⟩
      -- the document of a child form is the list of this one node
      obtain ⟨s, hs, heq⟩ := reaches_iff_under.1 (reachesAll_singleton.1 hreach)
      obtain rfl := Visit.under_injective heq
      refine ⟨items, hitems, index, item, hitem, reaches_iff_under.2 ⟨t, hs, ?_⟩⟩
      rw [Nat.zero_add, List.append_assoc]
      rfl

/-- There is nothing in items that the container does not have. -/
theorem Visit.lt_of_encloses {t v : Visit} {index : Nat} (hcontainer : ∃ c : Container, v.kind = c.kind)
    (h : v.Encloses (t.within v index)) : index < v.items.length := by
  obtain ⟨c, hkind⟩ := hcontainer
  obtain ⟨other, item, s, hitem, -, heq⟩ := (encloses_iff hkind).1 h
  obtain ⟨rfl, -⟩ := within_injective heq
  exact (List.getElem?_eq_some_iff.1 hitem).1

/-- What stands inside a container stands in one of its items. -/
theorem Visit.Encloses.exists_within {u v : Visit} (h : v.Encloses u)
    (hcontainer : ∃ c : Container, v.kind = c.kind) :
    ∃ (index : Nat) (t : Visit), u = t.within v index := by
  obtain ⟨c, hkind⟩ := hcontainer
  obtain ⟨index, _, t, -, -, rfl⟩ := (encloses_iff hkind).1 h
  exact ⟨index, t, rfl⟩

/-! ## Other items -/

/-- A container reads alike as long as only its items and errors are others. -/
theorem Visit.Alike.of_slots {v : Visit} {definition : List Data}
    (hcontainer : ∃ c : Container, v.kind = c.kind)
    (hslots : ∀ slot, slot ≠ v.kind.insideAt → slot ≠ v.kind.errorsAt →
      slotAt definition slot = slotAt v.definition slot) :
    v.Alike { v with definition := definition } := by
  obtain ⟨c, hc⟩ := hcontainer
  refine ⟨rfl, rfl, rfl, hslots _ ?_ ?_, hslots _ ?_ ?_, hslots _ ?_ ?_⟩ <;> rw [hc] <;>
    cases c <;> decide

/-- Nothing but the name of a container matters for what stands in its items. -/
theorem Visit.Alike.within_eq {v v' : Visit} (h : v.Alike v') (t : Visit) (index : Nat) :
    t.within v' index = t.within v index := by
  rw [within, within, h.path, h.above, h.kind, h.name_eq]

/-- Nodes of one kind with one definition are equally sound, wherever they stand. -/
theorem Visit.Sound.under {config : Config κ} {t : Visit} {p q : Path} {above further : List String}
    (h : (t.under p above).Sound config) : (t.under q further).Sound config :=
  ⟨h.named, h.served, h.handled, h.attributes, h.nodes, h.items⟩

theorem Data.HoldsNodes.of_mem_items {d node : Data} (h : d.HoldsNodes) (hnode : node ∈ d.items) :
    node.IsSomeNode := by
  rcases h.nothing_or_list with rfl | ⟨nodes, rfl, hnodes⟩
  · cases hnode
  · exact hnodes node hnode

theorem Data.HoldsItems.of_mem_items {d item : Data} (h : d.HoldsItems) (hitem : item ∈ d.items) :
    ∃ nodes, item = .list nodes ∧ ∀ node ∈ nodes, node.IsSomeNode := by
  cases d with
  | list items => exact h item hitem
  | null => cases hitem
  | _ => exact h.elim

/-- A container that reads alike is as sound if each of its items was there before or is a document of
nodes. -/
theorem Visit.Sound.of_items {config : Config κ} {c : Container} {v : Visit} {definition : List Data}
    (hsound : v.Sound config) (hkind : v.kind = c.kind)
    (halike : v.Alike { v with definition := definition })
    (hcontent : slotAt definition v.kind.insideAt = slotAt v.definition v.kind.insideAt
      ∨ ∃ items, slotAt definition v.kind.insideAt = .list items ∧ ∀ item ∈ items, item ∈ v.items
        ∨ ∃ nodes, c.document item = .list nodes ∧ ∀ node ∈ nodes, node.IsSomeNode) :
    ({ v with definition := definition } : Visit).Sound config := by
  refine hsound.of_alike halike (fun hblank => ?_) (fun slot hslot => ?_) fun slot hslot => ?_
  · rcases hblank.1 with hother | hother <;> rw [hkind] at hother <;> cases c <;> cases hother
  · have hbefore := hsound.nodes slot hslot
    obtain rfl := Kind.slot_children hslot
    rcases hcontent with hsame | ⟨items, hitems, hall⟩
    · rwa [hsame]
    · rw [hitems]
      intro item hitem
      rcases hall item hitem with hold | ⟨nodes, hdocument, hnodes⟩
      · exact hbefore.of_mem_items hold
      · rw [hkind] at hslot
        cases c with
        | many => cases hslot
        | childForms =>
          cases hdocument
          exact hnodes item (List.mem_singleton_self item)
  · have hbefore := hsound.items slot hslot
    obtain rfl := Kind.slot_contents hslot
    rcases hcontent with hsame | ⟨items, hitems, hall⟩
    · rwa [hsame]
    · rw [hitems]
      intro item hitem
      rcases hall item hitem with hold | hdocument
      · exact hbefore.of_mem_items hold
      · rw [hkind] at hslot
        cases c with
        | many => exact hdocument
        | childForms => cases hslot

/-! ## Rearranged items -/

/-- In a new definition of a container stand the items that were at the given indices, and whatever
else a reader looks at is as it was. -/
structure Rearranged (v : Visit) (definition : List Data) (sources : List Nat) : Prop where
  container : ∃ c : Container, v.kind = c.kind
  slots : ∀ slot, slot ≠ v.kind.insideAt → slot ≠ v.kind.errorsAt →
    slotAt definition slot = slotAt v.definition slot
  items : definition[v.kind.insideAt]? = some (.list (permuted v.items sources))
  bounds : ∀ source ∈ sources, source < v.items.length

theorem getElem?_permuted {items : List Data} {order : List Nat} {index source : Nat}
    (h : order[index]? = some source) (hlt : source < items.length) :
    (permuted items order)[index]? = items[source]? := by
  simp [permuted, h, List.getD_eq_getElem?_getD, hlt]

namespace Rearranged

variable {config : Config κ} {v u : Visit} {definition : List Data} {sources : List Nat}

theorem mem_items (h : Rearranged v definition sources) {item : Data}
    (hitem : item ∈ permuted v.items sources) : item ∈ v.items := by
  obtain ⟨source, hsource, rfl⟩ := List.mem_map.1 hitem
  have hlt := h.bounds source hsource
  simp [List.getD_eq_getElem?_getD, hlt]

theorem source_of_item (h : Rearranged v definition sources) {index : Nat} {item : Data}
    (hitem : (permuted v.items sources)[index]? = some item) :
    ∃ source, sources[index]? = some source ∧ v.items[source]? = some item := by
  rw [permuted, List.getElem?_map, Option.map_eq_some_iff] at hitem
  obtain ⟨source, hsource, rfl⟩ := hitem
  have hlt := h.bounds source (List.mem_of_getElem? hsource)
  exact ⟨source, hsource, by simp [List.getD_eq_getElem?_getD, hlt]⟩

theorem slotAt_inside (h : Rearranged v definition sources) :
    slotAt definition v.kind.insideAt = .list (permuted v.items sources) :=
  slotAt_of_some h.items

/-- A container with rearranged items reads alike. -/
theorem alike (h : Rearranged v definition sources) : v.Alike { v with definition := definition } :=
  .of_slots h.container h.slots

/-- A container with rearranged items is as sound. -/
theorem sound (h : Rearranged v definition sources) (hsound : v.Sound config) :
    ({ v with definition := definition } : Visit).Sound config := by
  obtain ⟨c, hc⟩ := h.container
  exact hsound.of_items hc h.alike
    (.inr ⟨_, h.slotAt_inside, fun item hitem => .inl (h.mem_items hitem)⟩)

/-- Inside a container with rearranged items stands what stood in the items that were taken over. -/
theorem encloses_iff (h : Rearranged v definition sources) :
    Visit.Encloses { v with definition := definition } u ↔ ∃ (index source : Nat) (t : Visit),
      sources[index]? = some source ∧ v.Encloses (t.within v source) ∧ u = t.within v index := by
  obtain ⟨c, hc⟩ := h.container
  have hkind : ({ v with definition := definition } : Visit).kind = c.kind := hc
  rw [Visit.encloses_iff hkind]
  simp only [Visit.items, h.slotAt_inside, Data.items_list, h.alike.within_eq]
  constructor
  · rintro ⟨index, item, t, hitem, ht, rfl⟩
    obtain ⟨source, hsource, hbefore⟩ := h.source_of_item hitem
    exact ⟨index, source, t, hsource, (Visit.encloses_iff hc).2 ⟨source, item, t, hbefore, ht, rfl⟩,
      rfl⟩
  · rintro ⟨index, source, t, hsource, hinside, rfl⟩
    obtain ⟨other, item, s, hitem, hs, heq⟩ := (Visit.encloses_iff hc).1 hinside
    obtain ⟨rfl, rfl⟩ := Visit.within_injective heq
    have hlt := h.bounds source (List.mem_of_getElem? hsource)
    exact ⟨index, item, t, (getElem?_permuted hsource hlt).trans hitem, hs, rfl⟩

/-- Everything inside a container with rearranged items is sound if everything inside was. -/
theorem soundBelow (h : Rearranged v definition sources) (hsound : SoundBelow config v.Encloses) :
    SoundBelow config (Visit.Encloses { v with definition := definition }) := by
  intro u hu
  obtain ⟨_, source, t, -, henclosed, rfl⟩ := h.encloses_iff.1 hu
  exact (hsound _ henclosed).under

end Rearranged

end FormTree
