import FormTree.Proofs.Document.Attributes
import FormTree.Proofs.Document.Directory
import FormTree.Proofs.Execution.Returning

/-!
# The grammar of forms

`Acceptable` is the grammar of nodes, with one rule for each way in which a node can be built; it
does not say how nodes are read.  A node can be read exactly if it is acceptable, so `render_accepts`
says what a render makes of a state: what is not a list is not a tree, and a list is rendered exactly
if its nodes are acceptable.  As many outputs as nodes come out, and none for exactly the sections
and groups with nothing inside.
-/

namespace FormTree

/-! ## Acceptable nodes -/

/-- A slot for nodes or items that is missing, null or a list. -/
def Data.IsListing (d : Data) : Prop := d = .null ∨ ∃ items, d = .list items

/-- A name that is not empty in the first slot of a definition. -/
def HasName (definition : List Data) : Prop :=
  ∃ name, slotAt definition Kind.nameAt = .string name ∧ name ≠ ""

/-- The nodes that a configuration accepts. -/
inductive Acceptable {κ : Type} (config : Config κ) : Data → Prop where
  /-- A field has a name, a handler for its type or for all other types, and attributes that can be
  compiled; a type that is not a text counts as the empty one. -/
  | field {d : Data} {definition : List Data} (hnode : d.IsNode .field definition)
      (hname : HasName definition)
      (hserved : Node.textAt definition (Kind.typeAt .field) ∈ config.fieldTypes
        ∨ config.fallbackField = true)
      (hattributes : (slotAt definition (Kind.attributesAt .field)).Compilable) : Acceptable config d
  /-- A named node with acceptable nodes inside. -/
  | named {d : Data} {kind : Kind} {definition : List Data}
      (hkind : kind = .attr ∨ kind = .manyChildForms) (hnode : d.IsNode kind definition)
      (hhandled : kind ∈ config.handled) (hname : HasName definition)
      (hattributes : (slotAt definition kind.attributesAt).Compilable)
      (hlisting : (slotAt definition kind.insideAt).IsListing)
      (hinside : ∀ node ∈ (slotAt definition kind.insideAt).items, Acceptable config node) :
      Acceptable config d
  /-- A container whose items are lists of acceptable nodes. -/
  | many {d : Data} {definition : List Data} (hnode : d.IsNode .many definition)
      (hhandled : .many ∈ config.handled) (hname : HasName definition)
      (hattributes : (slotAt definition (Kind.attributesAt .many)).Compilable)
      (hlisting : (slotAt definition (Kind.insideAt .many)).IsListing)
      (hitems : ∀ item ∈ (slotAt definition (Kind.insideAt .many)).items, ∃ nodes, item = .list nodes)
      (hinside : ∀ item ∈ (slotAt definition (Kind.insideAt .many)).items, ∀ node ∈ item.items,
        Acceptable config node) : Acceptable config d
  /-- A node that needs no name with acceptable nodes inside. -/
  | nameless {d : Data} {kind : Kind} {definition : List Data}
      (hkind : kind = .compoundField ∨ kind = .childForm) (hnode : d.IsNode kind definition)
      (hhandled : kind ∈ config.handled)
      (hattributes : (slotAt definition kind.attributesAt).Compilable)
      (hlisting : (slotAt definition kind.insideAt).IsListing)
      (hinside : ∀ node ∈ (slotAt definition kind.insideAt).items, Acceptable config node) :
      Acceptable config d
  /-- A section or group with nothing inside; nothing else of it matters. -/
  | blank {d : Data} {kind : Kind} {definition : List Data} (hkind : kind = .sect ∨ kind = .group)
      (hnode : d.IsNode kind definition) (hlisting : (slotAt definition kind.insideAt).IsListing)
      (hempty : (slotAt definition kind.insideAt).items = []) : Acceptable config d
  /-- A section or group with acceptable nodes inside. -/
  | filled {d : Data} {kind : Kind} {definition : List Data} (hkind : kind = .sect ∨ kind = .group)
      (hnode : d.IsNode kind definition) (hlisting : (slotAt definition kind.insideAt).IsListing)
      (hfilled : (slotAt definition kind.insideAt).items ≠ []) (hhandled : kind ∈ config.handled)
      (hattributes : (slotAt definition kind.attributesAt).Compilable)
      (hinside : ∀ node ∈ (slotAt definition kind.insideAt).items, Acceptable config node) :
      Acceptable config d

/-- A section or group with nothing inside. -/
def Data.IsBlank (d : Data) : Prop := ∃ kind definition, d.IsNode kind definition
  ∧ (kind = .sect ∨ kind = .group) ∧ (slotAt definition kind.insideAt).items = []

/-! ## What can be read -/

section Readable

variable {κ : Type} {config : Config κ} {d : Data} {kind : Kind}
  {definition : List Data} {slot : Nat}

/-- The data can be read as a node. -/
def Readable (config : Config κ) (d : Data) : Prop := d.IsSomeNode ∧ SoundBelow config (Reaches [] [] d)

/-- Whether data can be read as a node does not depend on where they stand. -/
theorem readable_iff (form : FormId) (parent : Path) (base : Option String) (index : Nat) :
    (∃ node, Node.read config form parent base index d = .ok node) ↔ Readable config d :=
  read_sound config form d [] []

theorem readable_iff_reaches (p : Path) (above : List String) :
    d.IsSomeNode ∧ SoundBelow config (Reaches p above d) ↔ Readable config d :=
  (read_sound config 0 d p above).symm.trans (readable_iff 0 [] none 0)

theorem getElem?_of_slotAt_list {items : List Data} (h : slotAt definition slot = .list items) :
    definition[slot]? = some (.list items) := by
  rw [slotAt, List.getD_eq_getElem?_getD] at h
  cases hget : definition[slot]? with
  | none => simp [hget] at h
  | some found => simpa [hget] using h

/-- A slot holds nodes that are sound with all inside them exactly if it is a list of readable
nodes, or there are none. -/
theorem holdsNodes_iff (parent : Path) (inside : Nat → List String) :
    (slotAt definition slot).HoldsNodes ∧ SoundBelow config (ReachesSlot parent inside slot definition)
      ↔ (slotAt definition slot).IsListing
        ∧ ∀ node ∈ (slotAt definition slot).items, Readable config node := by
  cases hslot : slotAt definition slot with
  | null =>
    refine iff_of_true ⟨trivial, ?_⟩ ⟨.inl rfl, by simp [Data.items, Data.toList?]⟩
    rintro v ⟨nodes, hnodes, -⟩
    simp [slotAt, hnodes] at hslot
  | list nodes =>
    have hnodes : definition[slot]? = some (.list nodes) := getElem?_of_slotAt_list hslot
    simp only [Data.items_list]
    constructor
    · rintro ⟨hall, hsound⟩
      refine ⟨.inr ⟨nodes, rfl⟩, fun node hnode => ?_⟩
      obtain ⟨index, hindex⟩ := List.getElem?_of_mem hnode
      refine (readable_iff_reaches (parent ++ [0 + index]) (inside (0 + index))).1
        ⟨hall node hnode, fun v hv => ?_⟩
      exact hsound v ⟨nodes, hnodes, index, node, hindex, hv⟩
    · rintro ⟨-, hall⟩
      refine ⟨fun node hnode => (hall node hnode).1, ?_⟩
      rintro v ⟨found, hfound, index, node, hindex, hv⟩
      obtain rfl : nodes = found := by simpa using hnodes.symm.trans hfound
      exact ((readable_iff_reaches _ _).2 (hall node (List.mem_of_getElem? hindex))).2 v hv
  | _ =>
    refine iff_of_false (fun h => h.1) ?_
    rintro ⟨h | ⟨_, h⟩, -⟩ <;> cases h

/-- The same for a slot of items, each a list of nodes. -/
theorem holdsItems_iff (parent : Path) (inside : Nat → List String) :
    (slotAt definition slot).HoldsItems
        ∧ SoundBelow config (ReachesItemsSlot parent inside slot definition)
      ↔ (slotAt definition slot).IsListing
        ∧ (∀ item ∈ (slotAt definition slot).items, ∃ nodes, item = .list nodes)
        ∧ ∀ item ∈ (slotAt definition slot).items, ∀ node ∈ item.items, Readable config node := by
  cases hslot : slotAt definition slot with
  | null =>
    refine iff_of_true ⟨trivial, ?_⟩ ⟨.inl rfl, by simp [Data.items, Data.toList?]⟩
    rintro v ⟨nodes, hnodes, -⟩
    simp [slotAt, hnodes] at hslot
  | list items =>
    have hitems : definition[slot]? = some (.list items) := getElem?_of_slotAt_list hslot
    simp only [Data.items_list]
    constructor
    · rintro ⟨hall, hsound⟩
      refine ⟨.inr ⟨items, rfl⟩, fun item hitem => ?_, fun item hitem node hnode => ?_⟩
      · obtain ⟨nodes, rfl, -⟩ := hall item hitem
        exact ⟨nodes, rfl⟩
      · obtain ⟨nodes, rfl, hnodes⟩ := hall item hitem
        obtain ⟨index, hindex⟩ := List.getElem?_of_mem hitem
        obtain ⟨inner, hinner⟩ := List.getElem?_of_mem hnode
        refine (readable_iff_reaches (parent ++ [0 + index] ++ [0 + inner]) (inside (0 + index))).1
          ⟨hnodes node hnode, fun v hv => ?_⟩
        exact hsound v ⟨items, hitems, index, nodes, hindex, inner, node, hinner, hv⟩
    · rintro ⟨-, hlists, hall⟩
      refine ⟨fun item hitem => ?_, ?_⟩
      · obtain ⟨nodes, rfl⟩ := hlists item hitem
        exact ⟨nodes, rfl, fun node hnode => (hall _ hitem node hnode).1⟩
      · rintro v ⟨found, hfound, index, nodes, hindex, inner, node, hinner, hv⟩
        obtain rfl : items = found := by simpa using hitems.symm.trans hfound
        exact ((readable_iff_reaches _ _).2 (hall _ (List.mem_of_getElem? hindex) node
          (List.mem_of_getElem? hinner))).2 v hv
  | _ =>
    refine iff_of_false (fun h => h.1) ?_
    rintro ⟨h | ⟨_, h⟩, -⟩ <;> cases h

theorem readable_iff_sound (hnode : d.IsNode kind definition) : Readable config d
    ↔ (visitAt [] [] kind definition).Sound config
      ∧ SoundBelow config (ReachesInside ([] ++ [1]) [] kind definition) :=
  (and_iff_right ⟨kind, definition, hnode⟩).trans (soundBelow_reaches hnode)

theorem exists_handlerFor_ok {typeName : String} :
    (∃ handler, config.handlerFor typeName = .ok handler)
      ↔ typeName ∈ config.fieldTypes ∨ config.fallbackField = true := by
  unfold Config.handlerFor
  split
  · simp [*]
  · split <;> simp_all

/-! ## What can be read of each kind -/

theorem readable_field (hnode : d.IsNode .field definition) : Readable config d ↔ HasName definition
    ∧ (Node.textAt definition (Kind.typeAt .field) ∈ config.fieldTypes ∨ config.fallbackField = true)
    ∧ (slotAt definition (Kind.attributesAt .field)).Compilable := by
  obtain ⟨more, rfl⟩ := hnode.eq_list
  rw [← readable_iff 0 [] none 0, read_node]
  simp only [Node.readBody, exists_map_ok, Node.behind_eq_ok, Node.exists_ofField_ok]
  rw [exists_handlerFor_ok, Node.attributesOf, Attribute.ofData_ok_iff]
  rfl

theorem readable_children (hnode : d.IsNode kind definition) (hkind : kind ≠ .field)
    (hchildren : kind.slot .children = some kind.insideAt) (hcontents : kind.slot .contents = none)
    (hblank : ¬ (visitAt [] [] kind definition).Blank) : Readable config d
      ↔ kind ∈ config.handled ∧ (kind.Named → HasName definition)
        ∧ ((slotAt definition kind.insideAt).IsListing
          ∧ ∀ node ∈ (slotAt definition kind.insideAt).items, Readable config node)
        ∧ (slotAt definition kind.attributesAt).Compilable := by
  rw [readable_iff_sound hnode, sound_children hkind hchildren hcontents hblank, holdsNodes_iff,
    Node.attributesOf, Attribute.ofData_ok_iff]
  rfl

theorem readable_many (hnode : d.IsNode .many definition) : Readable config d
    ↔ .many ∈ config.handled ∧ HasName definition
      ∧ ((slotAt definition (Kind.insideAt .many)).IsListing
        ∧ (∀ item ∈ (slotAt definition (Kind.insideAt .many)).items, ∃ nodes, item = .list nodes)
        ∧ ∀ item ∈ (slotAt definition (Kind.insideAt .many)).items, ∀ node ∈ item.items,
          Readable config node)
      ∧ (slotAt definition (Kind.attributesAt .many)).Compilable := by
  have hblank : ¬ (visitAt [] [] .many definition).Blank := by rintro ⟨h | h, -⟩ <;> cases h
  have hslot : Kind.many.slot .contents = some (Kind.insideAt .many) := rfl
  rw [readable_iff_sound hnode, sound_contents (by decide) rfl hslot hblank, holdsItems_iff,
    Node.attributesOf, Attribute.ofData_ok_iff]
  simp only [Kind.Named, true_implies]
  rfl

/-- A section or group is looked into only if there is something inside. -/
theorem readable_section (hnode : d.IsNode kind definition) (hkind : kind = .sect ∨ kind = .group) :
    Readable config d ↔ (slotAt definition kind.insideAt).IsListing
      ∧ ((slotAt definition kind.insideAt).items ≠ [] → kind ∈ config.handled
        ∧ (∀ node ∈ (slotAt definition kind.insideAt).items, Readable config node)
        ∧ (slotAt definition kind.attributesAt).Compilable) := by
  have hslot : kind ≠ .field ∧ ¬ kind.Named ∧ kind.slot .children = some kind.insideAt
      ∧ kind.slot .contents = none := by
    rcases hkind with rfl | rfl <;> exact ⟨nofun, id, rfl, rfl⟩
  obtain ⟨hfield, hnamed, hchildren, hcontents⟩ := hslot
  by_cases hempty : (slotAt definition kind.insideAt).items = []
  · rw [readable_iff_sound hnode]
    simp only [hempty, ne_eq, not_true, false_implies, and_true]
    constructor
    · rintro ⟨h, -⟩
      exact (h.nodes _ hchildren).nothing_or_list.imp_right fun ⟨nodes, hlist, _⟩ => ⟨nodes, hlist⟩
    · rintro (hnull | ⟨items, hlist⟩)
      · exact blank_sound hkind (.inl hnull)
      · rw [hlist, Data.items_list] at hempty
        exact blank_sound hkind (.inr (by rw [hlist, hempty]))
  · rw [readable_children hnode hfield hchildren hcontents fun hblank => hempty hblank.2]
    simp only [hnamed, hempty, ne_eq, not_false_iff, false_implies, true_implies, true_and]
    tauto

/-! ## Readable nodes are acceptable -/

/-- What stands in a slot of a definition is smaller than the node. -/
theorem sizeOf_lt_of_mem_slot {node : Data} (hnode : d.IsNode kind definition)
    (hmem : node ∈ (slotAt definition slot).items) : sizeOf node < sizeOf d := by
  obtain ⟨more, rfl⟩ := hnode.eq_list
  cases hslot : slotAt definition slot with
  | list nodes =>
    rw [hslot, Data.items_list] at hmem
    have hlt := List.sizeOf_lt_of_mem hmem
    have hlt' := List.sizeOf_lt_of_mem (List.mem_of_getElem? (getElem?_of_slotAt_list hslot))
    simp at hlt' ⊢
    omega
  | _ =>
    rw [hslot] at hmem
    cases hmem

/-- A list in a slot and what stands in it. -/
theorem sizeOf_lt_of_mem_item {item node : Data} (hnode : d.IsNode kind definition)
    (hitem : item ∈ (slotAt definition slot).items) (hmem : node ∈ item.items) :
    sizeOf node < sizeOf d := by
  refine Nat.lt_trans ?_ (sizeOf_lt_of_mem_slot hnode hitem)
  cases item with
  | list nodes =>
    have hlt := List.sizeOf_lt_of_mem hmem
    simp at hlt ⊢
    omega
  | _ => cases hmem

theorem acceptable_of_readable (config : Config κ) (d : Data) (h : Readable config d) :
    Acceptable config d := by
  obtain ⟨kind, definition, hnode⟩ := h.1
  have hnodes : ∀ slot, (∀ node ∈ (slotAt definition slot).items, Readable config node) →
      ∀ node ∈ (slotAt definition slot).items, Acceptable config node := fun slot hall node hmem =>
    have := sizeOf_lt_of_mem_slot hnode hmem
    acceptable_of_readable config node (hall node hmem)
  cases kind with
  | field =>
    obtain ⟨hname, hserved, hattributes⟩ := (readable_field hnode).1 h
    exact .field hnode hname hserved hattributes
  | attr | manyChildForms =>
    obtain ⟨hhandled, hname, ⟨hlisting, hinside⟩, hattributes⟩ := (readable_children hnode nofun rfl
      rfl (by rintro ⟨h | h, -⟩ <;> cases h)).1 h
    exact .named (by simp) hnode hhandled (hname trivial) hattributes hlisting (hnodes _ hinside)
  | many =>
    obtain ⟨hhandled, hname, ⟨hlisting, hlists, hinside⟩, hattributes⟩ := (readable_many hnode).1 h
    refine .many hnode hhandled hname hattributes hlisting hlists fun item hitem node hmem => ?_
    have := sizeOf_lt_of_mem_item hnode hitem hmem
    exact acceptable_of_readable config node (hinside item hitem node hmem)
  | compoundField | childForm =>
    obtain ⟨hhandled, -, ⟨hlisting, hinside⟩, hattributes⟩ := (readable_children hnode nofun rfl
      rfl (by rintro ⟨h | h, -⟩ <;> cases h)).1 h
    exact .nameless (by simp) hnode hhandled hattributes hlisting (hnodes _ hinside)
  | sect | group =>
    obtain ⟨hlisting, hrest⟩ := (readable_section hnode (by simp)).1 h
    refine (eq_or_ne _ []).elim (.blank (by simp) hnode hlisting) fun hfilled => ?_
    obtain ⟨hhandled, hinside, hattributes⟩ := hrest hfilled
    exact .filled (by simp) hnode hlisting hfilled hhandled hattributes (hnodes _ hinside)
termination_by sizeOf d

theorem readable_of_acceptable (h : Acceptable config d) : Readable config d := by
  induction h with
  | field hnode hname hserved hattributes =>
    exact (readable_field hnode).2 ⟨hname, hserved, hattributes⟩
  | named hkind hnode hhandled hname hattributes hlisting _ ih =>
    rcases hkind with rfl | rfl <;>
    exact (readable_children hnode nofun rfl rfl (by rintro ⟨h | h, -⟩ <;> cases h)).2
      ⟨hhandled, fun _ => hname, ⟨hlisting, ih⟩, hattributes⟩
  | many hnode hhandled hname hattributes hlisting hitems _ ih =>
    exact (readable_many hnode).2 ⟨hhandled, hname, ⟨hlisting, hitems, ih⟩, hattributes⟩
  | nameless hkind hnode hhandled hattributes hlisting _ ih =>
    rcases hkind with rfl | rfl <;>
    exact (readable_children hnode nofun rfl rfl (by rintro ⟨h | h, -⟩ <;> cases h)).2
      ⟨hhandled, False.elim, ⟨hlisting, ih⟩, hattributes⟩
  | blank hkind hnode hlisting hempty =>
    exact (readable_section hnode hkind).2 ⟨hlisting, fun hfilled => absurd hempty hfilled⟩
  | filled hkind hnode hlisting _ hhandled hattributes _ ih =>
    exact (readable_section hnode hkind).2 ⟨hlisting, fun _ => ⟨hhandled, ih, hattributes⟩⟩

/-- Data can be read as a node exactly if they are acceptable. -/
theorem readable_iff_acceptable : Readable config d ↔ Acceptable config d :=
  ⟨acceptable_of_readable config d, readable_of_acceptable⟩

/-! ## The nodes that are read -/

variable {form : FormId} {parent : Path} {base : Option String} {index : Nat} {node : Node κ}

/-- Only sections and groups with nothing inside are read as blank. -/
theorem readBody_blank {more : List Data}
    (h : Node.readBody config form parent base index kind (.list definition :: more) = .ok node) :
    (∃ other, node = .blank other)
      ↔ (kind = .sect ∨ kind = .group) ∧ (slotAt definition kind.insideAt).items = [] := by
  cases kind with
  | field =>
    simp only [Node.readBody, Node.map_eq_ok] at h
    obtain ⟨field, -, rfl⟩ := h
    simp
  | attr | many | manyChildForms =>
    simp only [Node.readBody, Node.bind_eq_ok, Node.pure_eq_ok] at h
    obtain ⟨_, -, _, -, _, -, rfl⟩ := h
    simp
  | compoundField | childForm =>
    simp only [Node.readBody, Node.bind_eq_ok, Node.pure_eq_ok] at h
    obtain ⟨-, -, _, -, _, -, rfl⟩ := h
    simp
  | sect | group =>
    simp only [Node.readBody] at h
    split at h
    · next hnull =>
      cases h
      simp [hnull, Data.items, Data.toList?]
    · next hnil =>
      cases h
      simp [hnil]
    · next hfound =>
      simp only [Node.bind_eq_ok, Node.pure_eq_ok] at h
      obtain ⟨-, -, _, -, _, -, rfl⟩ := h
      simp [hfound]
    · exact absurd h Node.fail_ne_ok

theorem read_blank (h : Node.read config form parent base index d = .ok node) :
    (∃ kind, node = .blank kind) ↔ d.IsBlank := by
  obtain ⟨kind, definition, more, hd, hbody⟩ := read_eq_ok h
  have hnode : d.IsNode kind definition := hd ▸ ⟨rfl, rfl⟩
  rw [readBody_blank hbody]
  constructor
  · exact fun hblank => ⟨kind, definition, hnode, hblank⟩
  · rintro ⟨other, found, hother, hblank⟩
    obtain ⟨rfl, rfl⟩ := hnode.unique hother
    exact hblank

/-- A list of nodes can be read exactly if every node can. -/
theorem readAll_ok_iff {base : Nat → Option String} {found : List Data} :
    (∃ nodes, Node.readAll config form parent base index found = .ok nodes)
      ↔ ∀ d ∈ found, Readable config d := by
  induction found generalizing index with
  | nil => exact iff_of_true ⟨[], rfl⟩ (by simp)
  | cons d rest ih =>
    rw [Node.readAll, List.forall_mem_cons, ← readable_iff form parent (base index) index,
      ← @ih (index + 1)]
    simp only [Node.exists_bind_ok, Node.after_eq_ok, Node.exists_pure_ok, and_true, exists_and_right]

/-- The nodes that are read from a list are blank where the data are. -/
theorem readAll_blank {base : Nat → Option String} {found : List Data} {nodes : List (Node κ)}
    (h : Node.readAll config form parent base index found = .ok nodes) :
    List.Forall₂ (fun d node => (∃ kind, node = .blank kind) ↔ d.IsBlank) found nodes := by
  induction found generalizing index nodes with
  | nil =>
    cases h
    exact .nil
  | cons d rest ih =>
    simp only [Node.readAll, Node.bind_eq_ok, Node.after_eq_ok, Node.pure_eq_ok] at h
    obtain ⟨first, hfirst, others, hothers, rfl⟩ := h
    exact .cons (read_blank hfirst) (ih hothers)

theorem readForm_eq_none {state : Data} (h : Node.readForm config form state = none) :
    ∀ nodes, state ≠ .list nodes := by
  rintro nodes rfl
  cases h

/-- What is refused is a list with a node that is not acceptable. -/
theorem readForm_eq_error {state : Data} {failure : ReadFailure κ}
    (h : Node.readForm config form state = some (.error failure)) :
    ∃ nodes, state = .list nodes ∧ ¬ ∀ node ∈ nodes, Acceptable config node := by
  cases state with
  | list nodes =>
    refine ⟨nodes, rfl, fun hall => ?_⟩
    obtain ⟨read, hread⟩ := readAll_ok_iff.2 fun d hd => readable_iff_acceptable.2 (hall d hd)
    simp only [Node.readForm, Option.some.injEq] at h
    rw [hread] at h
    cases h
  | _ => cases h

/-- What is read is a list of acceptable nodes. -/
theorem readForm_eq_ok {state : Data} {read : List (Node κ)}
    (h : Node.readForm config form state = some (.ok read)) :
    ∃ nodes, state = .list nodes ∧ (∀ node ∈ nodes, Acceptable config node)
      ∧ List.Forall₂ (fun d node => (∃ kind, node = .blank kind) ↔ d.IsBlank) nodes read := by
  cases state with
  | list nodes =>
    have hread := Option.some.inj h
    exact ⟨nodes, rfl, fun d hd => readable_iff_acceptable.1 (readAll_ok_iff.1 ⟨read, hread⟩ d hd),
      readAll_blank hread⟩
  | _ => cases h

end Readable

/-! ## Renders -/

section Renders

variable {σ κ ρ : Type} {host : Host σ κ} {fuel : Nat} {w w' : World σ κ}
  {r : Node.Renderer (Program σ κ) κ ρ}

open Program in
/-- A blank node puts nothing out, and any other node something. -/
theorem Node.render_output {node : Node κ} {output : Option ρ}
    (h : (node.render r).run host fuel w = .ok (output, w')) :
    output = none ↔ ∃ kind, node = .blank kind := by
  cases node with
  | blank kind =>
    obtain ⟨-, rfl, -⟩ := run_done.1 h
    simp
  | field node =>
    obtain ⟨_, _, -, hdone⟩ := run_bind_eq_ok.1 h
    obtain ⟨-, rfl, -⟩ := run_done.1 hdone
    simp
  | attr node children | block kind node children | many node items | childForms node items =>
    obtain ⟨_, _, -, hrest⟩ := run_bind_eq_ok.1 h
    obtain ⟨_, _, -, hdone⟩ := run_bind_eq_ok.1 hrest
    obtain ⟨-, rfl, -⟩ := run_done.1 hdone
    simp

open Program in
theorem Node.renderAll_outputs {found : List Data} {nodes : List (Node κ)}
    {outputs : List (Option ρ)}
    (hnodes : List.Forall₂ (fun d node => (∃ kind, node = .blank kind) ↔ d.IsBlank) found nodes)
    (h : (Node.renderAll r nodes).run host fuel w = .ok (outputs, w')) :
    List.Forall₂ (fun d output => output = none ↔ d.IsBlank) found outputs := by
  induction hnodes generalizing w w' outputs with
  | nil =>
    obtain ⟨-, rfl, -⟩ := run_done.1 h
    exact .nil
  | cons hblank _ ih =>
    obtain ⟨output, u, hfirst, hrest⟩ := run_bind_eq_ok.1 h
    obtain ⟨others, _, hothers, hdone⟩ := run_bind_eq_ok.1 hrest
    obtain ⟨-, rfl, -⟩ := run_done.1 hdone
    exact .cons ((Node.render_output hfirst).trans hblank) (ih hothers)

/-! ### Renders that return -/

/-- The render handlers return, whatever they are called with. -/
def Node.Renderer.Returns (host : Host σ κ) (fuel : Nat) (good : World σ κ → Prop)
    (r : Node.Renderer (Program σ κ) κ ρ) : Prop :=
  ∀ call p, Handed.Answered r call p → p.Returns host fuel good

variable {good : World σ κ → Prop}

mutual

/-- Rendering a node returns if the render handlers do. -/
theorem Node.render_returns (hfuel : 0 < fuel) (hr : r.Returns host fuel good) :
    ∀ node : Node κ, (node.render r).Returns host fuel good
  | .field node => (hr _ _ (.field node)).bind fun _ => Program.returns_pure hfuel _
  | .attr node children => (Node.renderAll_returns hfuel hr children).bind fun outputs =>
    (hr _ _ (.attr node outputs)).bind fun _ => Program.returns_pure hfuel _
  | .block kind node children => (Node.renderAll_returns hfuel hr children).bind fun outputs =>
    (hr _ _ (.block kind node outputs)).bind fun _ => Program.returns_pure hfuel _
  | .many node items => (Node.renderItems_returns hfuel hr items).bind fun outputs =>
    (hr _ _ (.many node outputs)).bind fun _ => Program.returns_pure hfuel _
  | .childForms node items => (Node.renderAll_returns hfuel hr items).bind fun outputs =>
    (hr _ _ (.childForms node outputs)).bind fun _ => Program.returns_pure hfuel _
  | .blank _ => Program.returns_pure hfuel _

theorem Node.renderAll_returns (hfuel : 0 < fuel) (hr : r.Returns host fuel good) :
    ∀ nodes : List (Node κ), (Node.renderAll r nodes).Returns host fuel good
  | [] => Program.returns_pure hfuel _
  | node :: rest => (Node.render_returns hfuel hr node).bind fun _ =>
    (Node.renderAll_returns hfuel hr rest).bind fun _ => Program.returns_pure hfuel _

theorem Node.renderItems_returns (hfuel : 0 < fuel) (hr : r.Returns host fuel good) :
    ∀ items : List (List (Node κ)), (Node.renderItems r items).Returns host fuel good
  | [] => Program.returns_pure hfuel _
  | nodes :: rest => (Node.renderAll_returns hfuel hr nodes).bind fun _ =>
    (Node.renderItems_returns hfuel hr rest).bind fun _ => Program.returns_pure hfuel _

end

variable {config : Config κ} {f : Form κ} {live : LiveForm κ}

/-- What a render makes of a state. -/
structure Form.Judged (config : Config κ) (f : Form κ) (state : Data) (f' : Form κ)
    (result : Except Fault (Rendered ρ)) : Prop where
  /-- Exactly what is not a list is not a tree. -/
  notATree : result = .ok .notATree ↔ ∀ nodes, state ≠ .list nodes
  /-- A list is rendered exactly if its nodes are acceptable. -/
  accepted : ∀ nodes, state = .list nodes →
    ((∃ outputs, result = .ok (.nodes outputs)) ↔ ∀ node ∈ nodes, Acceptable config node)
  /-- There is one output for each node, and none for exactly the blank nodes. -/
  outputs : ∀ nodes outputs, state = .list nodes → result = .ok (.nodes outputs) →
    List.Forall₂ (fun node output => output = none ↔ node.IsBlank) nodes outputs
  /-- A render that fails leaves the form as it was. -/
  kept : ∀ e, result = .error e → f' = f

/-- A render that returns is judged by the state that it looked at. -/
theorem Form.judged_of_run {f' : Form κ} {result : Except Fault (Rendered ρ)}
    (hlive : w.form? f.id = some live)
    (hrun : (f.render config r).run host fuel w = .ok ((f', result), w')) :
    f.Judged config live.store.state f' result := by
  obtain ⟨view, u, hlook, hrun⟩ := Program.run_bind_eq_ok.1 hrun
  obtain ⟨found, hfound, rfl, rfl⟩ := Program.run_look hlook
  obtain rfl := Option.some.inj (hlive.symm.trans hfound)
  -- a state that is no list, one that the reader refuses, and one that it accepts
  rcases hread : Node.readForm config f.id live.store.view.state with _ | (failure | read)
  · simp only [hread] at hrun
    obtain ⟨-, hresult, -⟩ := Program.run_done.1 hrun
    obtain ⟨rfl, rfl⟩ := Prod.mk.inj hresult
    have hnot := readForm_eq_none hread
    exact ⟨iff_of_true rfl hnot, fun nodes hstate => absurd hstate (hnot nodes),
      fun nodes _ hstate => absurd hstate (hnot nodes), nofun⟩
  · simp only [hread] at hrun
    obtain ⟨_, _, -, hdone⟩ := Program.run_bind_eq_ok.1 hrun
    obtain ⟨-, hresult, -⟩ := Program.run_done.1 hdone
    obtain ⟨rfl, rfl⟩ := Prod.mk.inj hresult
    obtain ⟨found, hstate, hrefused⟩ := readForm_eq_error hread
    refine ⟨iff_of_false nofun fun h => h found hstate, fun nodes hnodes => ?_, nofun,
      fun _ _ => rfl⟩
    obtain rfl := Data.list.inj (hstate.symm.trans hnodes)
    exact iff_of_false nofun hrefused
  · simp only [hread] at hrun
    obtain ⟨outputs, _, houtputs, hdone⟩ := Program.run_bind_eq_ok.1 hrun
    obtain ⟨-, hresult, -⟩ := Program.run_done.1 hdone
    obtain ⟨rfl, rfl⟩ := Prod.mk.inj hresult
    obtain ⟨found, hstate, haccepted, hblank⟩ := readForm_eq_ok hread
    refine ⟨iff_of_false nofun fun h => h found hstate, fun nodes hnodes => ?_, ?_, nofun⟩
    · obtain rfl := Data.list.inj (hstate.symm.trans hnodes)
      exact iff_of_true ⟨outputs, rfl⟩ haccepted
    · rintro nodes _ hnodes ⟨⟩
      obtain rfl := Data.list.inj (hstate.symm.trans hnodes)
      exact Node.renderAll_outputs hblank houtputs

/-- A render returns if the render handlers do. -/
theorem Form.render_returns (hlive : w.form? f.id = some live) (hfuel : 0 < fuel)
    (hr : r.Returns host fuel good) (hgood : good (w.note (.looked f.id live.store.view))) :
    ∃ f' result w', (f.render config r).run host fuel w = .ok ((f', result), w') := by
  have hlook : (Program.look f.id).run host fuel w
      = .ok (live.store.view, w.note (.looked f.id live.store.view)) := by
    obtain ⟨fuel, rfl⟩ := Nat.exists_eq_add_of_lt hfuel
    rw [Nat.zero_add]
    exact (congrFun (Program.run_call (.look f.id)) w).trans (Run.perform_look hlive)
  unfold Form.render
  rw [Program.run_bind]
  simp only [Run.bind_of_ok hlook]
  split
  · exact ⟨_, _, _, Program.run_done.2 ⟨hfuel, rfl, rfl⟩⟩
  · obtain ⟨result, w', hrun, -⟩ := ((Node.renderAll_returns hfuel hr _).bind fun _ =>
      Program.returns_pure hfuel _) _ hgood
    exact ⟨_, _, w', hrun⟩
  · obtain ⟨result, w', hrun, -⟩ := ((Node.renderAll_returns hfuel hr _).bind fun _ =>
      Program.returns_pure hfuel _) _ hgood
    exact ⟨_, _, w', hrun⟩

end Renders

/-- A render accepts exactly the states whose nodes are acceptable: whatever it returns, it is
judged by the state that it looked at; and it returns whenever the render handlers do. -/
theorem render_accepts {σ κ ρ : Type} (host : Host σ κ) (fuel : Nat) (config : Config κ)
    (r : Node.Renderer (Program σ κ) κ ρ) {f : Form κ} {w : World σ κ} {live : LiveForm κ}
    (hlive : w.form? f.id = some live) :
    (∀ f' result w', (f.render config r).run host fuel w = .ok ((f', result), w') →
      f.Judged config live.store.state f' result)
    ∧ ∀ good : World σ κ → Prop, 0 < fuel → r.Returns host fuel good →
      good (w.note (.looked f.id live.store.view)) →
      ∃ f' result w', (f.render config r).run host fuel w = .ok ((f', result), w') :=
  ⟨fun _ _ _ => Form.judged_of_run hlive, fun _ => Form.render_returns hlive⟩

/-! ## A section and a blank group -/

namespace Nested

theorem renderer_returns : renderer.Returns callbacks 3 fun _ => True := by
  rintro _ _ (_ | _ | _ | _ | _) w -
  all_goals exact ⟨(), { w with memory := w.memory + 1 }, rfl, trivial⟩

/-- Whether a render gives outputs. -/
def rendersNodes : Bool :=
  match (Form.render config renderer ⟨0, .empty⟩).run callbacks 3 start with
  | .ok ((_, .ok (.nodes _)), _) => true
  | _ => false

end Nested

open Nested in
theorem render_accepts_nested : ∃ live f' outputs w', start.form? 0 = some live
    ∧ live.store.state = state ∧ renderer.Returns callbacks 3 (fun _ => True)
    ∧ (Form.render config renderer ⟨0, .empty⟩).run callbacks 3 start
      = .ok ((f', .ok (.nodes outputs)), w')
    ∧ (∀ node ∈ state.items, Acceptable config node)
    ∧ List.Forall₂ (fun node output => output = none ↔ node.IsBlank) state.items outputs := by
  obtain ⟨live, hlive, hstate⟩ : ∃ live, start.form? 0 = some live ∧ live.store.state = state :=
    ⟨_, rfl, rfl⟩
  obtain ⟨hjudged, hreturns⟩ :=
    render_accepts callbacks 3 config renderer (f := ⟨0, .empty⟩) (w := start) hlive
  obtain ⟨f', result, w', hrun⟩ := hreturns (fun _ => True) (by decide) renderer_returns trivial
  have hcheck : rendersNodes = true := by decide +kernel
  unfold rendersNodes at hcheck
  rw [hrun] at hcheck
  split at hcheck
  · next outputs _ heq =>
    cases heq
    have hjudgement := hjudged f' _ w' hrun
    rw [hstate] at hjudgement
    exact ⟨live, f', outputs, w', hlive, hstate, renderer_returns, hrun,
      (hjudgement.accepted _ rfl).1 ⟨outputs, rfl⟩, hjudgement.outputs _ outputs rfl rfl⟩
  · cases hcheck

end FormTree
