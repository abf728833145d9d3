import FormTree.Proofs.Document.Reading

/-!
# Which documents can be read

Whether a document can be read depends on its nodes one by one.  A node is sound if it has the name
and the handler that it needs, if its attributes can be read, and if its slots for children or contents
hold what the reader looks for there.  `readForm_ok_iff` says that a list can be read as a form exactly
if it consists of nodes and every node that is reached is sound.

So a change of a document leaves it readable if it leaves every node sound, wherever the nodes stand.
-/

namespace FormTree

variable {κ : Type}

/-! ## Sound nodes -/

/-- The data are a node of some kind. -/
def Data.IsSomeNode (d : Data) : Prop := ∃ kind definition, d.IsNode kind definition

/-- The content of a slot for nodes. -/
def Data.HoldsNodes : Data → Prop
  | .null => True
  | .list nodes => ∀ node ∈ nodes, node.IsSomeNode
  | _ => False

theorem Data.HoldsNodes.nothing_or_list {d : Data} (h : d.HoldsNodes) :
    d = .null ∨ ∃ nodes, d = .list nodes ∧ ∀ node ∈ nodes, node.IsSomeNode := by
  cases d with
  | null => exact .inl rfl
  | list nodes => exact .inr ⟨nodes, rfl, h⟩
  | _ => exact h.elim

/-- The content of a slot for items, each a list of nodes. -/
def Data.HoldsItems : Data → Prop
  | .null => True
  | .list items => ∀ item ∈ items, ∃ nodes, item = .list nodes ∧ ∀ node ∈ nodes, node.IsSomeNode
  | _ => False

/-- The node of a visit can be read, apart from the nodes inside it. -/
structure Visit.Sound (config : Config κ) (v : Visit) : Prop where
  named : v.kind.Named → ∃ name, slotAt v.definition Kind.nameAt = .string name ∧ name ≠ ""
  served : v.kind = .field →
    ∃ handler, config.handlerFor (Node.textAt v.definition v.kind.typeAt) = .ok handler
  handled : v.kind ≠ .field → ¬ v.Blank → v.kind ∈ config.handled
  attributes : ¬ v.Blank → ∃ attributes, Node.attributesOf v.kind v.definition = .ok attributes
  nodes : ∀ slot, v.kind.slot .children = some slot → (slotAt v.definition slot).HoldsNodes
  items : ∀ slot, v.kind.slot .contents = some slot → (slotAt v.definition slot).HoldsItems

namespace Node

/-! ## When the parts of the reader succeed -/

section Parts

variable {α β ε : Type} {place : Place κ} {base : Option String} {definition : List Data}
  {kind : Kind} {path : Path} {name namePath : String}

theorem exists_bind_ok {x : Except ε α} {f : α → Except ε β} :
    (∃ b, (x >>= f) = .ok b) ↔ ∃ a, x = .ok a ∧ ∃ b, f a = .ok b := by
  simp only [bind_eq_ok]
  constructor
  · rintro ⟨b, a, hx, hf⟩
    exact ⟨a, hx, b, hf⟩
  · rintro ⟨a, hx, b, hf⟩
    exact ⟨b, a, hx, hf⟩

theorem exists_pure_ok (a : α) : ∃ b, (pure a : Except ε α) = .ok b := ⟨a, rfl⟩

/-- A name can be read exactly if there is one. -/
theorem exists_nameOf_ok (kind : Kind) (path : Path) :
    (∃ name, nameOf kind path definition = .ok name)
    ↔ ∃ name, slotAt definition Kind.nameAt = .string name ∧ name ≠ "" := by
  unfold nameOf
  cases slotAt definition Kind.nameAt with
  | string name =>
    by_cases hname : name = ""
    · simp [hname]
    · simp [hname]
  | _ => simp

theorem exists_requireHandler_ok {config : Config κ} :
    (∃ u, config.requireHandler kind = .ok u) ↔ kind ∈ config.handled := by
  unfold Config.requireHandler
  split <;> simp_all

theorem exists_openNamed_ok : (∃ name, openNamed place kind definition = .ok name)
    ↔ kind ∈ place.config.handled
      ∧ ∃ name, slotAt definition Kind.nameAt = .string name ∧ name ≠ "" := by
  rw [openNamed, exists_bind_ok, ← exists_nameOf_ok kind place.path,
    ← exists_requireHandler_ok]
  exact exists_and_right

theorem exists_ofField_ok : (∃ node, ofField place base definition = .ok node)
    ↔ (∃ name, slotAt definition Kind.nameAt = .string name ∧ name ≠ "")
      ∧ (∃ handler, place.config.handlerFor (textAt definition Kind.field.typeAt) = .ok handler)
      ∧ ∃ attributes, attributesOf .field definition = .ok attributes := by
  rw [ofField, exists_bind_ok, ← exists_nameOf_ok .field place.path]
  simp only [exists_bind_ok, exists_pure_ok, and_true, exists_and_right]

theorem exists_ofAttr_ok : (∃ node, ofAttr place name namePath definition = .ok node)
    ↔ ∃ attributes, attributesOf .attr definition = .ok attributes := by
  rw [ofAttr, exists_bind_ok]
  simp only [exists_pure_ok, and_true]

theorem exists_ofBlock_ok : (∃ node, ofBlock place kind definition = .ok node)
    ↔ ∃ attributes, attributesOf kind definition = .ok attributes := by
  rw [ofBlock, exists_bind_ok]
  simp only [exists_pure_ok, and_true]

theorem exists_ofContainer_ok {container : Container} :
    (∃ node, ofContainer place container name namePath definition = .ok node)
      ↔ ∃ attributes, attributesOf container.kind definition = .ok attributes := by
  rw [ofContainer, exists_bind_ok]
  simp only [exists_pure_ok, and_true]

end Parts

end Node

/-! ## The reader -/

/-- Everything that a part of a document reaches is sound. -/
def SoundBelow (config : Config κ) (reach : Visit → Prop) : Prop := ∀ v, reach v → v.Sound config

/-- The nodes in a slot of a definition can be read exactly if the slot holds nodes and all that is
reached from them is sound. -/
def SlotsSound (config : Config κ) (form : FormId) (definition : List Data) : Prop :=
  ∀ (path : Path) (base : Nat → Option String) (parent : Path) (inside : Nat → List String)
    (slot : Nat), (∃ nodes, Node.readSlot config form path base slot definition = .ok nodes)
      ↔ (slotAt definition slot).HoldsNodes
        ∧ SoundBelow config (ReachesSlot parent inside slot definition)

/-- The items in a slot of a definition can be read exactly if the slot holds items and all that is
reached from them is sound. -/
def ItemsSound (config : Config κ) (form : FormId) (definition : List Data) : Prop :=
  ∀ (path : Path) (base : Nat → String) (parent : Path) (inside : Nat → List String) (slot : Nat),
    (∃ items, Node.readItemsSlot config form path base slot definition = .ok items)
      ↔ (slotAt definition slot).HoldsItems
        ∧ SoundBelow config (ReachesItemsSlot parent inside slot definition)

section Reader

variable {config : Config κ} {form : FormId} {parent p : Path} {base : Option String}
  {above : List String} {definition more : List Data} {kind : Kind} {index : Nat}

theorem soundBelow_congr {reach other : Visit → Prop} (h : ∀ v, reach v ↔ other v) :
    SoundBelow config reach ↔ SoundBelow config other :=
  forall_congr' fun v => by rw [h v]

theorem exists_map_ok {α β ε : Type} {x : Except ε α} {f : α → β} :
    (∃ b, x.map f = .ok b) ↔ ∃ a, x = .ok a := by
  cases x <;> simp [Except.map]

/-- A field can be read exactly if it is sound. -/
theorem field_sound : (∃ node, Node.readBody config form parent base index .field
      (.list definition :: more) = .ok node)
    ↔ (visitAt p above .field definition).Sound config
      ∧ SoundBelow config (ReachesInside (p ++ [1]) above .field definition) := by
  have hnone : SoundBelow config (ReachesInside (p ++ [1]) above .field definition) := by
    refine fun v hv => absurd hv (not_reachesInside rfl fun _ hslot => ?_)
    cases hslot
  have hblank : ¬ (visitAt p above .field definition).Blank := by rintro ⟨h | h, -⟩ <;> cases h
  rw [and_iff_left hnone]
  simp only [Node.readBody, exists_map_ok, Node.behind_eq_ok, Node.exists_ofField_ok]
  constructor
  · rintro ⟨hname, hhandler, hattributes⟩
    refine ⟨fun _ => hname, fun _ => hhandler, fun h => absurd rfl h, fun _ => hattributes, ?_, ?_⟩
    · rintro _ ⟨⟩
    · rintro _ ⟨⟩
  · exact fun h => ⟨h.named trivial, h.served rfl, h.attributes hblank⟩

/-- What it means that a node with children and all inside it are sound, unless it is blank. -/
theorem sound_children {slot : Nat} (hkind : kind ≠ .field)
    (hchildren : kind.slot .children = some slot) (hcontents : kind.slot .contents = none)
    (hblank : ¬ (visitAt p above kind definition).Blank) :
    (visitAt p above kind definition).Sound config
        ∧ SoundBelow config (ReachesInside (p ++ [1]) above kind definition)
      ↔ kind ∈ config.handled
        ∧ (kind.Named → ∃ name, slotAt definition Kind.nameAt = .string name ∧ name ≠ "")
        ∧ ((slotAt definition slot).HoldsNodes ∧ SoundBelow config (ReachesSlot (p ++ [1] ++ [slot])
          (fun index => above ++ kind.segmentsInside (Node.textAt definition Kind.nameAt) index) slot
          definition))
        ∧ ∃ attributes, Node.attributesOf kind definition = .ok attributes := by
  rw [soundBelow_congr fun v => reachesInside_children (v := v) hchildren hcontents]
  constructor
  · rintro ⟨h, hbelow⟩
    exact ⟨h.handled hkind hblank, h.named, ⟨h.nodes slot hchildren, hbelow⟩, h.attributes hblank⟩
  · rintro ⟨hhandled, hnamed, ⟨hnodes, hbelow⟩, hattributes⟩
    refine ⟨⟨hnamed, fun h => absurd h hkind, fun _ _ => hhandled, fun _ => hattributes, ?_, ?_⟩,
      hbelow⟩
    · rintro other hother
      rw [Option.some.inj (hother.symm.trans hchildren)]
      exact hnodes
    · rintro other hother
      simp [hcontents] at hother

/-- What it means that a node with items and all inside it are sound. -/
theorem sound_contents {slot : Nat} (hkind : kind ≠ .field)
    (hchildren : kind.slot .children = none) (hcontents : kind.slot .contents = some slot)
    (hblank : ¬ (visitAt p above kind definition).Blank) :
    (visitAt p above kind definition).Sound config
        ∧ SoundBelow config (ReachesInside (p ++ [1]) above kind definition)
      ↔ kind ∈ config.handled
        ∧ (kind.Named → ∃ name, slotAt definition Kind.nameAt = .string name ∧ name ≠ "")
        ∧ ((slotAt definition slot).HoldsItems ∧ SoundBelow config (ReachesItemsSlot
          (p ++ [1] ++ [slot]) (fun index =>
            above ++ kind.segmentsInside (Node.textAt definition Kind.nameAt) index) slot definition))
        ∧ ∃ attributes, Node.attributesOf kind definition = .ok attributes := by
  rw [soundBelow_congr fun v => reachesInside_contents (v := v) hchildren hcontents]
  constructor
  · rintro ⟨h, hbelow⟩
    exact ⟨h.handled hkind hblank, h.named, ⟨h.items slot hcontents, hbelow⟩, h.attributes hblank⟩
  · rintro ⟨hhandled, hnamed, ⟨hitems, hbelow⟩, hattributes⟩
    refine ⟨⟨hnamed, fun h => absurd h hkind, fun _ _ => hhandled, fun _ => hattributes, ?_, ?_⟩,
      hbelow⟩
    · rintro other hother
      simp [hchildren] at hother
    · rintro other hother
      rw [Option.some.inj (hother.symm.trans hcontents)]
      exact hitems

/-- A section or group with nothing inside is sound. -/
theorem blank_sound (hkind : kind = .sect ∨ kind = .group)
    (hempty : slotAt definition kind.insideAt = .null ∨ slotAt definition kind.insideAt = .list []) :
    (visitAt p above kind definition).Sound config
      ∧ SoundBelow config (ReachesInside (p ++ [1]) above kind definition) := by
  have hitems : (slotAt definition kind.insideAt).items = [] := by
    rcases hempty with h | h <;> rw [h] <;> rfl
  have hblank : (visitAt p above kind definition).Blank := ⟨hkind, hitems⟩
  have hslot : kind.slot .children = some kind.insideAt ∧ kind.slot .contents = none
      ∧ ¬ kind.Named ∧ kind ≠ .field := by
    rcases hkind with rfl | rfl <;> exact ⟨rfl, rfl, id, nofun⟩
  refine ⟨⟨fun h => absurd h hslot.2.2.1, fun h => absurd h hslot.2.2.2, fun _ h => absurd hblank h,
    fun h => absurd hblank h, fun slot h => ?_, fun slot h => ?_⟩, fun v => ?_⟩
  · rw [Kind.slot_children h]
    rcases hempty with h | h <;> simp [h, Data.HoldsNodes]
  · simp [hslot.2.1] at h
  · refine fun hv => absurd hv (not_reachesInside hslot.2.1 fun slot h nodes hnodes => ?_)
    rw [Kind.slot_children h] at hnodes
    simpa [slotAt, hnodes] using hitems

/-- A node can be read exactly if it is sound and all that is reached from its slots is. -/
theorem readBody_sound (hslots : SlotsSound config form definition)
    (hitems : ItemsSound config form definition) :
    (∃ node, Node.readBody config form parent base index kind (.list definition :: more) = .ok node)
      ↔ (visitAt p above kind definition).Sound config
        ∧ SoundBelow config (ReachesInside (p ++ [1]) above kind definition) := by
  have hnodes := fun path base => hslots path base (p ++ [1] ++ [kind.insideAt]) (fun index =>
    above ++ kind.segmentsInside (Node.textAt definition Kind.nameAt) index) kind.insideAt
  have hcontents := fun path base => hitems path base (p ++ [1] ++ [kind.insideAt]) (fun index =>
    above ++ kind.segmentsInside (Node.textAt definition Kind.nameAt) index) kind.insideAt
  cases kind with
  | field => exact field_sound
  | attr | manyChildForms =>
    refine Iff.trans ?_ (sound_children (by decide) rfl rfl (by rintro ⟨h | h, -⟩ <;> cases h)).symm
    simp only [Node.readBody, Node.exists_bind_ok, Node.behind_eq_ok, Node.exists_pure_ok, and_true,
      Node.exists_ofAttr_ok, Node.exists_ofContainer_ok, hnodes, exists_and_right,
      Node.exists_openNamed_ok, Kind.Named, true_implies, and_assoc]
    rfl
  | many =>
    refine Iff.trans ?_ (sound_contents (by decide) rfl rfl (by rintro ⟨h | h, -⟩ <;> cases h)).symm
    simp only [Node.readBody, Node.exists_bind_ok, Node.behind_eq_ok, Node.exists_pure_ok, and_true,
      Node.exists_ofContainer_ok, hcontents, exists_and_right, Node.exists_openNamed_ok, Kind.Named,
      true_implies, and_assoc]
    rfl
  | compoundField | childForm =>
    refine Iff.trans ?_ (sound_children (by decide) rfl rfl (by rintro ⟨h | h, -⟩ <;> cases h)).symm
    simp only [Node.readBody, Node.exists_bind_ok, Node.behind_eq_ok, Node.exists_pure_ok, and_true,
      Node.exists_ofBlock_ok, hnodes, exists_and_right, Node.exists_requireHandler_ok, Kind.Named,
      false_implies, true_and]
    rfl
  | sect | group =>
    simp only [Node.readBody]
    split
    · next hnull => exact iff_of_true ⟨_, rfl⟩ (blank_sound (by simp) (.inl hnull))
    · next hnil => exact iff_of_true ⟨_, rfl⟩ (blank_sound (by simp) (.inr hnil))
    · next hfound =>
      refine Iff.trans ?_ (sound_children (by decide) rfl rfl ?_).symm
      · simp only [Node.exists_bind_ok, Node.behind_eq_ok, Node.exists_pure_ok, and_true,
          Node.exists_ofBlock_ok, hnodes, exists_and_right, Node.exists_requireHandler_ok, Kind.Named,
          false_implies, true_and]
        rfl
      · rintro ⟨-, hitems⟩
        simp [hfound] at hitems
    · next hnull hnil hcons =>
      -- what is neither nothing nor a list is refused
      refine iff_of_false ?_ ?_
      · rintro ⟨_, h⟩
        exact Node.fail_ne_ok h
      rintro ⟨h, -⟩
      rcases (h.nodes _ rfl).nothing_or_list with hcontent | ⟨nodes, hcontent, -⟩
      · exact hnull hcontent
      · cases nodes with
        | nil => exact hnil hcontent
        | cons first rest => exact hcons first rest hcontent

theorem Data.eq_list_of_children {d first second : Data} (h : d.child? 0 = some first)
    (h' : d.child? 1 = some second) : ∃ more, d = .list (first :: second :: more) := by
  cases d with
  | list items =>
    match items, h, h' with
    | _ :: _ :: more, h, h' =>
      cases h
      cases h'
      exact ⟨more, rfl⟩
  | _ => cases h

theorem Data.IsNode.eq_list {d : Data} (h : d.IsNode kind definition) :
    ∃ more, d = .list (.string kind.tag :: .list definition :: more) :=
  eq_list_of_children h.tag h.definition

theorem read_node (rest : List Data) :
    Node.read config form parent base index (.list (.string kind.tag :: rest))
      = Node.readBody config form parent base index kind rest := by
  simp [Node.read, Kind.ofTag?_tag]

theorem soundBelow_reaches {d : Data} (h : d.IsNode kind definition) :
    SoundBelow config (Reaches p above d) ↔ (visitAt p above kind definition).Sound config
      ∧ SoundBelow config (ReachesInside (p ++ [1]) above kind definition) := by
  rw [soundBelow_congr fun v => reaches_iff h]
  simp only [SoundBelow, or_imp, forall_and, forall_eq]

theorem soundBelow_or {first rest : Visit → Prop} : SoundBelow config (fun v => first v ∨ rest v)
    ↔ SoundBelow config first ∧ SoundBelow config rest := by
  simp only [SoundBelow, or_imp, forall_and]

theorem soundBelow_of_none {reach : Visit → Prop} (h : ∀ v, ¬ reach v) :
    SoundBelow config reach := fun v hv => absurd hv (h v)

mutual

/-- Data can be read as a node exactly if they are one and all that is reached from them is sound. -/
theorem read_sound (config : Config κ) (form : FormId) (d : Data) (p : Path) (above : List String)
    {parent : Path} {base : Option String} {index : Nat} :
    (∃ node, Node.read config form parent base index d = .ok node)
      ↔ d.IsSomeNode ∧ SoundBelow config (Reaches p above d) := by
  constructor
  · rintro ⟨node, h⟩
    obtain ⟨kind, definition, more, hd, hbody⟩ := read_eq_ok h
    have hnode : d.IsNode kind definition := hd ▸ ⟨rfl, rfl⟩
    refine ⟨⟨kind, definition, hnode⟩, (soundBelow_reaches hnode).2 ?_⟩
    exact (readBody_sound (readSlot_sound config form definition)
      (readItemsSlot_sound config form definition)).1 ⟨node, hbody⟩
  · rintro ⟨⟨kind, definition, hnode⟩, hbelow⟩
    obtain ⟨more, hd⟩ := hnode.eq_list
    rw [hd, read_node]
    exact (readBody_sound (readSlot_sound config form definition)
      (readItemsSlot_sound config form definition)).2 ((soundBelow_reaches hnode).1 hbelow)
termination_by sizeOf d
decreasing_by all_goals rw [hd]; simp; omega

theorem readSlot_sound (config : Config κ) (form : FormId) (definition : List Data) :
    SlotsSound config form definition := by
  intro path base parent inside slot
  match definition, slot with
  | [], slot =>
    refine iff_of_true ⟨[], by cases slot <;> rfl⟩ ⟨trivial, soundBelow_of_none ?_⟩
    rintro v ⟨_, ⟨⟩, _⟩
  | content :: rest, 0 =>
    rw [Node.readSlot, readList_sound config form content parent inside]
    refine and_congr Iff.rfl (soundBelow_congr fun v => ?_)
    simp [ReachesSlot]
  | content :: rest, slot + 1 => exact readSlot_sound config form rest path base parent inside slot
termination_by sizeOf definition

theorem readList_sound (config : Config κ) (form : FormId) (d : Data) (parent : Path)
    (inside : Nat → List String) {path : Path} {base : Nat → Option String} :
    (∃ nodes, Node.readList config form path base d = .ok nodes) ↔ d.HoldsNodes
      ∧ SoundBelow config fun v =>
        ∃ found, d = .list found ∧ ReachesAll parent inside 0 found v := by
  match d with
  | .null => exact iff_of_true ⟨[], rfl⟩ ⟨trivial, soundBelow_of_none fun v ⟨_, h, _⟩ => nomatch h⟩
  | .list found =>
    rw [Node.readList, readAll_sound config form found parent inside 0]
    refine and_congr Iff.rfl (soundBelow_congr fun v => ?_)
    simp
  | .bool _ | .number _ | .string _ | .map _ =>
    exact iff_of_false (fun ⟨_, h⟩ => Node.fail_ne_ok h) fun ⟨h, _⟩ => h
termination_by sizeOf d

theorem readAll_sound (config : Config κ) (form : FormId) (found : List Data) (parent : Path)
    (inside : Nat → List String) (other : Nat) {path : Path} {base : Nat → Option String}
    {start : Nat} :
    (∃ nodes, Node.readAll config form path base start found = .ok nodes)
      ↔ (∀ d ∈ found, d.IsSomeNode) ∧ SoundBelow config (ReachesAll parent inside other found) := by
  match found with
  | [] => exact iff_of_true ⟨[], rfl⟩ ⟨by simp, soundBelow_of_none fun _ => not_reachesAll_nil⟩
  | d :: rest =>
    rw [Node.readAll, soundBelow_congr fun v => reachesAll_cons, soundBelow_or]
    simp only [Node.exists_bind_ok, Node.after_eq_ok, Node.exists_pure_ok, and_true,
      exists_and_right, read_sound config form d (parent ++ [other]) (inside other),
      readAll_sound config form rest parent inside (other + 1),
      List.forall_mem_cons]
    exact and_and_and_comm
termination_by sizeOf found

theorem readItemsSlot_sound (config : Config κ) (form : FormId) (definition : List Data) :
    ItemsSound config form definition := by
  intro path base parent inside slot
  match definition, slot with
  | [], slot =>
    refine iff_of_true ⟨[], by cases slot <;> rfl⟩ ⟨trivial, soundBelow_of_none ?_⟩
    rintro v ⟨_, ⟨⟩, _⟩
  | content :: rest, 0 =>
    rw [Node.readItemsSlot, readItemsList_sound config form content parent inside]
    refine and_congr Iff.rfl (soundBelow_congr fun v => ?_)
    simp [ReachesItemsSlot]
  | content :: rest, slot + 1 =>
    exact readItemsSlot_sound config form rest path base parent inside slot
termination_by sizeOf definition

theorem readItemsList_sound (config : Config κ) (form : FormId) (d : Data) (parent : Path)
    (inside : Nat → List String) {path : Path} {base : Nat → String} :
    (∃ items, Node.readItemsList config form path base d = .ok items) ↔ d.HoldsItems
      ∧ SoundBelow config fun v =>
        ∃ found, d = .list found ∧ ReachesItems parent inside 0 found v := by
  match d with
  | .null => exact iff_of_true ⟨[], rfl⟩ ⟨trivial, soundBelow_of_none fun v ⟨_, h, _⟩ => nomatch h⟩
  | .list found =>
    rw [Node.readItemsList, readItems_sound config form found parent inside 0]
    refine and_congr Iff.rfl (soundBelow_congr fun v => ?_)
    simp
  | .bool _ | .number _ | .string _ | .map _ =>
    exact iff_of_false (fun ⟨_, h⟩ => Node.fail_ne_ok h) fun ⟨h, _⟩ => h
termination_by sizeOf d

theorem readItems_sound (config : Config κ) (form : FormId) (found : List Data) (parent : Path)
    (inside : Nat → List String) (other : Nat) {path : Path} {base : Nat → String} {start : Nat} :
    (∃ items, Node.readItems config form path base start found = .ok items)
      ↔ (∀ item ∈ found, ∃ nodes, item = .list nodes ∧ ∀ node ∈ nodes, node.IsSomeNode)
        ∧ SoundBelow config (ReachesItems parent inside other found) := by
  match found with
  | [] => exact iff_of_true ⟨[], rfl⟩ ⟨by simp, soundBelow_of_none fun _ => not_reachesItems_nil⟩
  | .list nodes :: rest =>
    rw [Node.readItems, soundBelow_congr fun v => reachesItems_cons, soundBelow_or]
    simp only [Node.exists_bind_ok, Node.after_eq_ok, Node.exists_pure_ok, and_true,
      exists_and_right,
      readAll_sound config form nodes (parent ++ [other]) (fun _ => inside other) 0,
      readItems_sound config form rest parent inside (other + 1),
      List.forall_mem_cons, Data.list.injEq, exists_eq_left']
    exact and_and_and_comm
  | .null :: _ | .bool _ :: _ | .number _ :: _ | .string _ :: _ | .map _ :: _ =>
    exact iff_of_false (fun ⟨_, h⟩ => Node.fail_ne_ok h) fun ⟨h, _⟩ => by simp at h
termination_by sizeOf found

end

/-- A document can be read exactly if it is a list of nodes and every node that is reached is sound.
-/
theorem readForm_ok_iff {state : Data} :
    (∃ nodes, Node.readForm config form state = some (.ok nodes))
      ↔ ∃ found, state = .list found ∧ (∀ d ∈ found, d.IsSomeNode)
        ∧ SoundBelow config state.Reached := by
  cases state with
  | list found =>
    simp only [Node.readForm, Option.some.injEq, readAll_sound config form found [] (fun _ => []) 0,
      Data.list.injEq, exists_eq_left']
    refine and_congr Iff.rfl (soundBelow_congr fun v => ?_)
    simp [Data.Reached]
  | _ =>
    refine iff_of_false ?_ ?_
    · rintro ⟨_, ⟨⟩⟩
    · rintro ⟨_, ⟨⟩, _⟩

end Reader

end FormTree
