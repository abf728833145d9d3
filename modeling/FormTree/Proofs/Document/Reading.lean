import FormTree.Proofs.Document.Covering

/-!
# What reading a document finds

A form that can be read consists of nodes; this module shows that they are the nodes that are reached
in the document, each once and in order, and that each is what the definition at its path says.  The
induction goes over the data, along the functions of the reader.
-/

namespace FormTree

variable {κ : Type}

/-! ## Single definitions -/

namespace Node

section

variable {α β ε : Type}

theorem bind_eq_ok {x : Except ε α} {f : α → Except ε β} {b : β} :
    (x >>= f) = .ok b ↔ ∃ a, x = .ok a ∧ f a = .ok b := by
  cases x with
  | error _ => exact ⟨nofun, fun ⟨_, h, _⟩ => nomatch h⟩
  | ok a =>
    constructor
    · exact fun h => ⟨a, rfl, h⟩
    · rintro ⟨_, ⟨⟩, h⟩
      exact h

theorem map_eq_ok {x : Except ε α} {f : α → β} {b : β} :
    x.map f = .ok b ↔ ∃ a, x = .ok a ∧ f a = b := by
  cases x <;> simp [Except.map]

@[simp] theorem pure_eq_ok {a b : α} : (pure a : Except ε α) = .ok b ↔ a = b :=
  ⟨fun h => Except.ok.inj h, fun h => h ▸ rfl⟩

@[simp] theorem behind_eq_ok {before : List (Node κ)} {x : Except Fault α} {a : α} :
    behind before x = .ok a ↔ x = .ok a := by
  cases x <;> simp [behind]

@[simp] theorem after_eq_ok {before : List (Node κ)} {x : Except (ReadFailure κ) α} {a : α} :
    after before x = .ok a ↔ x = .ok a := by
  cases x <;> simp [after]

@[simp] theorem fail_ne_ok {error : Fault} {a : α} :
    (fail error : Except (ReadFailure κ) α) ≠ .ok a := nofun

end

variable {place : Place κ} {above definition : List Data} {kind : Kind} {name namePath : String}

/-- A name that could be read is the text in the first slot. -/
theorem nameOf_eq_ok {path : Path} (h : nameOf kind path definition = .ok name) :
    definition[Kind.nameAt]? = some (.string name) ∧ textAt definition Kind.nameAt = name
      ∧ name ≠ "" := by
  simp only [nameOf] at h
  split at h
  · next found hfound =>
    split at h
    · cases h
    · next hne =>
      cases h
      refine ⟨?_, by simp [textAt, hfound, Data.toString?], hne⟩
      rw [slotAt, List.getD_eq_getElem?_getD] at hfound
      cases hget : definition[Kind.nameAt]? with
      | none => simp [hget] at hfound
      | some d => simpa [hget] using hfound
  · cases h

theorem openNamed_eq_ok (h : openNamed place kind definition = .ok name) :
    nameOf kind place.path definition = .ok name := by
  obtain ⟨_, _, h⟩ := bind_eq_ok.1 h
  exact h

/-- The rules of a visit are those that the reader finds. -/
theorem rules_of_attributes {path : Path} {above : List String} {attributes : Attribute}
    (h : attributesOf kind definition = .ok attributes) :
    (⟨path, above, kind, definition⟩ : Visit).rules = attributes.get? "validation" := by
  simp [Visit.rules, h]

theorem registered_field {base : Option String} {above : List String} {node : FieldNode κ}
    (hbase : base = NamePath.joined place.config.settings.nameSeparator above)
    (h : ofField place base definition = .ok node) :
    (⟨place.path, above, .field, definition⟩ : Visit).registered place.config place.form
      = some (node.namePath, .field node.handle) := by
  obtain ⟨name, hname, h⟩ := bind_eq_ok.1 h
  obtain ⟨handler, -, h⟩ := bind_eq_ok.1 h
  obtain ⟨attributes, hattributes, h⟩ := bind_eq_ok.1 h
  obtain ⟨-, htext, -⟩ := nameOf_eq_ok hname
  cases h
  simp [Visit.registered, Visit.entry?, rules_of_attributes hattributes, Visit.namePath,
    Visit.segments, Visit.name, htext, Place.nameBelow, hbase, NamePath.append_joined]

theorem ofField_named {base : Option String} {node : FieldNode κ}
    (h : ofField place base definition = .ok node) :
    nameOf .field place.path definition = .ok node.name := by
  obtain ⟨name, hname, h⟩ := bind_eq_ok.1 h
  obtain ⟨handler, -, h⟩ := bind_eq_ok.1 h
  obtain ⟨attributes, hattributes, h⟩ := bind_eq_ok.1 h
  cases h
  exact hname

theorem registered_container (container : Container) {above : List String} {node : ContainerNode κ}
    (hname : (⟨place.path, above, container.kind, definition⟩ : Visit).namePath
      place.config.settings.nameSeparator = namePath)
    (h : ofContainer place container name namePath definition = .ok node) :
    (⟨place.path, above, container.kind, definition⟩ : Visit).registered place.config place.form
      = some (node.namePath, .container node.handle) := by
  obtain ⟨attributes, hattributes, h⟩ := bind_eq_ok.1 h
  cases h
  have hrules : (⟨place.path, above, container.kind, definition⟩ : Visit).rules
      = attributes.get? "validation" := rules_of_attributes hattributes
  cases container <;> simp only [Container.kind] at hname hrules <;>
    simp [Visit.registered, Visit.entry?, hname, hrules, Container.kind]

end Node

/-! ## Single nodes -/

/-- Where the reader stands at a node. -/
abbrev placeAt (config : Config κ) (form : FormId) (p : Path) : Node.Place κ :=
  ⟨config, form, p ++ [1]⟩

/-- The visit to a node. -/
abbrev visitAt (p : Path) (above : List String) (kind : Kind) (definition : List Data) : Visit :=
  ⟨p ++ [1], above, kind, definition⟩

/-- What is read from a slot of a definition covers what is reached from the slot. -/
def SlotsCovered (config : Config κ) (form : FormId) (definition : List Data) : Prop :=
  ∀ (inside : Nat → List String) {path : Path} {base : Nat → Option String} {slot : Nat}
    {nodes : List (Node κ)},
    (∀ i, base i = NamePath.joined config.settings.nameSeparator (inside i)) →
    Node.readSlot config form path base slot definition = .ok nodes →
    ∃ visits, Covers config form (ReachesSlot path inside slot definition) visits nodes

/-- What is read as items from a slot covers what is reached from the items in the slot. -/
def ItemsCovered (config : Config κ) (form : FormId) (definition : List Data) : Prop :=
  ∀ (inside : Nat → List String) {path : Path} {base : Nat → String} {slot : Nat}
    {items : List (List (Node κ))},
    (∀ i, some (base i) = NamePath.joined config.settings.nameSeparator (inside i)) →
    Node.readItemsSlot config form path base slot definition = .ok items →
    ∃ visits, Covers config form (ReachesItemsSlot path inside slot definition) visits items.flatten

section Nodes

variable {config : Config κ} {form : FormId} {p : Path} {base : Option String}
  {above : List String} {definition more : List Data} {kind : Kind} {name : String}

/-- The name path that the reader makes is that of the visit. -/
theorem Visit.namePath_eq (place : Node.Place κ)
    (hbase : base = NamePath.joined place.config.settings.nameSeparator above)
    (hname : Node.nameOf kind place.path definition = .ok name) :
    (⟨place.path, above, kind, definition⟩ : Visit).namePath place.config.settings.nameSeparator
      = place.nameBelow base name := by
  obtain ⟨-, htext, -⟩ := Node.nameOf_eq_ok hname
  rw [Visit.namePath, Visit.segments, Visit.name, htext, Node.Place.nameBelow, hbase,
    NamePath.append_joined]

theorem Node.Place.some_nameBelow (place : Node.Place κ)
    (hbase : base = NamePath.joined place.config.settings.nameSeparator above) (segment : String) :
    some (place.nameBelow base segment)
      = NamePath.joined place.config.settings.nameSeparator (above ++ [segment]) := by
  rw [Node.Place.nameBelow, hbase, NamePath.append_joined, NamePath.joined_append_singleton]

theorem Node.Place.some_nameBelow_item (place : Node.Place κ)
    (hbase : base = NamePath.joined place.config.settings.nameSeparator above) (name : String)
    (i : Nat) : some (place.nameBelow (some (place.nameBelow base name)) (toString i))
      = NamePath.joined place.config.settings.nameSeparator (above ++ [name, toString i]) := by
  have hname := place.some_nameBelow hbase name
  rw [place.some_nameBelow hname, List.append_assoc]
  rfl

/-- A node that must have a name covers what is reached from it, if its name and all that its handler
needs were read, and the nodes inside cover what is reached from its slots. -/
theorem named_covers {node : Node κ} {children : List (Node κ)} {call : Handed κ}
    (hname : Node.nameOf kind (p ++ [1]) definition = .ok name) (hkind : kind.Named)
    (hinside : ∃ visits, Covers config form (ReachesInside (p ++ [1]) above kind definition) visits
      children)
    (hcall : (visitAt p above kind definition).handed? config form = some call)
    (hentries : node.entries = Node.entriesAll children
      ++ ((visitAt p above kind definition).registered config form).toList)
    (hhanded : node.handed = Node.handedAll children ++ [call]) :
    ∃ visits, Covers config form (Reaches p above
      (.list (.string kind.tag :: .list definition :: more))) visits [node] := by
  obtain ⟨visits, hcovers⟩ := hinside
  obtain ⟨hslot, htext, hne⟩ := Node.nameOf_eq_ok hname
  refine ⟨_, hcovers.around ⟨rfl, rfl⟩ hentries (by rw [hhanded, hcall]; rfl) ⟨fun _ => ?_, ?_⟩⟩
  · exact ⟨hslot.trans (congrArg (some ∘ Data.string) htext.symm), by rwa [Visit.name, htext]⟩
  · have hblank : ¬ (visitAt p above kind definition).Blank := by
      rintro ⟨rfl | rfl, -⟩ <;> exact hkind
    simp [hcall, hblank]

/-- A field that was read covers itself. -/
theorem field_covers {field : FieldNode κ}
    (hbase : base = NamePath.joined config.settings.nameSeparator above)
    (hfield : Node.ofField (placeAt config form p) base definition = .ok field) :
    ∃ visits, Covers config form (Reaches p above
      (.list (.string Kind.field.tag :: .list definition :: more))) visits [.field field] := by
  have hnone : ∀ v, ¬ ReachesInside (p ++ [1]) above .field definition v := fun v =>
    not_reachesInside rfl fun _ hslot => nomatch hslot
  have hcall : (visitAt p above .field definition).handed? config form = some (.field field) := by
    simp [Visit.handed?, Visit.place, ← hbase, hfield, Except.toOption]
  have hentry := Node.registered_field hbase hfield
  exact named_covers (Node.ofField_named hfield) trivial ⟨[], .nil hnone⟩ hcall
    (congrArg Option.toList hentry.symm) rfl

/-- An `attr` node that was read covers what is reached from it. -/
theorem attr_covers {children : List (Node κ)} {attr : AttrNode}
    (hslots : SlotsCovered config form definition)
    (hbase : base = NamePath.joined config.settings.nameSeparator above)
    (hname : Node.nameOf .attr (p ++ [1]) definition = .ok name)
    (hchildren : Node.readSlot config form (p ++ [1] ++ [Kind.attr.insideAt])
      (fun _ => some ((placeAt config form p).nameBelow base name)) Kind.attr.insideAt definition
      = .ok children)
    (hattr : Node.ofAttr (placeAt config form p) name ((placeAt config form p).nameBelow base name)
      definition = .ok attr) :
    ∃ visits, Covers config form (Reaches p above
      (.list (.string Kind.attr.tag :: .list definition :: more))) visits
      [.attr attr children] := by
  obtain ⟨-, htext, -⟩ := Node.nameOf_eq_ok hname
  have hpath := Visit.namePath_eq (placeAt config form p) hbase hname
  obtain ⟨visits, hcovers⟩ := hslots (fun _ => above ++ [Node.textAt definition Kind.nameAt])
    (fun _ => by rw [htext]; exact (placeAt config form p).some_nameBelow hbase name) hchildren
  have hcall : (visitAt p above .attr definition).handed? config form = some (.attr attr) := by
    simp [Visit.handed?, Visit.place, hpath, Visit.name, htext, hattr, Except.toOption]
  exact named_covers hname trivial ⟨visits, hcovers.congr fun v => reachesInside_children rfl rfl⟩
    hcall (List.append_nil _).symm rfl

/-- A `many` container that was read covers what is reached from it. -/
theorem many_covers {items : List (List (Node κ))} {container : ContainerNode κ}
    (hitems : ItemsCovered config form definition)
    (hbase : base = NamePath.joined config.settings.nameSeparator above)
    (hname : Node.nameOf .many (p ++ [1]) definition = .ok name)
    (hread : Node.readItemsSlot config form (p ++ [1] ++ [Kind.many.insideAt])
      (fun i => (placeAt config form p).nameBelow
        (some ((placeAt config form p).nameBelow base name)) (toString i))
      Kind.many.insideAt definition = .ok items)
    (hcontainer : Node.ofContainer (placeAt config form p) .many name
      ((placeAt config form p).nameBelow base name) definition = .ok container) :
    ∃ visits, Covers config form (Reaches p above
      (.list (.string Kind.many.tag :: .list definition :: more))) visits
      [.many container items] := by
  obtain ⟨-, htext, -⟩ := Node.nameOf_eq_ok hname
  have hpath := Visit.namePath_eq (placeAt config form p) hbase hname
  obtain ⟨visits, hcovers⟩ := hitems
    (fun i => above ++ [Node.textAt definition Kind.nameAt, toString i])
    (fun i => by rw [htext]; exact (placeAt config form p).some_nameBelow_item hbase name i) hread
  have hcall : (visitAt p above .many definition).handed? config form = some (.many container) := by
    simp [Visit.handed?, Visit.place, hpath, Visit.name, htext, hcontainer, Except.toOption]
  have hentry := Node.registered_container .many hpath hcontainer
  refine named_covers hname trivial
    ⟨visits, hcovers.congr fun v => reachesInside_contents rfl rfl⟩ hcall ?_ ?_
  · rw [Node.entries, Node.entriesItems_eq]
    exact congrArg (_ ++ Option.toList ·) hentry.symm
  · rw [Node.handed, Node.handedItems_eq]

/-- A container of child forms that was read covers what is reached from it. -/
theorem childForms_covers {items : List (Node κ)} {container : ContainerNode κ}
    (hslots : SlotsCovered config form definition)
    (hbase : base = NamePath.joined config.settings.nameSeparator above)
    (hname : Node.nameOf .manyChildForms (p ++ [1]) definition = .ok name)
    (hread : Node.readSlot config form (p ++ [1] ++ [Kind.manyChildForms.insideAt])
      (fun i => some ((placeAt config form p).nameBelow
        (some ((placeAt config form p).nameBelow base name)) (toString i)))
      Kind.manyChildForms.insideAt definition = .ok items)
    (hcontainer : Node.ofContainer (placeAt config form p) .childForms name
      ((placeAt config form p).nameBelow base name) definition = .ok container) :
    ∃ visits, Covers config form (Reaches p above
      (.list (.string Kind.manyChildForms.tag :: .list definition :: more))) visits
      [.childForms container items] := by
  obtain ⟨-, htext, -⟩ := Node.nameOf_eq_ok hname
  have hpath := Visit.namePath_eq (placeAt config form p) hbase hname
  obtain ⟨visits, hcovers⟩ := hslots
    (fun i => above ++ [Node.textAt definition Kind.nameAt, toString i])
    (fun i => by rw [htext]; exact (placeAt config form p).some_nameBelow_item hbase name i) hread
  have hcall : (visitAt p above .manyChildForms definition).handed? config form
      = some (.childForms container) := by
    simp [Visit.handed?, Visit.place, hpath, Visit.name, htext, hcontainer, Except.toOption]
  have hentry := Node.registered_container .childForms hpath hcontainer
  exact named_covers hname trivial ⟨visits, hcovers.congr fun v => reachesInside_children rfl rfl⟩
    hcall (congrArg (_ ++ Option.toList ·) hentry.symm) rfl

/-- A block that was read covers what is reached from it. -/
theorem block_covers {children : List (Node κ)} {block : BlockNode}
    (hkind : kind = .compoundField ∨ kind = .childForm ∨ kind = .sect ∨ kind = .group)
    (hblank : ¬ (visitAt p above kind definition).Blank)
    (hslots : SlotsCovered config form definition)
    (hbase : base = NamePath.joined config.settings.nameSeparator above)
    (hchildren : Node.readSlot config form (p ++ [1] ++ [kind.insideAt]) (fun _ => base)
      kind.insideAt definition = .ok children)
    (hblock : Node.ofBlock (placeAt config form p) kind definition = .ok block) :
    ∃ visits, Covers config form (Reaches p above
      (.list (.string kind.tag :: .list definition :: more))) visits
      [.block kind block children] := by
  have hsegments : ∀ i, kind.segmentsInside (Node.textAt definition Kind.nameAt) i = [] := by
    rcases hkind with rfl | rfl | rfl | rfl <;> exact fun _ => rfl
  have hslot : kind.slot .children = some kind.insideAt ∧ kind.slot .contents = none := by
    rcases hkind with rfl | rfl | rfl | rfl <;> exact ⟨rfl, rfl⟩
  have hnamed : ¬ kind.Named := by rcases hkind with rfl | rfl | rfl | rfl <;> exact id
  have hentry : (visitAt p above kind definition).registered config form = none := by
    rcases hkind with rfl | rfl | rfl | rfl <;> rfl
  have hcall : (visitAt p above kind definition).handed? config form = some (.block kind block) := by
    rcases hkind with rfl | rfl | rfl | rfl <;>
      simp [Visit.handed?, Visit.place, hblank, hblock, Except.toOption]
  obtain ⟨visits, hcovers⟩ := hslots (fun i =>
    above ++ kind.segmentsInside (Node.textAt definition Kind.nameAt) i)
    (fun i => by rw [hsegments, List.append_nil, hbase]) hchildren
  refine ⟨_, (hcovers.congr fun v => reachesInside_children hslot.1 hslot.2).around ⟨rfl, rfl⟩ ?_ ?_
    ⟨fun h => absurd h hnamed, by simp [hcall, hblank]⟩⟩
  · rw [hentry, Node.entries, Option.toList, List.append_nil]
  · rw [hcall, Node.handed, Option.toList]

/-- A section or group with nothing inside covers itself. -/
theorem blank_covers (hkind : kind = .sect ∨ kind = .group)
    (hempty : (slotAt definition kind.insideAt).items = []) :
    ∃ visits, Covers config form (Reaches p above
      (.list (.string kind.tag :: .list definition :: more))) visits [(.blank kind : Node κ)] := by
  have hblank : (visitAt p above kind definition).Blank := ⟨hkind, hempty⟩
  have hnamed : ¬ kind.Named := by rcases hkind with rfl | rfl <;> exact id
  have hentry : (visitAt p above kind definition).registered config form = none := by
    rcases hkind with rfl | rfl <;> rfl
  have hcall : (visitAt p above kind definition).handed? config form = none := by
    rcases hkind with rfl | rfl <;> simp [Visit.handed?, hblank]
  -- blank nodes are left out of the calls, but not out of the visits
  have hnone : ∀ v, ¬ ReachesInside (p ++ [1]) above kind definition v := by
    refine fun v => not_reachesInside ?_ fun slot hslot nodes hnodes => ?_
    · rcases hkind with rfl | rfl <;> rfl
    · rw [Kind.slot_children hslot] at hnodes
      simpa [slotAt, hnodes] using hempty
  have hinside : Covers config form (ReachesInside (p ++ [1]) above kind definition) []
      ([] : List (Node κ)) := .nil hnone
  refine ⟨_, hinside.around ⟨rfl, rfl⟩ ?_ ?_ ⟨fun h => absurd h hnamed, by simp [hcall, hblank]⟩⟩
  · rw [hentry]
    rfl
  · rw [hcall]
    rfl

end Nodes

/-! ## The reader -/

section Reader

variable {config : Config κ} {form : FormId} {parent : Path} {base : Option String}
  {above : List String} {definition more : List Data} {kind : Kind} {index : Nat} {node : Node κ}

/-- A node covers what is reached from it, if its slots do. -/
theorem readBody_covers (hslots : SlotsCovered config form definition)
    (hitems : ItemsCovered config form definition)
    (hbase : base = NamePath.joined config.settings.nameSeparator above)
    (h : Node.readBody config form parent base index kind (.list definition :: more) = .ok node) :
    ∃ visits, Covers config form (Reaches (parent ++ [index]) above
      (.list (.string kind.tag :: .list definition :: more))) visits [node] := by
  have hpath : parent ++ [index, Node.definitionStep] = parent ++ [index] ++ [1] := by
    rw [List.append_assoc]
    rfl
  cases kind with
  | field =>
    simp only [Node.readBody, hpath, Node.map_eq_ok, Node.behind_eq_ok] at h
    obtain ⟨field, hfield, rfl⟩ := h
    exact field_covers hbase hfield
  | attr =>
    simp only [Node.readBody, hpath, Node.bind_eq_ok, Node.behind_eq_ok, Node.pure_eq_ok] at h
    obtain ⟨name, hname, children, hchildren, attr, hattr, rfl⟩ := h
    exact attr_covers hslots hbase (Node.openNamed_eq_ok hname) hchildren hattr
  | compoundField | childForm =>
    simp only [Node.readBody, hpath, Node.bind_eq_ok, Node.behind_eq_ok, Node.pure_eq_ok] at h
    obtain ⟨-, -, children, hchildren, block, hblock, rfl⟩ := h
    exact block_covers (by simp) (by rintro ⟨h | h, -⟩ <;> cases h) hslots hbase hchildren hblock
  | sect | group =>
    -- a list without children reads as a blank, which covers nothing as nothing is reached inside
    simp only [Node.readBody, hpath] at h
    split at h
    · next hempty =>
      cases h
      exact blank_covers (by simp) (by simp [hempty, Data.items, Data.toList?])
    · next hempty =>
      cases h
      exact blank_covers (by simp) (by simp [hempty])
    · next hfound =>
      simp only [Node.bind_eq_ok, Node.behind_eq_ok, Node.pure_eq_ok] at h
      obtain ⟨-, -, children, hchildren, block, hblock, rfl⟩ := h
      refine block_covers (by simp) (fun hblank => ?_) hslots hbase hchildren hblock
      have hitems := hblank.2
      simp [hfound] at hitems
    · exact absurd h Node.fail_ne_ok
  | many =>
    simp only [Node.readBody, hpath, Node.bind_eq_ok, Node.behind_eq_ok, Node.pure_eq_ok] at h
    obtain ⟨name, hname, items, hread, container, hcontainer, rfl⟩ := h
    exact many_covers hitems hbase (Node.openNamed_eq_ok hname) hread hcontainer
  | manyChildForms =>
    simp only [Node.readBody, hpath, Node.bind_eq_ok, Node.behind_eq_ok, Node.pure_eq_ok] at h
    obtain ⟨name, hname, items, hread, container, hcontainer, rfl⟩ := h
    exact childForms_covers hslots hbase (Node.openNamed_eq_ok hname) hread hcontainer

/-- What can be read as a node is a node. -/
theorem read_eq_ok {d : Data} (h : Node.read config form parent base index d = .ok node) :
    ∃ (kind : Kind) (definition more : List Data),
      d = .list (.string kind.tag :: .list definition :: more)
        ∧ Node.readBody config form parent base index kind (.list definition :: more) = .ok node := by
  unfold Node.read at h
  split at h
  · next tag rest =>
    split at h
    · exact absurd h Node.fail_ne_ok
    · next kind hkind =>
      obtain rfl := Kind.tag_of_ofTag? hkind
      match rest, h with
      | .list definition :: more, h => exact ⟨kind, definition, more, rfl, h⟩
      | [], h | .null :: _, h | .bool _ :: _, h | .number _ :: _, h | .string _ :: _, h
      | .map _ :: _, h => exact absurd h Node.fail_ne_ok
  · exact absurd h Node.fail_ne_ok

mutual

/-- The node that was read from data covers what is reached from them. -/
theorem read_covers (config : Config κ) (form : FormId) (d : Data) {parent : Path}
    {base : Option String} {above : List String} {index : Nat} {node : Node κ}
    (hbase : base = NamePath.joined config.settings.nameSeparator above)
    (h : Node.read config form parent base index d = .ok node) :
    ∃ visits, Covers config form (Reaches (parent ++ [index]) above d) visits [node] := by
  obtain ⟨kind, definition, more, hd, hbody⟩ := read_eq_ok h
  rw [hd]
  exact readBody_covers (readSlot_covers config form definition)
    (readItemsSlot_covers config form definition) hbase hbody
termination_by sizeOf d
decreasing_by all_goals rw [hd]; simp; omega

theorem readSlot_covers (config : Config κ) (form : FormId) (definition : List Data) :
    SlotsCovered config form definition := by
  intro inside path base slot nodes hbase h
  match definition, slot, h with
  | [], slot, h =>
    cases slot <;> cases h <;> exact ⟨[], Covers.nil fun v ⟨_, hnodes, _⟩ => nomatch hnodes⟩
  | content :: rest, 0, h =>
    obtain ⟨visits, hcovers⟩ := readList_covers config form content hbase h
    exact ⟨visits, hcovers.congr fun v => by simp [ReachesSlot]⟩
  | content :: rest, slot + 1, h =>
    obtain ⟨visits, hcovers⟩ := readSlot_covers config form rest inside hbase h
    exact ⟨visits, hcovers.congr fun v => Iff.rfl⟩
termination_by sizeOf definition

theorem readList_covers (config : Config κ) (form : FormId) (d : Data) {path : Path}
    {inside : Nat → List String} {base : Nat → Option String} {nodes : List (Node κ)}
    (hbase : ∀ i, base i = NamePath.joined config.settings.nameSeparator (inside i))
    (h : Node.readList config form path base d = .ok nodes) :
    ∃ visits, Covers config form
      (fun v => ∃ found, d = .list found ∧ ReachesAll path inside 0 found v) visits nodes := by
  match d, h with
  | .null, h =>
    cases h
    exact ⟨[], Covers.nil fun v ⟨_, hfound, _⟩ => nomatch hfound⟩
  | .list found, h =>
    obtain ⟨visits, hcovers⟩ := readAll_covers config form found hbase h
    exact ⟨visits, hcovers.congr fun v => by simp⟩
  | .bool _, h | .number _, h | .string _, h | .map _, h => exact absurd h Node.fail_ne_ok
termination_by sizeOf d

theorem readAll_covers (config : Config κ) (form : FormId) (found : List Data) {path : Path}
    {inside : Nat → List String} {base : Nat → Option String} {start : Nat} {nodes : List (Node κ)}
    (hbase : ∀ i, base i = NamePath.joined config.settings.nameSeparator (inside i))
    (h : Node.readAll config form path base start found = .ok nodes) :
    ∃ visits, Covers config form (ReachesAll path inside start found) visits nodes := by
  match found, h with
  | [], h =>
    cases h
    exact ⟨[], Covers.nil fun v => not_reachesAll_nil⟩
  | d :: rest, h =>
    simp only [Node.readAll, Node.bind_eq_ok, Node.after_eq_ok, Node.pure_eq_ok] at h
    obtain ⟨first, hfirst, others, hothers, rfl⟩ := h
    obtain ⟨visits, hcovers⟩ := read_covers config form d (hbase start) hfirst
    obtain ⟨further, hfurther⟩ := readAll_covers config form rest hbase hothers
    refine ⟨_, hcovers.append hfurther (fun v => reachesAll_cons) fun u v hu hv => ?_⟩
    -- the paths part at the index of the first node
    obtain ⟨q, hq⟩ := hu.path_eq
    obtain ⟨later, r, hlater, hr⟩ := hv.path_eq
    rw [hq, hr, List.append_assoc]
    exact Path.precedes_of_lt hlater
termination_by sizeOf found

theorem readItemsSlot_covers (config : Config κ) (form : FormId) (definition : List Data) :
    ItemsCovered config form definition := by
  intro inside path base slot items hbase h
  match definition, slot, h with
  | [], slot, h =>
    cases slot <;> cases h <;> exact ⟨[], Covers.nil fun v ⟨_, hitems, _⟩ => nomatch hitems⟩
  | content :: rest, 0, h =>
    obtain ⟨visits, hcovers⟩ := readItemsList_covers config form content hbase h
    exact ⟨visits, hcovers.congr fun v => by simp [ReachesItemsSlot]⟩
  | content :: rest, slot + 1, h =>
    obtain ⟨visits, hcovers⟩ := readItemsSlot_covers config form rest inside hbase h
    exact ⟨visits, hcovers.congr fun v => Iff.rfl⟩
termination_by sizeOf definition

theorem readItemsList_covers (config : Config κ) (form : FormId) (d : Data) {path : Path}
    {inside : Nat → List String} {base : Nat → String} {items : List (List (Node κ))}
    (hbase : ∀ i, some (base i) = NamePath.joined config.settings.nameSeparator (inside i))
    (h : Node.readItemsList config form path base d = .ok items) :
    ∃ visits, Covers config form
      (fun v => ∃ found, d = .list found ∧ ReachesItems path inside 0 found v) visits
      items.flatten := by
  match d, h with
  | .null, h =>
    cases h
    exact ⟨[], Covers.nil fun v ⟨_, hfound, _⟩ => nomatch hfound⟩
  | .list found, h =>
    obtain ⟨visits, hcovers⟩ := readItems_covers config form found hbase h
    exact ⟨visits, hcovers.congr fun v => by simp⟩
  | .bool _, h | .number _, h | .string _, h | .map _, h => exact absurd h Node.fail_ne_ok
termination_by sizeOf d

theorem readItems_covers (config : Config κ) (form : FormId) (found : List Data) {path : Path}
    {inside : Nat → List String} {base : Nat → String} {start : Nat} {items : List (List (Node κ))}
    (hbase : ∀ i, some (base i) = NamePath.joined config.settings.nameSeparator (inside i))
    (h : Node.readItems config form path base start found = .ok items) :
    ∃ visits, Covers config form (ReachesItems path inside start found) visits items.flatten := by
  match found, h with
  | [], h =>
    cases h
    exact ⟨[], Covers.nil fun v => not_reachesItems_nil⟩
  | .list nodes :: rest, h =>
    simp only [Node.readItems, Node.bind_eq_ok, Node.after_eq_ok, Node.pure_eq_ok] at h
    obtain ⟨first, hfirst, others, hothers, rfl⟩ := h
    obtain ⟨visits, hcovers⟩ := readAll_covers config form nodes (fun _ => hbase start) hfirst
    obtain ⟨further, hfurther⟩ := readItems_covers config form rest hbase hothers
    refine ⟨_, hcovers.append hfurther (fun v => reachesItems_cons) fun u v hu hv => ?_⟩
    obtain ⟨i, q, -, hq⟩ := hu.path_eq
    obtain ⟨later, r, hlater, hr⟩ := hv.path_eq
    rw [hq, hr, List.append_assoc]
    exact Path.precedes_of_lt hlater
  | .null :: _, h | .bool _ :: _, h | .number _ :: _, h | .string _ :: _, h | .map _ :: _, h =>
    exact absurd h Node.fail_ne_ok
termination_by sizeOf found

end

/-- A form that is not a list has no nodes. -/
theorem readForm_none_covers {state : Data} (h : Node.readForm config form state = none) :
    Covers config form state.Reached [] ([] : List (Node κ)) := by
  refine Covers.nil fun v => ?_
  rintro ⟨found, rfl, -⟩
  cases h

/-- Reading a form that succeeds finds its nodes, in the order of the document. -/
theorem readForm_covers {state : Data} {nodes : List (Node κ)}
    (h : Node.readForm config form state = some (.ok nodes)) :
    ∃ visits, Covers config form state.Reached visits nodes := by
  cases state with
  | list found =>
    have hread := Option.some.inj h
    have hbase : ∀ _ : Nat, none = NamePath.joined config.settings.nameSeparator [] := fun _ => rfl
    obtain ⟨visits, hcovers⟩ := readAll_covers config form found hbase hread
    exact ⟨visits, hcovers.congr fun v => by simp [Data.Reached]⟩
  | _ => simp [Node.readForm] at h

end Reader

end FormTree
