import FormTree.Proofs.Document.Reach

/-!
# What visits to nodes say

The visit to a node determines what a reader makes of it: the entry under which the node is
registered, and what its render handler is given.  `Covers` relates the visits to what is reached in a
part of a document to the nodes that were read there; its lemmas put parts together.
-/

namespace FormTree

variable {κ : Type}

/-! ## Name paths -/

namespace NamePath

/-- The name path above a node; nothing stands above the first segment. -/
def joined (separator : String) : List String → Option String
  | [] => none
  | segment :: rest => some (separator.intercalate (segment :: rest))

theorem append_joined (separator : String) (above : List String) (segment : String) :
    append separator (joined separator above) segment
      = separator.intercalate (above ++ [segment]) := by
  cases above with
  | nil => simp [joined]
  | cons first rest =>
    have hsplit := String.intercalate_append_of_ne_nil (s := separator)
      (List.cons_ne_nil first rest) (List.cons_ne_nil segment [])
    rw [hsplit, joined, append_some, String.intercalate_singleton]

theorem joined_append_singleton (separator : String) (above : List String) (segment : String) :
    joined separator (above ++ [segment]) = some (separator.intercalate (above ++ [segment])) := by
  cases above <;> rfl

end NamePath

/-! ## What a visit says -/

/-- A call of a render handler: what the handler is given, besides what came out for the nodes
inside. -/
inductive Handed (κ : Type) where
  | field (node : FieldNode κ)
  | attr (node : AttrNode)
  | block (kind : Kind) (node : BlockNode)
  | many (node : ContainerNode κ)
  | childForms (node : ContainerNode κ)

mutual

/-- The calls of render handlers for a node and everything inside it. -/
def Node.handed : Node κ → List (Handed κ)
  | .field node => [.field node]
  | .attr node children => Node.handedAll children ++ [.attr node]
  | .block kind node children => Node.handedAll children ++ [.block kind node]
  | .many node items => Node.handedItems items ++ [.many node]
  | .childForms node items => Node.handedAll items ++ [.childForms node]
  | .blank _ => []

/-- The calls of render handlers for a list of nodes. -/
def Node.handedAll : List (Node κ) → List (Handed κ)
  | [] => []
  | node :: rest => node.handed ++ Node.handedAll rest

/-- The calls of render handlers for the items of a `many` container. -/
def Node.handedItems : List (List (Node κ)) → List (Handed κ)
  | [] => []
  | nodes :: rest => Node.handedAll nodes ++ Node.handedItems rest

end

/-- The kinds of nodes that must have a name. -/
def Kind.Named : Kind → Prop
  | .field | .attr | .many | .manyChildForms => True
  | .compoundField | .sect | .group | .childForm => False

namespace Visit

/-- The validation rules of the node. -/
def rules (v : Visit) : Option Attribute :=
  match Node.attributesOf v.kind v.definition with
  | .ok attributes => attributes.get? "validation"
  | .error _ => none

/-- The node is a section or group with nothing inside. -/
def Blank (v : Visit) : Prop :=
  (v.kind = .sect ∨ v.kind = .group) ∧ (slotAt v.definition v.kind.insideAt).items = []

instance (v : Visit) : Decidable v.Blank :=
  inferInstanceAs (Decidable (_ ∧ _))

variable (config : Config κ) (form : FormId)

/-- Where the reader stands at the node. -/
def place (v : Visit) : Node.Place κ := ⟨config, form, v.path⟩

/-- The entry under which the node is registered, if it can be addressed. -/
def entry? (v : Visit) : Option (Entry κ) :=
  let namePath := v.namePath config.settings.nameSeparator
  let validator := config.validatorOf v.rules
  match v.kind with
  | .field => some (.field ⟨form, v.path, namePath, validator⟩)
  | .many => some (.container ⟨form, .many, v.path, namePath, validator⟩)
  | .manyChildForms => some (.container ⟨form, .childForms, v.path, namePath, validator⟩)
  | .attr | .compoundField | .sect | .group | .childForm => none

/-- The name path and entry under which the node is registered, if it can be addressed. -/
def registered (v : Visit) : Option (String × Entry κ) :=
  (v.entry? config form).map fun entry => (v.namePath config.settings.nameSeparator, entry)

/-- The call of the render handler for the node; there is none for a blank node. -/
def handed? (v : Visit) : Option (Handed κ) :=
  let separator := config.settings.nameSeparator
  let place := v.place config form
  match v.kind with
  | .field => (Node.ofField place (NamePath.joined separator v.above) v.definition).toOption.map .field
  | .attr => (Node.ofAttr place v.name (v.namePath separator) v.definition).toOption.map .attr
  | .many =>
    (Node.ofContainer place .many v.name (v.namePath separator) v.definition).toOption.map .many
  | .manyChildForms =>
    (Node.ofContainer place .childForms v.name (v.namePath separator) v.definition).toOption.map
      .childForms
  | .compoundField | .sect | .group | .childForm =>
    if v.Blank then none else (Node.ofBlock place v.kind v.definition).toOption.map (.block v.kind)

/-- The node has a name if it needs one, and there is a call of its render handler unless it is
blank. -/
structure Complete (v : Visit) : Prop where
  named : v.kind.Named → v.definition[Kind.nameAt]? = some (.string v.name) ∧ v.name ≠ ""
  handed : (v.handed? config form).isSome ↔ ¬ v.Blank

end Visit

/-! ## Covering a part of a document -/

variable {config : Config κ} {form : FormId}

/-- The visits to what is reached in a part of a document, in order, and nodes with the entries and
the calls of render handlers that belong to these visits. -/
structure Covers (config : Config κ) (form : FormId) (reach : Visit → Prop) (visits : List Visit)
    (nodes : List (Node κ)) : Prop where
  mem : ∀ v, v ∈ visits ↔ reach v
  ordered : visits.Pairwise fun u v => u.path.Precedes v.path
  entries : Node.entriesAll nodes = visits.filterMap (Visit.registered config form)
  handed : Node.handedAll nodes = visits.filterMap (Visit.handed? config form)
  complete : ∀ v ∈ visits, v.Complete config form

theorem Node.entriesAll_append (nodes others : List (Node κ)) :
    Node.entriesAll (nodes ++ others) = Node.entriesAll nodes ++ Node.entriesAll others := by
  induction nodes with
  | nil => rfl
  | cons node rest ih => simp [Node.entriesAll, ih]

theorem Node.entriesItems_eq (items : List (List (Node κ))) :
    Node.entriesItems items = Node.entriesAll items.flatten := by
  induction items with
  | nil => rfl
  | cons nodes rest ih => rw [Node.entriesItems, ih, List.flatten_cons, Node.entriesAll_append]

theorem Node.handedAll_append (nodes others : List (Node κ)) :
    Node.handedAll (nodes ++ others) = Node.handedAll nodes ++ Node.handedAll others := by
  induction nodes with
  | nil => rfl
  | cons node rest ih => simp [Node.handedAll, ih]

theorem Node.handedItems_eq (items : List (List (Node κ))) :
    Node.handedItems items = Node.handedAll items.flatten := by
  induction items with
  | nil => rfl
  | cons nodes rest ih => rw [Node.handedItems, ih, List.flatten_cons, Node.handedAll_append]

namespace Covers

variable {reach first rest inside : Visit → Prop} {visits others : List Visit}
  {nodes further : List (Node κ)} {node : Node κ}

theorem congr (h : Covers config form reach visits nodes) (hsame : ∀ v, inside v ↔ reach v) :
    Covers config form inside visits nodes :=
  { h with mem := fun v => (h.mem v).trans (hsame v).symm }

theorem nil (hnone : ∀ v, ¬ reach v) : Covers config form reach [] [] where
  mem v := ⟨fun h => absurd h List.not_mem_nil, fun h => absurd h (hnone v)⟩
  ordered := .nil
  entries := rfl
  handed := rfl
  complete _ h := absurd h List.not_mem_nil

/-- One part after another. -/
theorem append (h : Covers config form first visits nodes)
    (h' : Covers config form rest others further)
    (hreach : ∀ v, reach v ↔ first v ∨ rest v)
    (horder : ∀ u v, first u → rest v → u.path.Precedes v.path) :
    Covers config form reach (visits ++ others) (nodes ++ further) where
  mem v := by rw [List.mem_append, h.mem, h'.mem, hreach]
  ordered := List.pairwise_append.2 ⟨h.ordered, h'.ordered, fun u hu v hv =>
    horder u v ((h.mem u).1 hu) ((h'.mem v).1 hv)⟩
  entries := by rw [Node.entriesAll_append, h.entries, h'.entries, List.filterMap_append]
  handed := by rw [Node.handedAll_append, h.handed, h'.handed, List.filterMap_append]
  complete v hv := (List.mem_append.1 hv).elim (h.complete v) (h'.complete v)

/-- A node after everything inside it. -/
theorem around {d : Data} {p : Path} {above : List String} {kind : Kind} {definition : List Data}
    (hnode : d.IsNode kind definition)
    (h : Covers config form (ReachesInside (p ++ [1]) above kind definition) visits nodes)
    (hentries : node.entries = Node.entriesAll nodes
      ++ ((⟨p ++ [1], above, kind, definition⟩ : Visit).registered config form).toList)
    (hhanded : node.handed = Node.handedAll nodes
      ++ ((⟨p ++ [1], above, kind, definition⟩ : Visit).handed? config form).toList)
    (hself : (⟨p ++ [1], above, kind, definition⟩ : Visit).Complete config form) :
    Covers config form (Reaches p above d) (visits ++ [⟨p ++ [1], above, kind, definition⟩])
      [node] where
  mem v := by rw [List.mem_append, h.mem, List.mem_singleton, reaches_iff hnode, or_comm]
  ordered := by
    refine List.pairwise_append.2 ⟨h.ordered, List.pairwise_singleton .., fun u hu v hv => ?_⟩
    obtain rfl := List.mem_singleton.1 hv
    obtain ⟨slot, q, hq⟩ := ((h.mem u).1 hu).path_eq
    rw [hq]
    exact Path.precedes_outer
  entries := by
    rw [Node.entriesAll, Node.entriesAll, List.append_nil, hentries, h.entries,
      List.filterMap_append, List.filterMap_cons]
    cases Visit.registered config form ⟨p ++ [1], above, kind, definition⟩ <;> rfl
  handed := by
    rw [Node.handedAll, Node.handedAll, List.append_nil, hhanded, h.handed, List.filterMap_append,
      List.filterMap_cons]
    cases Visit.handed? config form ⟨p ++ [1], above, kind, definition⟩ <;> rfl
  complete v hv := (List.mem_append.1 hv).elim (h.complete v) fun hv =>
    List.mem_singleton.1 hv ▸ hself

end Covers

end FormTree
