import FormTree.Proofs.Document.Rendering
import FormTree.Proofs.Execution.Passive

/-!
# The directory of a state

A render reads the state of a form and takes over the names that it finds there.  `Directory.read?`
is the directory of a state, if the state can be read; so whether a render succeeds, and with which
names, is a matter of the state alone.  The directory has the fields and containers that are reached
in the state, each under its name path; a name belongs to the last of the nodes that have it.
-/

namespace FormTree

/-- The form that the handle of a node acts on. -/
def Entry.form {κ : Type} : Entry κ → FormId
  | .field handle => handle.form
  | .container handle => handle.form

variable {σ κ ρ : Type} {config : Config κ} {form : FormId} {state : Data} {directory : Directory κ}

/-- The directory of a state, if it can be read; what is not a list has no names. -/
def Directory.read? (config : Config κ) (form : FormId) (state : Data) : Option (Directory κ) :=
  match Node.readForm config form state with
  | none => some .empty
  | some (.error _) => none
  | some (.ok nodes) => some (.ofList (Node.entriesAll nodes))

/-- The directory lists what is registered at the nodes of the state, in their order. -/
structure Directory.Lists (config : Config κ) (form : FormId) (state : Data) (visits : List Visit)
    (directory : Directory κ) : Prop where
  itinerary : Itinerary state visits
  eq : directory = .ofList (visits.filterMap (Visit.registered config form))

namespace Directory

variable {visits : List Visit} {name : String} {entry : Entry κ} {v : Visit}

theorem get?_of_field {handle : FieldHandle κ} (h : directory.field name = .ok handle) :
    directory.get? name = some (.field handle) := by
  unfold Directory.field Directory.entry at h
  cases hget : directory.get? name with
  | none => simp [hget] at h
  | some found => cases found <;> simp_all

theorem get?_of_container {sort : Container} {handle : ContainerHandle κ}
    (h : directory.container sort name = .ok handle) :
    directory.get? name = some (.container handle) := by
  unfold Directory.container Directory.entry at h
  cases hget : directory.get? name with
  | none => simp [hget] at h
  | some found =>
    cases found with
    | field => simp [hget] at h
    | container found =>
      simp only [hget] at h
      split at h
      · rw [Except.ok.inj h]
      · cases h

/-- The directory that a state is read to lists the nodes of the state. -/
theorem lists_of_read? (h : read? config form state = some directory) :
    ∃ visits, Lists config form state visits directory := by
  unfold read? at h
  split at h
  · next hnone =>
    cases h
    have hcovers := readForm_none_covers hnone
    exact ⟨[], ⟨hcovers.mem, hcovers.ordered⟩, rfl⟩
  · cases h
  · next nodes hnodes =>
    cases h
    obtain ⟨visits, hcovers⟩ := readForm_covers hnodes
    exact ⟨visits, ⟨hcovers.mem, hcovers.ordered⟩, by rw [hcovers.entries]⟩

/-- A state in which a node is reached was read without fault. -/
theorem readForm_of_read? (h : read? config form state = some directory) (hv : state.Reached v) :
    ∃ nodes, Node.readForm config form state = some (.ok nodes) := by
  unfold read? at h
  split at h
  · next hnone => exact absurd (((readForm_none_covers hnone).mem v).2 hv) List.not_mem_nil
  · cases h
  · next nodes hnodes => exact ⟨nodes, hnodes⟩

/-- The directory of what can be read. -/
theorem read?_of_readForm {nodes : List (Node κ)}
    (h : Node.readForm config form state = some (.ok nodes)) :
    read? config form state = some (.ofList (Node.entriesAll nodes)) := by
  rw [read?, h]

/-- What can be read has a directory. -/
theorem exists_read? {nodes : List (Node κ)}
    (h : Node.readForm config form state = some (.ok nodes)) :
    ∃ directory, read? config form state = some directory :=
  ⟨_, read?_of_readForm h⟩

namespace Lists

/-- Whoever is registered under a name is a node of the state. -/
theorem of_get? (h : Lists config form state visits directory)
    (hget : directory.get? name = some entry) :
    ∃ v, state.Reached v ∧ v.registered config form = some (name, entry) := by
  rw [h.eq, get?_ofList, List.lookup_eq_some_iff] at hget
  obtain ⟨before, behind, hsplit, -⟩ := hget
  have hmem : (name, entry) ∈ visits.filterMap (Visit.registered config form) := by
    rw [← List.mem_reverse, hsplit]
    simp
  obtain ⟨v, hv, hregistered⟩ := List.mem_filterMap.1 hmem
  exact ⟨v, (h.itinerary.mem v).1 hv, hregistered⟩

/-- Every node of the state that can be addressed has its name in the directory. -/
theorem get?_isSome (h : Lists config form state visits directory) (hv : state.Reached v)
    (hregistered : v.registered config form = some (name, entry)) :
    (directory.get? name).isSome := by
  rw [h.eq, get?_ofList, List.lookup_isSome_iff]
  refine ⟨(name, entry), ?_, beq_self_eq_true _⟩
  exact List.mem_reverse.2 (List.mem_filterMap.2 ⟨v, (h.itinerary.mem v).2 hv, hregistered⟩)

/-- A name belongs to the only node that has it. -/
theorem get?_of_unique (h : Lists config form state visits directory) (hv : state.Reached v)
    (hregistered : v.registered config form = some (name, entry))
    (hunique : ∀ u found, state.Reached u → u.registered config form = some (name, found) → u = v) :
    directory.get? name = some entry := by
  obtain ⟨found, hfound⟩ := Option.isSome_iff_exists.1 (h.get?_isSome hv hregistered)
  obtain ⟨u, hu, hu'⟩ := h.of_get? hfound
  obtain rfl := hunique u found hu hu'
  rw [hfound, (Prod.mk.inj (Option.some.inj (hu'.symm.trans hregistered))).2]

end Lists

end Directory

/-- No two named nodes of a state have the same name path. -/
def Data.Unambiguous (separator : String) (state : Data) : Prop :=
  ∀ u v, state.Reached u → u.kind.Named → state.Reached v → v.kind.Named →
    u.namePath separator = v.namePath separator → u = v

/-- In a state where names are not ambiguous, a name belongs to a node exactly if the node is
registered under it. -/
theorem Directory.Lists.get?_iff {visits : List Visit} {name : String} {entry : Entry κ}
    (h : Lists config form state visits directory)
    (hnames : state.Unambiguous config.settings.nameSeparator) :
    directory.get? name = some entry
      ↔ ∃ v, state.Reached v ∧ v.registered config form = some (name, entry) := by
  refine ⟨h.of_get?, fun ⟨v, hv, hregistered⟩ => h.get?_of_unique hv hregistered ?_⟩
  intro u found hu hregistered'
  obtain ⟨hname, -, -, hnamed⟩ := Visit.of_registered hregistered
  obtain ⟨hname', -, -, hnamed'⟩ := Visit.of_registered hregistered'
  exact hnames u v hu hnamed' hv hnamed (hname'.symm.trans hname)

/-! ## Handles -/

theorem Visit.form_of_registered {v : Visit} {name : String} {entry : Entry κ}
    (h : v.registered config form = some (name, entry)) : entry.form = form := by
  obtain ⟨found, hfound, hpair⟩ := Option.map_eq_some_iff.1 h
  obtain ⟨-, rfl⟩ := Prod.mk.inj hpair
  unfold Visit.entry? at hfound
  cases hkind : v.kind <;> rw [hkind] at hfound <;> cases hfound <;> rfl

/-- A field handle of a directory that was read has its name. -/
theorem Directory.namePath_of_read? {name : String} {h : FieldHandle κ}
    (hread : read? config form state = some directory)
    (hname : directory.get? name = some (.field h)) : h.namePath = name := by
  obtain ⟨_, hlists⟩ := lists_of_read? hread
  obtain ⟨v, -, hregistered⟩ := hlists.of_get? hname
  obtain ⟨found, hfound, hpair⟩ := Option.map_eq_some_iff.1 hregistered
  obtain ⟨rfl, rfl⟩ := Prod.mk.inj hpair
  unfold Visit.entry? at hfound
  cases hkind : v.kind <;> rw [hkind] at hfound <;> cases hfound
  rfl

/-! ## Values -/

section Values

variable {f : Form κ} {h : FieldHandle κ} {name : String} {entry : Entry κ} {definition : List Data}
  {v : Visit}

theorem Form.valueIn_of_node? (hname : f.directory.get? name = some (.field h))
    (hdefinition : state.node? h.path = some (.list definition)) :
    f.valueIn state name = .ok (slotAt definition Kind.valueAt).toJson := by
  have hslot : state.node? (h.path ++ [Kind.valueAt]) = definition[Kind.valueAt]? :=
    Data.node?_concat hdefinition Kind.valueAt
  rw [Form.valueIn, Directory.entry, hname]
  change Except.ok (((state.node? (h.path ++ [Kind.valueAt])).map Data.toJson).getD .null) = _
  rw [hslot, slotAt, List.getD_eq_getElem?_getD]
  cases definition[Kind.valueAt]? <;> rfl

/-- The value of a field, or the items of a container. -/
def Visit.value (v : Visit) : Json :=
  match v.kind with
  | .field => (slotAt v.definition Kind.valueAt).toJson
  | kind => Data.itemsJson v.definition[kind.insideAt]?

/-- A name leads to the value of the node that it belongs to. -/
theorem Form.valueIn_of_registered (hname : f.directory.get? name = some entry)
    (hregistered : v.registered config form = some (name, entry))
    (hdefinition : state.node? v.path = some (.list v.definition)) :
    f.valueIn state name = .ok v.value := by
  obtain ⟨-, hpath, hkind, -⟩ := Visit.of_registered hregistered
  rw [← hpath] at hdefinition
  cases entry with
  | field handle =>
    rw [Form.valueIn_of_node? hname hdefinition, Visit.value, ← hkind]
    rfl
  | container handle =>
    rw [Form.valueIn, Directory.entry, hname]
    change handle.itemsIn state = _
    rw [ContainerHandle.itemsIn, locate, show state.node? handle.path = _ from hdefinition,
      Visit.value, ← hkind]
    cases hcontainer : handle.container <;> simp [Entry.kind, hcontainer, Except.map] <;> rfl

theorem Visit.exists_registered : (∃ entry, v.registered config form = some (name, entry))
    ↔ v.kind.Addressable ∧ v.namePath config.settings.nameSeparator = name := by
  have hentry : (v.entry? config form).isSome ↔ v.kind.Addressable := by
    rw [← Visit.registered_isSome, registered, Option.isSome_map]
  rw [← hentry, registered]
  cases v.entry? config form <;> simp

/-- In a state where names are not ambiguous, a name has a value exactly if it belongs to a node with
this value. -/
theorem Directory.Lists.valueIn_iff {visits : List Visit} {value : Json}
    (h : Lists config form state visits f.directory)
    (hnames : state.Unambiguous config.settings.nameSeparator) :
    f.valueIn state name = .ok value ↔ ∃ v, state.Reached v ∧ v.kind.Addressable
      ∧ v.namePath config.settings.nameSeparator = name ∧ v.value = value := by
  have hvalue : ∀ {v : Visit} {entry : Entry κ}, state.Reached v →
      v.registered config form = some (name, entry) → f.valueIn state name = .ok v.value :=
    fun hv hregistered => Form.valueIn_of_registered ((h.get?_iff hnames).2 ⟨_, hv, hregistered⟩)
      hregistered hv.stands.definition
  constructor
  · intro hok
    cases hget : f.directory.get? name with
    | none =>
      rw [Form.valueIn, Directory.entry, hget] at hok
      cases hok
    | some entry =>
      obtain ⟨v, hv, hregistered⟩ := h.of_get? hget
      obtain ⟨haddressable, hname⟩ := Visit.exists_registered.1 ⟨entry, hregistered⟩
      exact ⟨v, hv, haddressable, hname, Except.ok.inj ((hvalue hv hregistered).symm.trans hok)⟩
  · rintro ⟨v, hv, haddressable, hname, rfl⟩
    obtain ⟨entry, hregistered⟩ := Visit.exists_registered.2 ⟨haddressable, hname⟩
    exact hvalue hv hregistered

/-- In a state where names are not ambiguous, every name has a value. -/
theorem Directory.Lists.contains_iff {visits : List Visit}
    (h : Lists config form state visits f.directory)
    (hnames : state.Unambiguous config.settings.nameSeparator) :
    f.directory.contains name = true ↔ ∃ value, f.valueIn state name = .ok value := by
  rw [contains, Option.isSome_iff_exists]
  simp only [h.get?_iff hnames, h.valueIn_iff hnames]
  constructor
  · rintro ⟨entry, v, hv, hregistered⟩
    obtain ⟨haddressable, hname⟩ := Visit.exists_registered.1 ⟨entry, hregistered⟩
    exact ⟨v.value, v, hv, haddressable, hname, rfl⟩
  · rintro ⟨_, v, hv, haddressable, hname, -⟩
    obtain ⟨entry, hregistered⟩ := Visit.exists_registered.2 ⟨haddressable, hname⟩
    exact ⟨entry, v, hv, hregistered⟩

end Values

/-! ## Renders that succeed -/

/-- What the render handlers give for the nodes of a form. -/
def Form.outputs (config : Config κ) (r : Node.Renderer (Program σ κ) κ ρ) (f : Form κ) :
    Program σ κ (Rendered ρ) := do
  match Node.readForm config f.id (← Program.look f.id).state with
  | some (.ok nodes) => return .nodes (← Node.renderAll r nodes)
  | _ => return .notATree

/-- A render of the form in this world calls the render handlers and does nothing else, and it
succeeds with this directory. -/
def Form.RendersTo (config : Config κ) (host : Host σ κ) (f : Form κ) (w : World σ κ)
    (directory : Directory κ) : Prop :=
  ∀ {ρ : Type} (r : Node.Renderer (Program σ κ) κ ρ) (fuel : Nat), (f.render config r).run host fuel w
    = ((fun rendered => ({ f with directory := directory }, .ok rendered)) <$> f.outputs config r :
      Program σ κ (Form κ × Except Fault (Rendered ρ))).run host fuel w

/-- The form is at rest, and its directory is that of its state. -/
structure Form.Current (config : Config κ) (f : Form κ) (w : World σ κ) (live : LiveForm κ) :
    Prop where
  found : w.form? f.id = some live
  atRest : live.store.AtRest
  read : Directory.read? config f.id live.store.state = some f.directory

section

variable {host : Host σ κ} {fuel : Nat} {f f' : Form κ} {w w' : World σ κ} {live : LiveForm κ}

/-- The handles of a current form act on it. -/
theorem Form.Current.form_eq {name : String} {entry : Entry κ} (h : f.Current config w live)
    (hname : f.directory.get? name = some entry) : entry.form = f.id := by
  obtain ⟨_, hlists⟩ := Directory.lists_of_read? h.read
  obtain ⟨v, -, hregistered⟩ := hlists.of_get? hname
  exact Visit.form_of_registered hregistered

/-- Two programs that look at a form and go on in the same way do the same. -/
theorem Program.run_look_bind {α : Type} {next other : StoreView → Program σ κ α}
    (hlive : w.form? form = some live) (h : next live.store.view = other live.store.view) :
    (look form >>= next).run host fuel w = (look form >>= other).run host fuel w := by
  cases fuel with
  | zero => rfl
  | succ fuel =>
    have hlook : (look form).run host (fuel + 1) w
        = .ok (live.store.view, w.note (.looked form live.store.view)) :=
      (congrFun (run_call (.look form)) w).trans (Run.perform_look hlive)
    rw [run_bind, run_bind, Run.bind_of_ok hlook, Run.bind_of_ok hlook, h]

/-- Whether a render succeeds is a matter of the state. -/
theorem Form.rendersTo_of_read? {directory : Directory κ} (hlive : w.form? f.id = some live)
    (hread : Directory.read? config f.id live.store.state = some directory) :
    f.RendersTo config host w directory := by
  intro ρ r fuel
  unfold Form.render Form.outputs
  simp only [map_bind]
  refine Program.run_look_bind hlive ?_
  change Directory.read? config f.id live.store.view.state = _ at hread
  unfold Directory.read? at hread
  split at hread
  · next hnone =>
    obtain rfl := Option.some.inj hread
    simp [hnone]
  · cases hread
  · next nodes hnodes =>
    obtain rfl := Option.some.inj hread
    simp [hnodes]

/-- A render that succeeds takes over the directory of the state. -/
theorem Form.read?_of_render {r : Node.Renderer (Program σ κ) κ ρ} {rendered : Rendered ρ}
    (hrun : (f.render config r).run host fuel w = .ok ((f', .ok rendered), w')) :
    ∃ live, w.form? f.id = some live ∧ f'.id = f.id
      ∧ Directory.read? config f.id live.store.state = some f'.directory := by
  obtain ⟨view, u, hlook, hrun⟩ := Program.run_bind_eq_ok.1 hrun
  obtain ⟨live, hlive, rfl, rfl⟩ := Program.run_look hlook
  refine ⟨live, hlive, ?_⟩
  change _ ∧ Directory.read? config f.id live.store.view.state = _
  rw [Directory.read?]
  rcases hread : Node.readForm config f.id live.store.view.state with _ | (e | nodes)
  · simp only [hread] at hrun
    obtain ⟨-, hresult, -⟩ := Program.run_done.1 hrun
    obtain ⟨rfl, -⟩ := Prod.mk.inj hresult
    exact ⟨rfl, rfl⟩
  · simp only [hread] at hrun
    obtain ⟨_, _, -, hdone⟩ := Program.run_bind_eq_ok.1 hrun
    obtain ⟨-, hresult, -⟩ := Program.run_done.1 hdone
    cases (Prod.mk.inj hresult).2
  · simp only [hread] at hrun
    obtain ⟨_, _, -, hdone⟩ := Program.run_bind_eq_ok.1 hrun
    obtain ⟨-, hresult, -⟩ := Program.run_done.1 hdone
    obtain ⟨rfl, -⟩ := Prod.mk.inj hresult
    exact ⟨rfl, rfl⟩

/-- A render submits nothing to a form if the render handlers do not. -/
theorem Form.render_passive {r : Node.Renderer (Program σ κ) κ ρ} (f : Form κ)
    (hr : r.Uses (Call.Passive form)) : (f.render config r).Uses (Call.Passive form) := by
  refine (Program.uses_call.2 trivial).bind fun view => ?_
  split
  · exact Program.uses_pure _
  · exact (Node.renderAll_uses hr _).bind fun _ => Program.uses_pure _
  · exact (Node.renderAll_uses hr _).bind fun _ => Program.uses_pure _

/-- After a render that succeeded the form is current, if neither the callbacks nor the render
handlers submit to it. -/
theorem Form.current_of_render {r : Node.Renderer (Program σ κ) κ ρ} {rendered : Rendered ρ}
    (hhost : host.Uses (Call.Passive f.id)) (hr : r.Uses (Call.Passive f.id))
    (hlive : w.form? f.id = some live) (hrest : live.store.AtRest)
    (hrun : (f.render config r).run host fuel w = .ok ((f', .ok rendered), w')) :
    ∃ live', f'.Current config w' live' := by
  obtain ⟨live', hlive', halike, hpending⟩ :=
    Program.run_steady hhost fuel _ (f.render_passive hr) hrun live hlive
  obtain ⟨seen, hseen, hid, hread⟩ := Form.read?_of_render hrun
  obtain rfl := Option.some.inj (hlive.symm.trans hseen)
  refine ⟨live', hid ▸ hlive', ⟨halike.dispatching.trans hrest.dispatching,
    hpending.trans hrest.pending⟩, ?_⟩
  rw [hid, halike.state, hread]

/-- A form that was set up, used in whatever way, and then rendered without fault is current. -/
theorem Form.current_of_created {r : Node.Renderer (Program σ κ) κ ρ} {rendered : Rendered ρ}
    {handlers : List (HostEvent × κ)} {initial : Data} {p : Form κ → Program σ κ (Form κ)}
    (hhost : host.Uses (Call.Passive w.forms.size)) (hr : r.Uses (Call.Passive w.forms.size))
    (hrun : (do (← p (← Form.create config handlers initial)).render config r).run host fuel w
      = .ok ((f', .ok rendered), w')) (hid : f'.id = w.forms.size) :
    ∃ live', f'.Current config w' live' := by
  obtain ⟨f₀, u, hcreate, hrun⟩ := Program.run_bind_eq_ok.1 hrun
  obtain ⟨rfl, live, hlive, hrest, -⟩ := Form.create_atRest hhost hcreate
  obtain ⟨f, v, huse, hrender⟩ := Program.run_bind_eq_ok.1 hrun
  obtain ⟨live', hlive', hrest'⟩ := Program.run_resting hhost fuel _ huse live hlive hrest
  obtain ⟨-, -, hsame, -⟩ := Form.read?_of_render hrender
  have hf : f.id = w.forms.size := hsame.symm.trans hid
  exact Form.current_of_render (hf ▸ hhost) (hf ▸ hr) (hf ▸ hlive') hrest' hrender

/-- A new form that is rendered without fault is current in its initial state. -/
theorem Form.current_of_fresh {r : Node.Renderer (Program σ κ) κ ρ} {rendered : Rendered ρ}
    {handlers : List (HostEvent × κ)} {initial : Data}
    (hhost : host.Uses (Call.Passive w.forms.size)) (hr : r.Uses (Call.Passive w.forms.size))
    (hrun : (do (← pure (← Form.create config handlers initial)).render config r).run host fuel w
      = .ok ((f', .ok rendered), w')) :
    f'.id = w.forms.size ∧ ∃ live', f'.Current config w' live' ∧ live'.store.state = initial := by
  obtain ⟨_, _, hcreate, hrun⟩ := Program.run_bind_eq_ok.1 hrun
  obtain ⟨f, _, hpure, hrender⟩ := Program.run_bind_eq_ok.1 hrun
  obtain ⟨-, rfl, rfl⟩ := Program.run_done.1 hpure
  obtain ⟨rfl, live, hlive, hrest, hstate⟩ := Form.create_atRest hhost hcreate
  obtain ⟨live', hcurrent⟩ := Form.current_of_render hhost hr hlive hrest hrender
  obtain ⟨seen, hseen, halike, -⟩ :=
    Program.run_steady hhost fuel _ (Form.render_passive _ hr) hrender live hlive
  obtain ⟨-, -, hid, -⟩ := Form.read?_of_render hrender
  obtain rfl := Option.some.inj ((hid ▸ hcurrent.found).symm.trans hseen)
  exact ⟨hid, live', hcurrent, halike.state.trans hstate⟩

end

end FormTree
