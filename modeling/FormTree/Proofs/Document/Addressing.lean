import FormTree.Proofs.Document.Readdressing

/-!
# Name paths as addresses

The nodes of a scope are what stands in it with no other named node around it; if names are distinct
within each scope and have no dots, then name paths are addresses: a render registers every field
and container under a name of its own, and the name leads back to the node.
-/

namespace FormTree

/-! ## Scopes -/

section Scopes

variable {state : Data} {u w : Visit}

/-- The scope of the root list has the named nodes with no named node around them. -/
theorem inScope_root_iff : InScope state.Reached [] u ↔ state.Reached u ∧ u.kind.Named
    ∧ ¬ ∃ t, state.Reached t ∧ t.kind.Named ∧ t.Encloses u := by
  constructor
  · rintro ⟨hu, hnamed, habove⟩
    refine ⟨hu, hnamed, ?_⟩
    rintro ⟨t, -, htnamed, hencloses⟩
    have hle := (hencloses.segments_isPrefix htnamed).length_le
    simp [habove, Visit.segments] at hle
  · rintro ⟨hu, hnamed, hnone⟩
    refine ⟨hu, hnamed, ?_⟩
    rcases hu.innermost with habove | ⟨t, ht, htnamed, hencloses, -⟩
    · exact habove
    · exact absurd ⟨t, ht, htnamed, hencloses⟩ hnone

/-- The scopes inside a node have the named nodes with no named node between. -/
theorem inScope_inside_iff : (∃ index,
      InScope w.Encloses (w.above ++ w.kind.segmentsInside w.name index) u)
    ↔ w.Encloses u ∧ u.kind.Named ∧ ¬ ∃ t, w.Encloses t ∧ t.kind.Named ∧ t.Encloses u := by
  constructor
  · rintro ⟨index, hu, hnamed, habove⟩
    refine ⟨hu, hnamed, ?_⟩
    rintro ⟨t, ht, htnamed, hencloses⟩
    -- `t` has a segment more above its contents than `w`
    obtain ⟨other, hpre⟩ := ht.above_isPrefix
    have hle := hpre.length_le
    have hle' := (hencloses.segments_isPrefix htnamed).length_le
    simp only [habove, Visit.segments, List.length_append, List.length_singleton,
      Kind.length_segmentsInside w.kind w.name w.name index other] at hle hle'
    omega
  · rintro ⟨hu, hnamed, hnone⟩
    obtain ⟨t, ht, htnamed, ⟨index, habove⟩, rfl | hencloses⟩ := hu.outermost hnamed
    · exact ⟨index, hu, hnamed, habove⟩
    · exact absurd ⟨t, ht, htnamed, hencloses⟩ hnone

end Scopes

/-! ## Addresses -/

section Addresses

variable {σ κ ρ : Type} {config : Config κ} {form : FormId} {state : Data}

instance (kind : Kind) : Decidable kind.Addressable :=
  inferInstanceAs (Decidable (_ ∨ _))

/-- The name path of a node leads to the handle of the node, of the sort that the node has. -/
structure Directory.LeadsTo (directory : Directory κ) (form : FormId) (separator : String)
    (v : Visit) : Prop where
  field : v.kind = .field → ∃ handle, directory.field (v.namePath separator) = .ok handle
    ∧ handle.form = form ∧ handle.path = v.path ∧ handle.namePath = v.namePath separator
  container : ∀ container : Container, v.kind = container.kind → ∃ handle,
    directory.container container (v.namePath separator) = .ok handle
      ∧ handle.form = form ∧ handle.path = v.path ∧ handle.namePath = v.namePath separator

/-- The fields and containers of a state are addressed by their name paths. -/
structure Directory.Addresses (directory : Directory κ) (form : FormId) (separator : String)
    (state : Data) : Prop where
  /-- Distinct nodes have distinct name paths. -/
  apart : ∀ u v, state.Reached u → u.kind.Addressable → state.Reached v → v.kind.Addressable →
    u ≠ v → u.namePath separator ≠ v.namePath separator
  /-- There is one entry for each node, under its name path. -/
  names : ∃ visits, Itinerary state visits ∧ directory.names
    = (visits.filter fun v => v.kind.Addressable).map (Visit.namePath separator)
  nodup : directory.names.Nodup
  /-- Every entry belongs to the node at its path. -/
  entries : ∀ name entry, (name, entry) ∈ directory.entries →
    ∃ v, state.Reached v ∧ v.kind.Addressable ∧ name = v.namePath separator ∧ entry.path = v.path
  leads : ∀ v, state.Reached v → v.kind.Addressable → directory.LeadsTo form separator v

section

variable {directory : Directory κ} {visits : List Visit} {v : Visit}

/-- The handle that a node is registered with leads to the node. -/
theorem Directory.LeadsTo.of_get? {entry : Entry κ}
    (hget : directory.get? (v.namePath config.settings.nameSeparator) = some entry)
    (hentry : v.entry? config form = some entry) :
    directory.LeadsTo form config.settings.nameSeparator v where
  field hkind := by
    simp only [Visit.entry?, hkind] at hentry
    cases hentry
    exact ⟨_, by rw [Directory.field, Directory.entry, hget], rfl, rfl, rfl⟩
  container container hkind := by
    cases container <;>
    · simp only [Visit.entry?, hkind] at hentry
      cases hentry
      exact ⟨_, by rw [Directory.container, Directory.entry, hget]; rfl, rfl, rfl, rfl⟩

theorem filterMap_registered_names (config : Config κ) (form : FormId) (visits : List Visit) :
    (visits.filterMap (Visit.registered config form)).map Prod.fst
      = (visits.filter fun v => v.kind.Addressable).map
        (Visit.namePath config.settings.nameSeparator) := by
  induction visits with
  | nil => rfl
  | cons v rest ih =>
    have haddressable : (v.registered config form).isSome ↔ v.kind.Addressable :=
      v.registered_isSome
    rw [List.filterMap_cons, List.filter_cons]
    cases hregistered : v.registered config form with
    | none =>
      rw [hregistered] at haddressable
      rw [if_neg (by simpa using haddressable)]
      exact ih
    | some found =>
      have hname : found.1 = v.namePath config.settings.nameSeparator :=
        (Visit.of_registered hregistered).1
      rw [hregistered] at haddressable
      rw [if_pos (by simpa using haddressable), List.map_cons, List.map_cons, ih, hname]

/-- Where no two named nodes have the same name path, a directory that lists the nodes addresses
them. -/
theorem Directory.Lists.addresses (h : Lists config form state visits directory)
    (hnames : state.Unambiguous config.settings.nameSeparator) :
    directory.Addresses form config.settings.nameSeparator state := by
  have hapart : ∀ u v, state.Reached u → u.kind.Addressable → state.Reached v →
      v.kind.Addressable → u ≠ v → u.namePath config.settings.nameSeparator
        ≠ v.namePath config.settings.nameSeparator := fun u v hu hukind hv hvkind hne heq =>
    hne (hnames u v hu hukind.named hv hvkind.named heq)
  have hnodup : ((visits.filterMap (Visit.registered config form)).map Prod.fst).Nodup := by
    rw [filterMap_registered_names, List.nodup_iff_pairwise_ne, List.pairwise_map]
    refine (h.itinerary.ordered.filter _).imp_of_mem ?_
    intro u v hu hv hprecedes
    obtain ⟨hu, hukind⟩ := List.mem_filter.1 hu
    obtain ⟨hv, hvkind⟩ := List.mem_filter.1 hv
    refine hapart u v ((h.itinerary.mem u).1 hu) (of_decide_eq_true hukind)
      ((h.itinerary.mem v).1 hv) (of_decide_eq_true hvkind) ?_
    rintro rfl
    exact Path.not_precedes_self _ hprecedes
  have hentries : directory.entries = visits.filterMap (Visit.registered config form) := by
    rw [h.eq, entries_ofList hnodup]
  refine ⟨hapart, ⟨visits, h.itinerary, ?_⟩, ?_, fun name entry hentry => ?_, fun v hv hkind => ?_⟩
  · rw [Directory.names, hentries, filterMap_registered_names]
  · rw [Directory.names, hentries]
    exact hnodup
  · rw [hentries] at hentry
    obtain ⟨v, hv, hregistered⟩ := List.mem_filterMap.1 hentry
    obtain ⟨hname, hpath, -⟩ := Visit.of_registered hregistered
    exact ⟨v, (h.itinerary.mem v).1 hv, v.registered_isSome.1 (by rw [hregistered]; rfl), hname,
      hpath⟩
  · obtain ⟨entry, hregistered⟩ := Visit.exists_registered.2 ⟨hkind, rfl⟩
    obtain ⟨found, hfound, hpair⟩ := Option.map_eq_some_iff.1 hregistered
    obtain rfl := (Prod.mk.inj hpair).2
    exact .of_get? ((h.get?_iff hnames).2 ⟨v, hv, hregistered⟩) hfound

end

/-- A render with the default separator that succeeds on a form whose names have no dots and are
distinct within each scope addresses every field and container of the form by its name path. -/
theorem render_addresses {host : Host σ κ} {fuel : Nat} {r : Node.Renderer (Program σ κ) κ ρ}
    {f f' : Form κ} {rendered : Rendered ρ} {w w' : World σ κ} {live : LiveForm κ}
    (hdot : config.settings.nameSeparator = ".")
    (hrun : (f.render config r).run host fuel w = .ok ((f', .ok rendered), w'))
    (hlive : w.form? f.id = some live) (hnames : WellNamed live.store.state) :
    f'.directory.Addresses f.id "." live.store.state := by
  obtain ⟨found, hfound, -, hread⟩ := Form.read?_of_render hrun
  obtain rfl := Option.some.inj (hlive.symm.trans hfound)
  obtain ⟨visits, hlists⟩ := Directory.lists_of_read? hread
  have haddresses := hlists.addresses (hdot ▸ hnames.unambiguous)
  rwa [hdot] at haddresses

end Addresses

/-! ## Names that look like indices -/

namespace Alike

open Nested

/-- The definition of a container with a field of its own name in each of two items. -/
def items : List Data :=
  [.string "0", .string "default", .null, .null, .null, .list [.list [field "0"], .list [field "0"]]]

/-- The definition of a node around the container. -/
def outer : List Data :=
  [.string "a", .string "default", .null, .null, .list [.list [.string "many", .list items]]]

/-- The outer node, and a field beside it that is called like the nodes inside. -/
def state : Data := .list [.list [.string "attr", .list outer], field "0"]

/-- The form alone. -/
def start : World Nat Unit :=
  .start #[{ store := .create state .queue false, channels := .unwired, profile := {} }] 0

/-- The paths of the nodes, with what stands above their names. -/
def places : List (Path × List String × String) :=
  [([0, 1], [], "a"), ([0, 1, 4, 0, 1], ["a"], "0"), ([0, 1, 4, 0, 1, 5, 0, 0, 1], ["a", "0", "0"], "0"),
    ([0, 1, 4, 0, 1, 5, 1, 0, 1], ["a", "0", "1"], "0"), ([1, 1], [], "0")]

theorem mem_places {v : Visit} (h : state.Reached v) : (v.path, v.above, v.name) ∈ places := by
  obtain ⟨_, ⟨⟩, h⟩ := h
  rcases reachesAll_cons.1 h with hattr | hfield
  · have hnode : (Data.list [.string "attr", .list outer]).IsNode .attr outer := ⟨rfl, rfl⟩
    rcases (reaches_iff hnode).1 hattr with rfl | ⟨_, ⟨⟩, _, ⟨⟩, hinside⟩ | ⟨_, ⟨⟩, -⟩
    · exact .head _
    · have hmany := reachesAll_singleton.1 hinside
      have hnode : (Data.list [.string "many", .list items]).IsNode .many items := ⟨rfl, rfl⟩
      rcases (reaches_iff hnode).1 hmany with rfl | ⟨_, ⟨⟩, -⟩ | ⟨_, ⟨⟩, _, ⟨⟩, hitems⟩
      · exact .tail _ (.head _)
      · rcases reachesItems_cons.1 hitems with hfirst | hitems
        · obtain rfl := Reaches.eq_field ⟨rfl, rfl⟩ (reachesAll_singleton.1 hfirst)
          decide
        · rcases reachesItems_cons.1 hitems with hsecond | hnone
          · obtain rfl := Reaches.eq_field ⟨rfl, rfl⟩ (reachesAll_singleton.1 hsecond)
            decide
          · exact absurd hnone not_reachesItems_nil
  · obtain rfl := Reaches.eq_field ⟨rfl, rfl⟩ (reachesAll_singleton.1 hfield)
    decide

theorem wellNamed_state : WellNamed state :=
  .of_places (fun _ => mem_places) (by unfold Dotless; decide) (by decide)

/-- The names and paths of the directory after a render. -/
def found : List (String × Path) :=
  [("a.0.0.0", [0, 1, 4, 0, 1, 5, 0, 0, 1]), ("a.0.1.0", [0, 1, 4, 0, 1, 5, 1, 0, 1]),
    ("a.0", [0, 1, 4, 0, 1]), ("0", [1, 1])]

/-- Whether a render succeeds with this directory. -/
def rendersFound : Bool :=
  match (Form.render config renderer ⟨0, .empty⟩).run callbacks 3 start with
  | .ok ((f', .ok _), _) =>
    decide (f'.directory.entries.map (fun entry => (entry.1, entry.2.path)) = found)
  | _ => false

end Alike

open Nested (config renderer callbacks) in
open Alike in
theorem render_addresses_alike : ∃ f' rendered w',
    config.settings.nameSeparator = "."
      ∧ (Form.render config renderer ⟨0, .empty⟩).run callbacks 3 start = .ok ((f', .ok rendered), w')
      ∧ WellNamed state ∧ f'.directory.Addresses 0 "." state
      ∧ f'.directory.entries.map (fun entry => (entry.1, entry.2.path)) = found := by
  have hcheck : rendersFound = true := by decide +kernel
  unfold rendersFound at hcheck
  split at hcheck
  · next f' rendered w' hrun =>
    exact ⟨f', rendered, w', rfl, hrun, wellNamed_state, render_addresses rfl hrun rfl wellNamed_state,
      of_decide_eq_true hcheck⟩
  · cases hcheck

end FormTree
