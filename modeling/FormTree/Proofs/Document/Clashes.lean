import FormTree.Proofs.Document.Addressing
import Mathlib.Data.List.Induction

/-!
# Nodes with the same name path

Names need not be distinct, and without separator different segments can give one name path.  But
what stands inside a container has a longer name path than the container, whatever separates the
segments.  So of the nodes that share a name path none stands inside another, and they come in one
order, from the top of the document to its end.  `render_resolves_clashes` says that the name leads to
the last of them, while it stands among the names where the first of them was registered.
-/

namespace FormTree

/-! ## Order from top to end -/

/-- Of two places, neither of which is inside the other, the one that comes first in the order of
nodes has the smaller path. -/
theorem Path.Precedes.lt {p q : Path} (h : Path.Precedes p q) (hapart : ¬ q <+: p) : p < q := by
  induction p generalizing q with
  | nil => exact h.elim
  | cons a p ih =>
    cases q with
    | nil => exact absurd List.nil_prefix hapart
    | cons b q =>
      rw [List.cons_lt_cons_iff]
      refine h.imp_right ?_
      rintro ⟨rfl, hrest⟩
      exact ⟨rfl, ih hrest fun hpre => hapart ((List.prefix_cons_inj a).2 hpre)⟩

/-! ## Registering names again -/

namespace Directory

variable {κ : Type}

/-- The names are listed in the order in which they were registered first. -/
theorem names_ofList (entries : List (String × Entry κ)) :
    (ofList entries).names = (entries.map Prod.fst).eraseDups := by
  induction entries using List.reverseRecOn with
  | nil => rfl
  | append_singleton entries entry ih =>
    have hinsert : ofList (entries ++ [entry]) = (ofList entries).insert entry.1 entry.2 := by
      rw [ofList, List.foldl_append]
      rfl
    rw [hinsert, names_insert, ih, List.map_append, List.eraseDups_append]
    by_cases hmem : entry.1 ∈ entries.map Prod.fst
    · rw [if_pos (List.mem_eraseDups.2 hmem)]
      simp [List.removeAll, List.mem_map.1 hmem]
    · rw [if_neg fun h => hmem (List.mem_eraseDups.1 h)]
      simp [List.removeAll, List.mem_map.not.1 hmem, List.eraseDups_cons]

variable {config : Config κ} {form : FormId} {state : Data} {directory : Directory κ}
  {visits : List Visit} {name : String} {entry : Entry κ}

/-- An entry is that of the last node that was registered under its name. -/
theorem Lists.last (h : Lists config form state visits directory)
    (hget : directory.get? name = some entry) :
    ∃ before v behind, visits = before ++ v :: behind
      ∧ v.registered config form = some (name, entry)
      ∧ ∀ u ∈ behind, ∀ found, u.registered config form ≠ some (name, found) := by
  rw [h.eq, get?_ofList, List.lookup_eq_some_iff] at hget
  obtain ⟨later, earlier, hsplit, hother⟩ := hget
  have horder : visits.filterMap (Visit.registered config form)
      = earlier.reverse ++ (name, entry) :: later.reverse := by
    rw [← List.reverse_reverse (visits.filterMap _), hsplit]
    simp
  obtain ⟨first, rest, rfl, -, hrest⟩ := List.filterMap_eq_append_iff.1 horder
  obtain ⟨between, v, behind, rfl, -, hv, hbehind⟩ := List.filterMap_eq_cons_iff.1 hrest
  refine ⟨first ++ between, v, behind, by simp, hv, fun u hu found hregistered => ?_⟩
  have hmem : (name, found) ∈ later.reverse :=
    hbehind ▸ List.mem_filterMap.2 ⟨u, hu, hregistered⟩
  simpa using hother _ (List.mem_reverse.1 hmem)

end Directory

/-! ## Nodes that share a name path -/

section

variable {u v : Visit}

theorem toString_index_ne_empty (index : Nat) : toString index ≠ "" := by
  intro hempty
  have hdigits := congrArg String.toList hempty
  change (String.ofList (Nat.toDigits 10 index)).toList = [] at hdigits
  rw [String.toList_ofList] at hdigits
  exact Nat.toDigits_ne_nil hdigits

/-- Further segments make a name path longer if the first of them is not empty. -/
theorem length_intercalate_lt (separator : String) {segments rest : List String} {segment : String}
    (hsegments : segments ≠ []) (hsegment : segment ≠ "") :
    (separator.intercalate segments).length
      < (separator.intercalate (segments ++ segment :: rest)).length := by
  have hlong : segment.length ≤ (separator.intercalate (segment :: rest)).length := by
    cases rest with
    | nil => rw [String.intercalate_singleton]
    | cons other rest =>
      rw [show segment :: other :: rest = [segment] ++ other :: rest from rfl,
        String.intercalate_append_of_ne_nil (List.cons_ne_nil _ _) (List.cons_ne_nil _ _),
        String.intercalate_singleton, String.length_append, String.length_append]
      omega
  have hpos : 0 < segment.length := by
    rw [Nat.pos_iff_ne_zero]
    exact fun hzero => hsegment (String.length_eq_zero_iff.1 hzero)
  rw [String.intercalate_append_of_ne_nil hsegments (List.cons_ne_nil _ _), String.length_append,
    String.length_append]
  omega

/-- What stands inside a container has a longer name path, whatever separates the segments. -/
theorem Visit.Encloses.length_namePath_lt (h : v.Encloses u) (hv : v.kind.Addressable)
    (separator : String) : (v.namePath separator).length < (u.namePath separator).length := by
  have hcontainer : ∃ c : Container, v.kind = c.kind := by
    rcases hv with hfield | hmany | hforms
    · exact absurd hfield h.kind_ne_field
    · exact ⟨.many, hmany⟩
    · exact ⟨.childForms, hforms⟩
  obtain ⟨index, t, rfl⟩ := h.exists_within hcontainer
  rw [Visit.namePath, Visit.namePath, Visit.segments_within hcontainer]
  exact length_intercalate_lt separator (by simp [Visit.segments]) (toString_index_ne_empty index)

/-- Of nodes that share a name path none stands inside another. -/
theorem Data.Reached.apart_of_namePath {state : Data} {separator : String} (hu : state.Reached u)
    (hv : state.Reached v) (haddressable : v.kind.Addressable)
    (hname : u.namePath separator = v.namePath separator) (hne : u ≠ v) : ¬ v.path <+: u.path := by
  intro hpre
  have hinside := (hv.inside_of_isPrefix hu hpre).resolve_left hne
  have hlonger := Visit.Encloses.length_namePath_lt hinside haddressable separator
  rw [hname] at hlonger
  exact Nat.lt_irrefl _ hlonger

end

/-! ## The directory -/

section

variable {σ κ ρ : Type} {config : Config κ} {form : FormId} {state : Data}

/-- What a directory makes of nodes that share a name path. -/
structure Directory.ResolvesClashes (directory : Directory κ) (config : Config κ) (form : FormId)
    (state : Data) : Prop where
  /-- A node has another name path than those inside it. -/
  inside : ∀ u v, state.Reached v → v.kind.Addressable → v.Encloses u →
    u.namePath config.settings.nameSeparator ≠ v.namePath config.settings.nameSeparator
  /-- Of nodes that share a name path none contains another. -/
  apart : ∀ u v, state.Reached u → state.Reached v → u.kind.Addressable → v.kind.Addressable →
    u.namePath config.settings.nameSeparator = v.namePath config.settings.nameSeparator → u ≠ v →
    ¬ u.path <+: v.path ∧ ¬ v.path <+: u.path
  /-- A name path leads to the last of the nodes that have it. -/
  last : ∀ v, state.Reached v → v.kind.Addressable → ∃ w, state.Reached w ∧ w.kind.Addressable
    ∧ w.namePath config.settings.nameSeparator = v.namePath config.settings.nameSeparator
    ∧ (∀ u, state.Reached u → u.kind.Addressable →
      u.namePath config.settings.nameSeparator = v.namePath config.settings.nameSeparator →
      u ≠ w → u.path < w.path)
    ∧ directory.get? (v.namePath config.settings.nameSeparator) = w.entry? config form
    ∧ directory.LeadsTo form config.settings.nameSeparator w
  /-- Nodes are registered after those inside them, and a name stands where it came up first. -/
  names : ∃ visits, Itinerary state visits ∧ directory.names
    = ((visits.filter fun v => v.kind.Addressable).map
        (Visit.namePath config.settings.nameSeparator)).eraseDups

theorem Directory.Lists.resolvesClashes {directory : Directory κ} {visits : List Visit}
    (h : Lists config form state visits directory) :
    directory.ResolvesClashes config form state where
  inside u v _ haddressable hinside heq := by
    have hlonger := hinside.length_namePath_lt haddressable config.settings.nameSeparator
    rw [heq] at hlonger
    exact Nat.lt_irrefl _ hlonger
  apart u v hu hv hukind hvkind hname hne :=
    ⟨hv.apart_of_namePath hu hukind hname.symm (Ne.symm hne),
      hu.apart_of_namePath hv hvkind hname hne⟩
  last v hv hvkind := by
    obtain ⟨entry, hregistered⟩ : ∃ entry, v.registered config form = some (_, entry) :=
      Visit.exists_registered.2 ⟨hvkind, rfl⟩
    obtain ⟨found, hget⟩ := Option.isSome_iff_exists.1 (h.get?_isSome hv hregistered)
    obtain ⟨before, w, behind, rfl, hw, hbehind⟩ := h.last hget
    obtain ⟨hwkind, hname⟩ := Visit.exists_registered.1 ⟨found, hw⟩
    have hreached : state.Reached w := (h.itinerary.mem w).1 (by simp)
    obtain ⟨entry', hentry, hpair⟩ := Option.map_eq_some_iff.1 hw
    obtain rfl := (Prod.mk.inj hpair).2
    refine ⟨w, hreached, hwkind, hname, fun u hu hukind huname hne => ?_, hget.trans hentry.symm,
      .of_get? (hname ▸ hget) hentry⟩
    -- a node of that name that is not the last one was registered before it
    obtain ⟨other, hregistered'⟩ := Visit.exists_registered.2 ⟨hukind, huname⟩
    have hbefore : u ∈ before := by
      have hmem := (h.itinerary.mem u).2 hu
      simp only [List.mem_append, List.mem_cons] at hmem
      rcases hmem with hmem | rfl | hmem
      · exact hmem
      · exact absurd rfl hne
      · exact absurd hregistered' (hbehind u hmem other)
    have hprecedes : u.path.Precedes w.path :=
      (List.pairwise_append.1 h.itinerary.ordered).2.2 u hbefore w (List.mem_cons_self ..)
    exact hprecedes.lt (hu.apart_of_namePath hreached hwkind (huname.trans hname.symm) hne)
  names := ⟨visits, h.itinerary, by
    rw [h.eq, names_ofList, filterMap_registered_names]⟩

/-- Whatever the separator and the names, in the directory of a render that succeeds a name path that
several nodes share leads to the last of them. -/
theorem render_resolves_clashes {host : Host σ κ} {fuel : Nat}
    {r : Node.Renderer (Program σ κ) κ ρ} {f f' : Form κ} {rendered : Rendered ρ} {w w' : World σ κ}
    (hrun : (f.render config r).run host fuel w = .ok ((f', .ok rendered), w')) :
    ∃ live, w.form? f.id = some live
      ∧ f'.directory.ResolvesClashes config f.id live.store.state := by
  obtain ⟨live, hlive, -, hread⟩ := Form.read?_of_render hrun
  obtain ⟨visits, hlists⟩ := Directory.lists_of_read? hread
  exact ⟨live, hlive, hlists.resolvesClashes⟩

end

/-! ## A field in an item and a field in a section -/

namespace Clash

open Nested (field)

/-- Nothing separates the segments of a name path. -/
def config : Config Unit := { Nested.config with settings := { nameSeparator := "" } }

/-- A container with a field in its only item, a section with a field that is called like that one
with all that is above it, and one more field. -/
def state : Data :=
  .list [.list [.string "many", .list [.string "m", .string "default", .null, .null, .null,
      .list [.list [field "x"]]]],
    .list [.string "section", .list [.string "data", .string "default", .null, .list [field "m0x"]]],
    field "y"]

/-- The form alone. -/
def start : World Nat Unit :=
  .start #[{ store := .create state .queue false, channels := .unwired, profile := {} }] 0

/-- The names and paths of the directory after a render. -/
def found : List (String × Path) := [("m0x", [1, 1, 3, 0, 1]), ("m", [0, 1]), ("y", [2, 1])]

/-- Whether a render succeeds with this directory. -/
def rendersFound : Bool :=
  match (Form.render config Nested.renderer ⟨0, .empty⟩).run Nested.callbacks 3 start with
  | .ok ((f', .ok _), _) =>
    decide (f'.directory.entries.map (fun entry => (entry.1, entry.2.path)) = found)
  | _ => false

end Clash

open Clash in
theorem render_resolves_clashes_separated : ∃ f' rendered w',
    (Form.render config Nested.renderer ⟨0, .empty⟩).run Nested.callbacks 3 start
        = .ok ((f', .ok rendered), w')
      ∧ f'.directory.ResolvesClashes config 0 state
      ∧ f'.directory.entries.map (fun entry => (entry.1, entry.2.path)) = found := by
  have hcheck : rendersFound = true := by decide +kernel
  unfold rendersFound at hcheck
  split at hcheck
  · next f' rendered w' hrun =>
    obtain ⟨live, hlive, hresolves⟩ := render_resolves_clashes hrun
    have hstate : live.store.state = state := by
      cases hlive
      rfl
    rw [hstate] at hresolves
    exact ⟨f', rendered, w', hrun, hresolves, of_decide_eq_true hcheck⟩
  · cases hcheck

end FormTree
