import FormTree.Proofs.Document.Addressing
import FormTree.Proofs.Document.Removing
import FormTree.Proofs.Editing.Items

/-!
# Removing fields

A field is removed with its handle: it is taken out of the list that it stands in.  The other nodes
keep their names, although some of them are found at other paths then; so the next render finds the
other names, in their order, and of the values only those of the containers around the field are
others.  It does not matter what the field stood in, or whether anything is left there.
-/

namespace FormTree

variable {σ κ : Type}

/-! ## Names -/

namespace Visit.SlidesTo

variable {list : Path} {index : Nat} {u u' w w' : Visit}

theorem kind (h : u.SlidesTo list index u') : u'.kind = u.kind := h.alike.kind

theorem namePath (h : u.SlidesTo list index u') (separator : String) :
    u'.namePath separator = u.namePath separator :=
  congrArg separator.intercalate h.alike.segments

end Visit.SlidesTo

/-- What became of the names and values of a form when the field of a name was taken out, and the form
was rendered again. -/
structure Form.Without (f : Form κ) (state : Data) (f' : Form κ) (state' : Data) (name : String)
    (path : Path) : Prop where
  names : f'.directory.names = f.directory.names.filter (· ≠ name)
  kinds : ∀ other, other ≠ name →
    (f'.directory.get? other).map Entry.kind = (f.directory.get? other).map Entry.kind
  /-- Only containers around the field have other items. -/
  valueIn : ∀ other, other ≠ name →
    (∀ container, f.directory.get? other = some (.container container) → ¬ container.path <+: path) →
    f'.valueIn state' other = f.valueIn state other

namespace TakenOut

variable {config : Config κ} {form : FormId} {state state' : Data} {u u' v : Visit} {list : Path}
  {index : Nat} {directory directory' : Directory κ} {visits visits' : List Visit}

/-- A document can be read without one of its fields. -/
theorem exists_read? (h : TakenOut config state v list index state')
    (hread : Directory.read? config form state = some directory) :
    ∃ directory', Directory.read? config form state' = some directory' := by
  obtain ⟨nodes, hnodes⟩ := Directory.readForm_of_read? hread h.reached
  obtain ⟨found, hfound, hall, hsound⟩ := readForm_ok_iff.1 ⟨nodes, hnodes⟩
  obtain ⟨found', hfound', hall'⟩ := h.nodes found hfound hall
  obtain ⟨nodes', hnodes'⟩ : ∃ nodes', Node.readForm config form state' = some (.ok nodes') := by
    refine readForm_ok_iff.2 ⟨found', hfound', hall', fun u' hu' => ?_⟩
    obtain ⟨u, hu, -, hkept⟩ := h.old u' hu'
    exact hkept (hsound u hu)
  exact Directory.exists_read? hnodes'

theorem unambiguous {separator : String} (h : TakenOut config state v list index state')
    (hnames : state.Unambiguous separator) : state'.Unambiguous separator := by
  intro u' w' hu' hunamed hw' hwnamed heq
  obtain ⟨u, hu, hslides, -⟩ := h.old u' hu'
  obtain ⟨w, hw, hslides', -⟩ := h.old w' hw'
  rw [hslides.namePath, hslides'.namePath] at heq
  obtain rfl := hnames u w hu (hslides.kind ▸ hunamed) hw (hslides'.kind ▸ hwnamed) heq
  exact hu'.eq_of_path hw' (hslides.path.unique hslides'.path)

/-- The other nodes are visited in the same order. -/
theorem itinerary (h : TakenOut config state v list index state') (hvisits : Itinerary state visits) :
    ∃ again : Visit → Visit, Itinerary state' ((visits.filter (·.path ≠ v.path)).map again)
      ∧ ∀ u ∈ visits, u.path ≠ v.path → u.SlidesTo list index (again u) := by
  have hother : ∀ u ∈ visits, u.path ≠ v.path → state.Reached u ∧ u ≠ v := by
    intro u hu hpath
    refine ⟨(hvisits.mem u).1 hu, ?_⟩
    rintro rfl
    exact hpath rfl
  have hkept := h.kept
  choose! again hreached hslides using hkept
  refine ⟨again, ⟨fun u' => ?_, ?_⟩, fun u hu hpath => ?_⟩
  · simp only [List.mem_map, List.mem_filter, decide_eq_true_eq]
    constructor
    · rintro ⟨u, ⟨hu, hpath⟩, rfl⟩
      obtain ⟨hu, hne⟩ := hother u hu hpath
      exact hreached u hu hne
    · intro hu'
      obtain ⟨u, hu, hslid, -⟩ := h.old u' hu'
      have hpath : u.path ≠ v.path := by
        rw [h.place]
        exact hslid.path.ne [1]
      obtain ⟨-, hne⟩ := hother u ((hvisits.mem u).2 hu) hpath
      refine ⟨u, ⟨(hvisits.mem u).2 hu, hpath⟩, ?_⟩
      exact (hreached u hu hne).eq_of_path hu' ((hslides u hu hne).path.unique hslid.path)
  · rw [List.pairwise_map]
    refine (hvisits.ordered.filter _).imp_of_mem fun {u w} hu hw hprecedes => ?_
    simp only [List.mem_filter, decide_eq_true_eq] at hu hw
    obtain ⟨hu, hune⟩ := hother u hu.1 hu.2
    obtain ⟨hw, hwne⟩ := hother w hw.1 hw.2
    exact (hslides u hu hune).path.precedes (hslides w hw hwne).path hprecedes
  · obtain ⟨hu, hne⟩ := hother u hu hpath
    exact hslides u hu hne

section

variable (h : TakenOut config state v list index state')
  (hnames : state.Unambiguous config.settings.nameSeparator)
  (hlists : Directory.Lists config form state visits directory)
  (hlists' : Directory.Lists config form state' visits' directory')
include h hnames hlists hlists'

/-- The names are those of the other nodes, in the same order. -/
theorem names_eq (hfield : v.kind = .field) : directory'.names
    = directory.names.filter (· ≠ v.namePath config.settings.nameSeparator) := by
  obtain ⟨found, hfound, heq⟩ := (hlists.addresses hnames).names
  obtain ⟨found', hfound', heq'⟩ := (hlists'.addresses (h.unambiguous hnames)).names
  obtain ⟨again, hagain, hslides⟩ := h.itinerary hfound
  rw [heq, heq', hfound'.unique hagain, List.filter_map, List.map_map, List.filter_map,
    List.filter_filter, List.filter_filter]
  -- as names are unambiguous, to leave out the node is to leave out its name
  have hsame : ∀ u ∈ found, (decide ((again u).kind.Addressable) && decide (u.path ≠ v.path))
      = (decide (u.namePath config.settings.nameSeparator
          ≠ v.namePath config.settings.nameSeparator) && decide (u.kind.Addressable)) := by
    intro u hu
    by_cases hpath : u.path = v.path
    · obtain rfl := ((hfound.mem u).1 hu).eq_of_path h.reached hpath
      simp
    · rw [(hslides u hu hpath).kind]
      by_cases hkind : u.kind.Addressable
      · have hname : u.namePath config.settings.nameSeparator
            ≠ v.namePath config.settings.nameSeparator := by
          intro hname
          have hnamed : v.kind.Named := by
            rw [hfield]
            trivial
          exact hpath (congrArg Visit.path
            (hnames u v ((hfound.mem u).1 hu) hkind.named h.reached hnamed hname))
        simp [hpath, hname, hkind]
      · simp [hkind]
  have hfilter := List.filter_congr hsame
  simp only [Function.comp_def] at hfilter ⊢
  rw [hfilter]
  refine List.map_congr_left fun u hu => ?_
  obtain ⟨hu, hboth⟩ := List.mem_filter.1 hu
  rw [← hsame u hu, Bool.and_eq_true, decide_eq_true_eq, decide_eq_true_eq] at hboth
  exact (hslides u hu hboth.2).namePath _

/-- Another name belongs to the same node as before, or to none as before. -/
theorem cases_of_ne {name : String} (hne : name ≠ v.namePath config.settings.nameSeparator) :
    directory.get? name = none ∧ directory'.get? name = none
      ∨ ∃ u u' entry entry', state.Reached u ∧ state'.Reached u' ∧ u.SlidesTo list index u'
        ∧ u.registered config form = some (name, entry)
        ∧ u'.registered config form = some (name, entry')
        ∧ directory.get? name = some entry ∧ directory'.get? name = some entry' := by
  have hnames' := h.unambiguous hnames
  -- a node that is kept has one name before and after, under which both directories have it
  have hboth : ∀ {u u' : Visit}, state.Reached u → state'.Reached u' → u.SlidesTo list index u' →
      u.kind.Addressable → u.namePath config.settings.nameSeparator = name →
      ∃ u u' entry entry', state.Reached u ∧ state'.Reached u' ∧ u.SlidesTo list index u'
        ∧ u.registered config form = some (name, entry)
        ∧ u'.registered config form = some (name, entry')
        ∧ directory.get? name = some entry ∧ directory'.get? name = some entry' := by
    intro u u' hu hu' hslides hkind hname
    obtain ⟨entry, hregistered⟩ := Visit.exists_registered.2 ⟨hkind, hname⟩
    obtain ⟨entry', hregistered'⟩ := Visit.exists_registered.2
      ⟨hslides.kind.symm ▸ hkind, (hslides.namePath _).trans hname⟩
    exact ⟨u, u', entry, entry', hu, hu', hslides, hregistered, hregistered',
      (hlists.get?_iff hnames).2 ⟨u, hu, hregistered⟩,
      (hlists'.get?_iff hnames').2 ⟨u', hu', hregistered'⟩⟩
  cases hget : directory.get? name with
  | some entry =>
    obtain ⟨u, hu, hregistered⟩ := hlists.of_get? hget
    obtain ⟨hkind, hname⟩ := Visit.exists_registered.1 ⟨entry, hregistered⟩
    have hother : u ≠ v := by
      rintro rfl
      exact hne hname.symm
    obtain ⟨u', hu', hslides⟩ := h.kept u hu hother
    exact .inr (hget ▸ hboth hu hu' hslides hkind hname)
  | none =>
    cases hget' : directory'.get? name with
    | none => exact .inl ⟨rfl, rfl⟩
    | some entry' =>
      obtain ⟨u', hu', hregistered'⟩ := hlists'.of_get? hget'
      obtain ⟨hkind, hname⟩ := Visit.exists_registered.1 ⟨entry', hregistered'⟩
      obtain ⟨u, hu, hslides, -⟩ := h.old u' hu'
      exact .inr (hget ▸ hget' ▸ hboth hu hu' hslides (hslides.kind ▸ hkind)
        ((hslides.namePath _).symm.trans hname))

end

/-- A node that does not stand around the field has the definition that it had. -/
theorem definition_eq (h : TakenOut config state v list index state') (hu : state.Reached u)
    (hu' : state'.Reached u') (hslides : u.SlidesTo list index u') (habove : ¬ u.path <+: v.path) :
    u'.definition = u.definition := by
  obtain ⟨items, htaken⟩ := ItemTakenOut.of_erase? h.erased
  have hlist : ¬ u.path <+: list := by
    intro hpre
    refine habove (hpre.trans ?_)
    rw [h.place]
    exact List.prefix_append ..
  have hsame : state'.node? u'.path = state.node? u.path := by
    rcases hslides.path with ⟨j, rest, hle, hbefore, hafter⟩ | ⟨hpath, hbefore⟩
    · rw [hbefore, hafter]
      exact htaken.behind j rest hle
    · rw [hpath]
      by_cases hbelow : list <+: u.path
      · obtain ⟨rest, hrest⟩ := hbelow
        cases rest with
        | nil =>
          rw [List.append_nil] at hrest
          exact absurd (hrest ▸ List.prefix_refl _) hlist
        | cons j rest =>
          rw [← hrest]
          exact htaken.before j rest (hbefore j rest hrest.symm)
      · exact htaken.frame u.path hbelow hlist
  rw [hu.stands.definition, hu'.stands.definition] at hsame
  exact Data.list.inj (Option.some.inj hsame)

/-- After a field was taken out, its name is gone, and the others have the values that they had. -/
theorem without {f f' : Form κ} (h : TakenOut config state v list index state')
    (hfield : v.kind = .field) (hnames : state.Unambiguous config.settings.nameSeparator)
    (hlists : Directory.Lists config form state visits f.directory)
    (hlists' : Directory.Lists config form state' visits' f'.directory) :
    f.Without state f' state' (v.namePath config.settings.nameSeparator) v.path where
  names := h.names_eq hnames hlists hlists' hfield
  kinds name hne := by
    rcases h.cases_of_ne hnames hlists hlists' hne with ⟨hget, hget'⟩ |
      ⟨u, u', entry, entry', -, -, hslides, hregistered, hregistered', hget, hget'⟩
    · rw [hget, hget']
    · obtain ⟨-, -, hkind, -⟩ := Visit.of_registered hregistered
      obtain ⟨-, -, hkind', -⟩ := Visit.of_registered hregistered'
      rw [hget, hget', Option.map_some, Option.map_some, hkind, hkind', hslides.kind]
  valueIn name hne hapart := by
    rcases h.cases_of_ne hnames hlists hlists' hne with ⟨hget, hget'⟩ |
      ⟨u, u', entry, entry', hu, hu', hslides, hregistered, hregistered', hget, hget'⟩
    · rw [Form.valueIn, Form.valueIn, Directory.entry, Directory.entry, hget, hget']
      rfl
    · obtain ⟨hname, hpath, hkind, -⟩ := Visit.of_registered hregistered
      have habove : ¬ u.path <+: v.path := by
        intro hpre
        cases entry with
        | container container =>
          rw [← hpath] at hpre
          exact hapart container hget hpre
        | field handle =>
          -- nothing stands inside another field
          have hufield : u.kind = .field := hkind.symm
          rcases hu.inside_of_isPrefix h.reached hpre with rfl | hinside
          · exact hne hname
          · exact not_reachesInside_field hufield _ v hinside
      have hvalue : u'.value = u.value := by
        rw [Visit.value, Visit.value, hslides.kind, h.definition_eq hu hu' hslides habove]
      rw [Form.valueIn_of_registered hget hregistered hu.stands.definition,
        Form.valueIn_of_registered hget' hregistered' hu'.stands.definition, hvalue]

end TakenOut

/-! ## The handle of a field -/

section

variable {config : Config κ} {host : Host σ κ} {fuel : Nat} {f : Form κ} {w w' : World σ κ}
  {live : LiveForm κ} {h : FieldHandle κ} {name : String}

/-- A removal of a list item computes the state without it. -/
theorem FieldHandle.compute_remove {form : FormId} {node : Path} {next : Data}
    {result : Except Fault Data} (hlive : w.form? form = some live)
    (herased : live.store.state.erase? node = some next)
    (hrun : Run.compute host (Program.run host fuel) form (h.removeSubmission node).batch w
      = .ok (result, w')) : result = .ok next := by
  rw [Run.compute_eq hlive] at hrun
  obtain ⟨first, v, hfirst, hrest⟩ := Run.applyM_cons hrun
  have hplan : (Action.removeField node : Action κ).plan live.store.state = .settled (.ok next) :=
    congrArg Plan.settled (removeAt_eq_ok.2 herased)
  rw [hplan] at hfirst
  obtain ⟨rfl, rfl⟩ := Run.pure_eq_ok.1 hfirst
  obtain ⟨_, ⟨⟩, -⟩ | ⟨_, ⟨⟩, hrest⟩ := hrest
  obtain ⟨rfl, -⟩ := Run.pure_eq_ok.1 hrest
  rfl

theorem FieldHandle.remove_eq {list : Path} {index : Nat} (hpath : h.path = list ++ [index, 1]) :
    (h.remove : Program σ κ (Except Fault Unit))
      = Program.submitThen h.form (h.removeSubmission h.path.dropLast) := by
  have hsplit : h.path = list ++ [index] ++ [1] := by rw [hpath, List.append_assoc]; rfl
  rw [remove, hsplit, Path.parent?_concat, List.dropLast_concat]

/-- Removing a field of a current form succeeds, and the form can be read afterwards, without the
name of the field. -/
theorem FieldHandle.removed (hhost : host.Uses (Call.Passive f.id))
    (hcurrent : f.Current config w live) (hdot : config.settings.nameSeparator = ".")
    (hnames : WellNamed live.store.state) (hname : f.directory.get? name = some (.field h))
    (hitem : ¬ ∃ v index, live.store.state.Reached v ∧ v.kind = .manyChildForms
      ∧ h.path = v.path ++ [v.kind.insideAt, index, 1])
    (hreturns : (h.removeSubmission h.path.dropLast).HostReturns host fuel f.id w) :
    ∃ w' live', (∀ more > fuel, (h.remove).run host more w = .ok (.ok (), w'))
      ∧ w'.form? f.id = some live' ∧ live'.store.version = live.store.version + 1
      ∧ live.store.state.erase? h.path.dropLast = some live'.store.state
      ∧ (∃ directory', Directory.read? config f.id live'.store.state = some directory')
      ∧ ∀ f' : Form κ, Directory.read? config f.id live'.store.state = some f'.directory →
        f.Without live.store.state f' live'.store.state name h.path := by
  obtain ⟨visits, hlists⟩ := Directory.lists_of_read? hcurrent.read
  obtain ⟨v, hv, hregistered⟩ := hlists.of_get? hname
  obtain ⟨hfield, hpath⟩ := Visit.of_registered_field hregistered
  obtain ⟨hnamePath, -⟩ := Visit.of_registered hregistered
  rw [hpath] at hitem
  obtain ⟨list, index, state', htaken⟩ := hv.takeOut config hfield hitem
  have hplace : h.path = list ++ [index, 1] := hpath.trans htaken.place
  have hlast : h.path.dropLast = list ++ [index] := by
    rw [hplace, List.dropLast_append_of_ne_nil (List.cons_ne_nil _ _)]
    rfl
  obtain ⟨result, u, w', live', hcompute, hends, hfound, hstate, hversion, -⟩ :=
    Program.submitThen_returns hhost hcurrent.found hcurrent.atRest (List.cons_ne_nil _ _) hreturns
  obtain rfl := FieldHandle.compute_remove (World.form?_setForm_self hcurrent.found (live.mark true))
    (hlast ▸ htaken.erased) hcompute
  obtain rfl : live'.store.state = state' := hstate
  have hform : h.form = f.id := hcurrent.form_eq hname
  refine ⟨w', live', ?_, hfound, hversion, hlast ▸ htaken.erased,
    htaken.exists_read? hcurrent.read, fun f' hread' => ?_⟩
  · rw [FieldHandle.remove_eq hplace, hform]
    exact hends
  · obtain ⟨visits', hlists'⟩ := Directory.lists_of_read? hread'
    rw [hnamePath, hpath]
    exact htaken.without hfield (hdot ▸ hnames.unambiguous) hlists hlists'

end

/-- A form was set up, used in whatever way, and rendered without fault; no host code submits to it,
the separator is the dot, and the names are fit for name paths.  If a field that is not itself an item
of a container of child forms is removed with its handle, and the host code of that returns, then this
succeeds with one new version, and so does the next render, which finds the other names, in their
order, with the values that they had. -/
theorem removal_drops_name {ρ : Type} {host : Host σ κ} {config : Config κ}
    {r : Node.Renderer (Program σ κ) κ ρ} {handlers : List (HostEvent × κ)} {initial : Data}
    {p : Form κ → Program σ κ (Form κ)} {start fuel : Nat} {f : Form κ} {rendered : Rendered ρ}
    {w₀ w : World σ κ} {live : LiveForm κ} {h : FieldHandle κ} {name : String}
    (hhost : host.Uses (Call.Passive w₀.forms.size)) (hr : r.Uses (Call.Passive w₀.forms.size))
    (hrun : (do (← p (← Form.create config handlers initial)).render config r).run host start w₀
      = .ok ((f, .ok rendered), w)) (hid : f.id = w₀.forms.size)
    (hdot : config.settings.nameSeparator = ".") (hlive : w.form? f.id = some live)
    (hnames : WellNamed live.store.state) (hname : f.directory.get? name = some (.field h))
    (hitem : ¬ ∃ v index, live.store.state.Reached v ∧ v.kind = .manyChildForms
      ∧ h.path = v.path ++ [v.kind.insideAt, index, 1])
    (hreturns : (h.removeSubmission h.path.dropLast).HostReturns host fuel f.id w) :
    ∃ w' live', (∀ more > fuel, (h.remove).run host more w = .ok (.ok (), w'))
      ∧ w'.form? f.id = some live' ∧ live'.store.version = live.store.version + 1
      ∧ live.store.state.erase? h.path.dropLast = some live'.store.state
      ∧ (∃ directory', f.RendersTo config host w' directory')
      ∧ ∀ {ρ' : Type} (r' : Node.Renderer (Program σ κ) κ ρ') (limit : Nat) (f' : Form κ)
          (again : Rendered ρ') (w'' : World σ κ), r'.Uses (Call.Passive f.id) →
        (f.render config r').run host limit w' = .ok ((f', .ok again), w'') →
        ∃ live'', w''.form? f'.id = some live''
          ∧ f.Without live.store.state f' live''.store.state name h.path := by
  obtain ⟨found, hcurrent⟩ := Form.current_of_created hhost hr hrun hid
  obtain rfl := Option.some.inj (hlive.symm.trans hcurrent.found)
  rw [← hid] at hhost
  obtain ⟨w', live', hends, hfound, hversion, herased, ⟨directory', hread⟩, hmade⟩ :=
    FieldHandle.removed hhost hcurrent hdot hnames hname hitem hreturns
  refine ⟨w', live', hends, hfound, hversion, herased,
    ⟨directory', Form.rendersTo_of_read? hfound hread⟩, ?_⟩
  intro ρ' r' limit f' again w'' hr' hrender
  obtain ⟨seen, hseen, hsame, hread'⟩ := Form.read?_of_render hrender
  obtain rfl := Option.some.inj (hfound.symm.trans hseen)
  obtain ⟨live'', hfound'', halike, -⟩ :=
    Program.run_steady hhost limit _ (f.render_passive hr') hrender _ hfound
  refine ⟨live'', hsame ▸ hfound'', ?_⟩
  rw [halike.state]
  exact hmade f' hread'

/-! ## The only field of a section -/

namespace Emptied

open Correction (callbacks renderer callbacks_passive renderer_passive)
open Swap (field text? valueIn_of_text?)

/-- Containers and sections have render handlers. -/
def config : Config Unit := { Correction.config with handled := [.many, .sect] }

/-- The definition of a section with one field. -/
def sectionDefinition : List Data :=
  [.string "data", .string "default", .null, .list [field "first" "a"]]

/-- The definition of a container with a field in its only item. -/
def items : List Data :=
  [.string "items", .string "default", .null, .null, .null, .list [.list [field "label" "b"]]]

/-- The section, the container, and a field behind them. -/
def initial : Data :=
  .list [.list [.string "section", .list sectionDefinition], .list [.string "many", .list items],
    field "note" "c"]

/-- Set up the form and render it. -/
def begin : Program Unit Unit (Form Unit × Except Fault (Rendered Unit)) := do
  (← pure (← Form.create config [] initial)).render config renderer

/-- The paths of the nodes, with what stands above their names. -/
def places : List (Path × List String × String) :=
  [([0, 1], [], "data"), ([0, 1, 3, 0, 1], [], "first"), ([1, 1], [], "items"),
    ([1, 1, 5, 0, 0, 1], ["items", "0"], "label"), ([2, 1], [], "note")]

theorem mem_places {v : Visit} (h : initial.Reached v) :
    (v.path, v.above, v.name) ∈ places ∧ v.kind ≠ .manyChildForms := by
  obtain ⟨_, ⟨⟩, h⟩ := h
  rcases reachesAll_cons.1 h with hsection | h
  · have hnode : (Data.list [.string "section", .list sectionDefinition]).IsNode .sect
        sectionDefinition := ⟨rfl, rfl⟩
    rcases (reaches_iff hnode).1 hsection with rfl | ⟨_, ⟨⟩, _, ⟨⟩, hinside⟩ | ⟨_, ⟨⟩, -⟩
    · exact ⟨.head _, by decide⟩
    · obtain rfl := Reaches.eq_field ⟨rfl, rfl⟩ (reachesAll_singleton.1 hinside)
      decide
  rcases reachesAll_cons.1 h with hmany | h
  · have hnode : (Data.list [.string "many", .list items]).IsNode .many items := ⟨rfl, rfl⟩
    rcases (reaches_iff hnode).1 hmany with rfl | ⟨_, ⟨⟩, -⟩ | ⟨_, ⟨⟩, _, ⟨⟩, hinside⟩
    · exact ⟨.tail _ (.tail _ (.head _)), by decide⟩
    · rcases reachesItems_cons.1 hinside with hitem | hnone
      · obtain rfl := Reaches.eq_field ⟨rfl, rfl⟩ (reachesAll_singleton.1 hitem)
        decide
      · exact absurd hnone not_reachesItems_nil
  · obtain rfl := Reaches.eq_field ⟨rfl, rfl⟩ (reachesAll_singleton.1 h)
    decide

theorem wellNamed_initial : WellNamed initial :=
  .of_places (fun _ hv => (mem_places hv).1) (by unfold Dotless; decide) (by decide)

/-- Whether the form is rendered, the field of the section is removed, and the form is rendered
again. -/
def succeeds : Bool :=
  match begin.run callbacks 6 (.start #[] ()) with
  | .ok ((f, .ok _), w) =>
    match f.directory.field "first" with
    | .ok h =>
      match h.remove.run callbacks 6 w with
      | .ok (_, w') =>
        match (f.render config renderer).run callbacks 6 w' with
        | .ok ((_, .ok _), _) =>
          decide (f.directory.names = ["first", "items.0.label", "items", "note"]
            ∧ h.path = [0, 1, 3] ++ [0, 1] ∧ text? f initial "note" = some "c"
            ∧ (f.directory.get? "note").map Entry.sort = some .field)
        | _ => false
      | _ => false
    | _ => false
  | _ => false

theorem begin_run : ∃ f rendered w h answer w' f' again w'',
    begin.run callbacks 6 (.start #[] ()) = .ok ((f, .ok rendered), w)
      ∧ f.directory.field "first" = .ok h
      ∧ h.remove.run callbacks 6 w = .ok (answer, w')
      ∧ (f.render config renderer).run callbacks 6 w' = .ok ((f', .ok again), w'')
      ∧ f.directory.names = ["first", "items.0.label", "items", "note"]
      ∧ h.path = [0, 1, 3] ++ [0, 1] ∧ text? f initial "note" = some "c"
      ∧ (f.directory.get? "note").map Entry.sort = some .field := by
  have hcheck : succeeds = true := by decide +kernel
  unfold succeeds at hcheck
  split at hcheck
  · next f rendered w hrun =>
    split at hcheck
    · next h hhandle =>
      split at hcheck
      · next answer w' hremove =>
        split at hcheck
        · next f' again w'' hrender =>
          exact ⟨f, rendered, w, h, answer, w', f', again, w'', hrun, hhandle, hremove, hrender,
            of_decide_eq_true hcheck⟩
        · cases hcheck
      · cases hcheck
    · cases hcheck
  · cases hcheck

end Emptied

open Correction (callbacks renderer callbacks_passive callbacks_returns renderer_passive) in
open Swap (valueIn_of_text?) in
open Emptied in
theorem removal_drops_name_emptied : ∃ f rendered w live h w' live' f' again w'' live'',
    begin.run callbacks 6 (.start #[] ()) = .ok ((f, .ok rendered), w)
      ∧ w.form? f.id = some live ∧ WellNamed live.store.state
      ∧ f.directory.get? "first" = some (.field h)
      ∧ (h.removeSubmission h.path.dropLast).HostReturns callbacks 5 f.id w
      ∧ h.remove.run callbacks 6 w = .ok (.ok (), w')
      ∧ w'.form? f.id = some live' ∧ live'.store.version = live.store.version + 1
      ∧ (f.render config renderer).run callbacks 6 w' = .ok ((f', .ok again), w'')
      ∧ w''.form? f'.id = some live''
      ∧ f.Without live.store.state f' live''.store.state "first" h.path
      ∧ f'.directory.names = ["items.0.label", "items", "note"]
      ∧ f'.valueIn live''.store.state "note" = .ok (.string "c") := by
  obtain ⟨f, rendered, w, h, answer, w', f', again, w'', hrun, hhandle, hremove, hrender, hbefore,
    hpath, htext, hsort⟩ := begin_run
  obtain ⟨hid, live, hcurrent, hstate⟩ :=
    Form.current_of_fresh callbacks_passive renderer_passive hrun
  have hname := Directory.get?_of_field hhandle
  have hnames : WellNamed live.store.state := hstate ▸ wellNamed_initial
  have hitem : ¬ ∃ v index, live.store.state.Reached v ∧ v.kind = .manyChildForms
      ∧ h.path = v.path ++ [v.kind.insideAt, index, 1] := by
    rintro ⟨v, -, hv, hkind, -⟩
    exact (mem_places (hstate ▸ hv)).2 hkind
  have hplaced : w.Placed f.id := hid ▸ Form.placed_of_created hrun
  have hreturns := Submission.HostReturns.of_host (callbacks_returns 2 f.id) hplaced
    (h.removeSubmission h.path.dropLast)
  obtain ⟨_, live', hends, hfound, hversion, -, -, hall⟩ := removal_drops_name callbacks_passive
    renderer_passive hrun hid rfl hcurrent.found hnames hname hitem hreturns
  obtain ⟨rfl, rfl⟩ := Program.run_unique hremove (hends 6 (Nat.lt_succ_self 5))
  obtain ⟨live'', hlive'', hwithout⟩ :=
    hall renderer 6 f' again w'' (hid ▸ renderer_passive) hrender
  refine ⟨f, rendered, w, live, h, _, live', f', again, w'', live'', hrun, hcurrent.found, hnames,
    hname, hreturns, hremove, hfound, hversion, hrender, hlive'', hwithout, ?_, ?_⟩
  · rw [hwithout.names, hbefore]
    decide
  · have hfield : ∀ container, f.directory.get? "note" = some (.container container) →
        ¬ container.path <+: h.path := by
      intro container hget
      rw [hget] at hsort
      cases hsort
    rw [hwithout.valueIn "note" (by decide) hfield, hstate]
    exact valueIn_of_text? htext

end FormTree
