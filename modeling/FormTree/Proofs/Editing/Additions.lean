import FormTree.Proofs.Document.Lengthening
import FormTree.Proofs.Editing.Items

/-!
# Putting items at the end

A container can be told to put a further item at its end: a `many` container a copy of its own template,
a container of child forms one of the templates that the form was set up with.  The template is data
that no render has looked into.  If it can be read, and its names are fit for name paths, then any
number of items can be put there one after the other with one handle, and the next render finds in each
of them what it would find in the template alone.
-/

namespace FormTree

variable {σ κ : Type}

/-! ## One item -/

/-- What puts an item at the end of a container. -/
inductive Addition where
  /-- A copy of the template of a `many` container. -/
  | content
  /-- The child form template of a name. -/
  | childForm (name : String)

namespace Addition

/-- The sort of container that it is for. -/
def container : Addition → Container
  | .content => .many
  | .childForm _ => .childForms

/-- Put an item there with the handle of the container. -/
def program (a : Addition) (h : ContainerHandle κ) : Program σ κ (Except Fault Unit) :=
  match a with
  | .content => h.append
  | .childForm name => h.appendForm name

/-- The item, if there is a template. -/
def item? (a : Addition) (profile : Profile) (h : ContainerHandle κ) (state : Data) : Option Data :=
  match a with
  | .content => state.node? (h.path ++ [Kind.templateAt])
  | .childForm name => profile.template? name

/-- The action that puts the item there. -/
def action (a : Addition) (h : ContainerHandle κ) (item : Data) : Action κ :=
  match a with
  | .content => .addContent h.path
  | .childForm _ => .addChildForm h.path item

/-- A definition of a container with one item more. -/
def lengthen (a : Addition) (definition : List Data) (item : Data) : List Data :=
  putSlot definition a.container.itemsAt (appended (slotAt definition a.container.itemsAt) item)

section

variable {a : Addition} {h : ContainerHandle κ} {item state : Data} {definition : List Data}

/-- If there is a template, the action is submitted. -/
theorem run_program {host : Host σ κ} {fuel : Nat} {w : World σ κ} {live : LiveForm κ}
    (hlive : w.form? h.form = some live) (hitem : a.item? live.profile h state = some item) :
    (a.program h).run host (fuel + 1) w = (h.change (a.action h item)).run host (fuel + 1) w := by
  cases a with
  | content => rfl
  | childForm name =>
    change live.profile.template? name = some item at hitem
    rw [program, ContainerHandle.appendForm, Program.run_bind,
      Run.bind_of_ok (Program.run_profile hlive)]
    simp only [hitem]
    rfl

/-- The action puts the item at the end of the items, and leaves the other slots. -/
theorem plan_action {profile : Profile} (hdefinition : state.node? h.path = some (.list definition))
    (hitem : a.item? profile h state = some item) :
    ∃ between, (a.action h item).plan state = .settled (.ok between)
      ∧ state.replace? h.path (.list (a.lengthen definition item)) = some between := by
  obtain ⟨between, hbetween⟩ :=
    Data.exists_replace? hdefinition (.list (a.lengthen definition item))
  refine ⟨between, ?_, hbetween⟩
  cases a with
  | content =>
    have htemplate : templateOf definition = item := by
      rw [item?, Data.node?_concat hdefinition, Data.child?_list] at hitem
      rw [templateOf, List.getD_eq_getElem?_getD, hitem, Option.getD_some]
    rw [action, Action.plan, Plan.withDefinition_of_node? hdefinition]
    refine Plan.adjust_of_node? hdefinition ?_ hbetween
    rw [htemplate]
    rfl
  | childForm name =>
    rw [action, Action.plan]
    exact Plan.adjust_of_node? hdefinition rfl hbetween

end

/-! ## Items one after the other -/

/-- A container with one item more, whatever a validator wrote besides. -/
theorem lengthened {a : Addition} {v : Visit} {definition : List Data} {item : Data} {added : Nat}
    (h : Lengthened a.container v definition item added) (texts : Option (List String)) :
    Lengthened a.container v
      (putTexts (a.lengthen definition item) a.container.errorsAt texts) item (added + 1) := by
  have hne : a.container.itemsAt ≠ a.container.errorsAt := by cases a.container <;> decide
  have hitems : slotAt (putTexts (a.lengthen definition item) a.container.errorsAt texts)
      v.kind.insideAt = appended (slotAt definition v.kind.insideAt) item := by
    rw [h.kind, slotAt_putTexts_ne hne, lengthen, slotAt_putSlot_self]
  constructor
  case kind => exact h.kind
  case slots =>
    intro slot hinside herrors
    have hbefore := h.slots slot hinside herrors
    rw [h.kind] at hinside herrors
    rw [slotAt_putTexts_ne herrors, lengthen, slotAt_putSlot_ne hinside, hbefore]
  case items =>
    rw [hitems, appended, Data.items_list, h.items, List.append_assoc, List.replicate_succ']
  case content => exact .inr ⟨_, hitems⟩

/-- How far the additions to a container `v` have come: the form is at rest in a state where the
container has so many items more, and there is still the template. -/
structure Grown (a : Addition) (h : ContainerHandle κ) (state : Data) (v : Visit) (item : Data)
    (added : Nat) (w : World σ κ) (live : LiveForm κ) : Prop where
  found : w.form? h.form = some live
  atRest : live.store.AtRest
  template : a.item? live.profile h live.store.state = some item
  definition : ∃ definition, state.replace? v.path (.list definition) = some live.store.state
    ∧ Lengthened a.container v definition item added

/-- The host code of some additions returns: that of the first one, and that of the others wherever
the first one leads to. -/
def HostReturns (host : Host σ κ) (fuel : Nat) (a : Addition) (h : ContainerHandle κ) (item : Data) :
    Nat → World σ κ → Prop
  | 0, _ => True
  | added + 1, w => (h.changeSubmission (a.action h item)).HostReturns host fuel h.form w
    ∧ ∀ answer w', (a.program h).run host (fuel + 1) w = .ok (answer, w') →
      HostReturns host fuel a h item added w'

/-- If every callback returns, the host code of all additions does. -/
theorem HostReturns.of_host {host : Host σ κ} {fuel : Nat} {h : ContainerHandle κ} {w : World σ κ}
    (hhost : host.Returns fuel h.form) (hplaced : w.Placed h.form) (a : Addition) (item : Data)
    (added : Nat) : a.HostReturns host (fuel + 2) h item added w := by
  induction added generalizing w with
  | zero => trivial
  | succ added ih =>
    exact ⟨.of_host hhost hplaced _, fun _ _ hrun => ih (Program.run_placed host _ _ hrun hplaced)⟩

/-- Put so many items there. -/
def times (a : Addition) (h : ContainerHandle κ) (added : Nat) :
    Program σ κ (List (Except Fault Unit)) :=
  (List.replicate added a).mapM fun a => a.program h

theorem times_succ (a : Addition) (h : ContainerHandle κ) (added : Nat) :
    (a.times h (added + 1) : Program σ κ (List (Except Fault Unit))) = (do
      let first ← a.program h
      return first :: (← a.times h added)) := by
  rw [times, List.replicate_succ, List.mapM_cons]
  rfl

namespace Grown

variable {host : Host σ κ} {fuel : Nat} {a : Addition} {h : ContainerHandle κ} {state : Data}
  {v : Visit} {item : Data} {added : Nat} {w : World σ κ} {live : LiveForm κ}

/-- The template is still there when the container has one item more. -/
theorem item?_lengthen {profile : Profile} {definition : List Data} {texts : Option (List String)}
    {next : Data} (hcontainer : h.container = a.container)
    (hdefinition : state.node? h.path = some (.list definition))
    (hitem : a.item? profile h state = some item) (hnext : state.replace? h.path
      (.list (putTexts (a.lengthen definition item) h.container.errorsAt texts)) = some next) :
    a.item? profile h next = some item := by
  cases a with
  | childForm name => exact hitem
  | content =>
    rw [item?, Data.node?_concat hdefinition] at hitem
    rw [item?, Data.node?_concat (Data.node?_replace? hnext)]
    refine getElem?_putTexts_ne (by rw [hcontainer]; decide) ?_ texts
    rwa [lengthen, getElem?_putSlot_of_lt (by decide) (List.getElem?_eq_some_iff.1 hitem).1]

/-- One more item can be put there. -/
theorem add (hhost : host.Uses (Call.Passive h.form)) (hpath : h.path = v.path)
    (hcontainer : h.container = a.container) (hgrown : a.Grown h state v item added w live)
    (hreturns : (h.changeSubmission (a.action h item)).HostReturns host fuel h.form w) :
    ∃ w' live', (∀ more > fuel, (a.program h).run host more w = .ok (.ok (), w'))
      ∧ a.Grown h state v item (added + 1) w' live' := by
  obtain ⟨definition, hreplaced, hlengthened⟩ := hgrown.definition
  have hdefinition : live.store.state.node? h.path = some (.list definition) :=
    hpath ▸ Data.node?_replace? hreplaced
  obtain ⟨between, hplan, hbetween⟩ := a.plan_action hdefinition hgrown.template
  obtain ⟨texts, w', live', hends, hfound, hrest, hnext⟩ := ContainerHandle.change_returns hhost
    hgrown.found hgrown.atRest hplan hbetween hreturns
  have hruns : ∀ more > fuel, (a.program h).run host more w = .ok (.ok (), w') := by
    intro more hmore
    obtain ⟨less, rfl⟩ := Nat.exists_eq_add_one.2 (Nat.zero_lt_of_lt hmore)
    rw [a.run_program hgrown.found hgrown.template]
    exact hends _ hmore
  obtain ⟨_, found, -, hfound', hprofile⟩ := Program.run_growing _ host _ _
    (hruns _ (Nat.lt_succ_self fuel)) _ hgrown.found
  obtain rfl := Option.some.inj (hfound.symm.trans hfound')
  refine ⟨w', live', hruns, hfound, hrest, ?_, _, ?_, lengthened hlengthened texts⟩
  · exact hprofile ▸ item?_lengthen hcontainer hdefinition hgrown.template hnext
  · rw [hcontainer, hpath, Data.replace?_replace? hreplaced] at hnext
    exact hnext

/-- Any number of further items can be put there. -/
theorem addAll (hhost : host.Uses (Call.Passive h.form)) (hpath : h.path = v.path)
    (hcontainer : h.container = a.container) (hgrown : a.Grown h state v item added w live)
    {further : Nat} (hreturns : a.HostReturns host fuel h item further w) :
    ∃ w' live', (∀ more > fuel, (a.times h further).run host more w
        = .ok (List.replicate further (.ok ()), w'))
      ∧ a.Grown h state v item (added + further) w' live' := by
  induction further generalizing added w live with
  | zero =>
    refine ⟨w, live, fun more hmore => ?_, hgrown⟩
    exact Program.run_done.2 ⟨Nat.zero_lt_of_lt hmore, rfl, rfl⟩
  | succ further ih =>
    obtain ⟨v', between, hfirst, hgrown'⟩ := hgrown.add hhost hpath hcontainer hreturns.1
    obtain ⟨w', live', hothers, hall⟩ :=
      ih hgrown' (hreturns.2 _ _ (hfirst _ (Nat.lt_succ_self fuel)))
    refine ⟨w', live', fun more hmore => ?_, by rwa [Nat.add_assoc, Nat.add_comm 1] at hall⟩
    rw [times_succ, Program.run_bind, Run.bind_of_ok (hfirst more hmore), Program.run_bind,
      Run.bind_of_ok (hothers more hmore)]
    exact Program.run_done.2 ⟨Nat.zero_lt_of_lt hmore, rfl, rfl⟩

end Grown

section

variable {config : Config κ} {host : Host σ κ} {fuel : Nat} {a : Addition} {f : Form κ}
  {h : ContainerHandle κ} {name : String} {item : Data} {added : Nat} {w w' : World σ κ}
  {live : LiveForm κ} {nodes : List (Node κ)}

theorem container_eq (hname : f.directory.container a.container name = .ok h) :
    h.container = a.container := by
  unfold Directory.container at hname
  split at hname
  · split at hname
    · next hsort => rwa [← Except.ok.inj hname]
    · cases hname
  · cases hname
  · cases hname

/-- At the beginning a container of a current form has no further items. -/
theorem grown_zero (hcurrent : f.Current config w live)
    (hname : f.directory.container a.container name = .ok h)
    (hitem : a.item? live.profile h live.store.state = some item) :
    ∃ v, live.store.state.Reached v ∧ h.path = v.path ∧ h.container = a.container
      ∧ v.namePath config.settings.nameSeparator = name
      ∧ v.items.length = h.count live.store.state
      ∧ a.Grown h live.store.state v item 0 w live := by
  have hget := Directory.get?_of_container hname
  obtain ⟨visits, hlists⟩ := Directory.lists_of_read? hcurrent.read
  obtain ⟨v, hv, hregistered⟩ := hlists.of_get? hget
  obtain ⟨hnamePath, hpath, hsort, -⟩ := Visit.of_registered hregistered
  change h.path = v.path at hpath
  have hcontainer := container_eq hname
  have hkind : v.kind = a.container.kind := hcontainer ▸ hsort.symm
  have hform : h.form = f.id := hcurrent.form_eq hget
  have hdefinition : live.store.state.node? h.path = some (.list v.definition) :=
    hpath ▸ hv.stands.definition
  refine ⟨v, hv, hpath, hcontainer, hnamePath.symm, ?_, hform ▸ hcurrent.found, hcurrent.atRest,
    hitem, v.definition, ?_, ?_⟩
  · rw [h.count_eq hdefinition, Visit.items, hkind, hcontainer]
  · exact Data.replace?_self hv.stands.definition
  · exact ⟨hkind, fun _ _ _ => rfl, by simp [Visit.items], .inl rfl⟩

end

end Addition

/-- A form was set up, used in whatever way, and rendered without fault; no host code submits to it,
the separator is the dot, and the names are fit for name paths, also those in a template that can be
read.  If a container is told to put copies of the template at its end, and the host code of that
returns, then this succeeds, and so does the next render, after which the container has so many items
more and the names are extended by those in the template. -/
theorem items_added {ρ : Type} {host : Host σ κ} {config : Config κ}
    {r : Node.Renderer (Program σ κ) κ ρ} {handlers : List (HostEvent × κ)} {initial : Data}
    {p : Form κ → Program σ κ (Form κ)} {start fuel : Nat} {f : Form κ} {rendered : Rendered ρ}
    {w₀ w : World σ κ} {live : LiveForm κ} {a : Addition} {h : ContainerHandle κ} {name : String}
    {item : Data} {nodes : List (Node κ)} {added : Nat}
    (hhost : host.Uses (Call.Passive w₀.forms.size)) (hr : r.Uses (Call.Passive w₀.forms.size))
    (hrun : (do (← p (← Form.create config handlers initial)).render config r).run host start w₀
      = .ok ((f, .ok rendered), w)) (hid : f.id = w₀.forms.size)
    (hdot : config.settings.nameSeparator = ".") (hlive : w.form? f.id = some live)
    (hnames : WellNamed live.store.state)
    (hname : f.directory.container a.container name = .ok h)
    (hitem : a.item? config.profile h live.store.state = some item)
    (hread : Node.readForm config f.id (a.container.document item) = some (.ok nodes))
    (hfit : WellNamed (a.container.document item))
    (hreturns : a.HostReturns host fuel h item added w) :
    ∃ w', (∀ more > fuel, (a.times h added).run host more w
        = .ok (List.replicate added (.ok ()), w'))
      ∧ (∃ directory', f.RendersTo config host w' directory')
      ∧ ∀ {ρ' : Type} (r' : Node.Renderer (Program σ κ) κ ρ') (limit : Nat) (f' : Form κ)
          (again : Rendered ρ') (w'' : World σ κ), r'.Uses (Call.Passive f.id) →
        (f.render config r').run host limit w' = .ok ((f', .ok again), w'') →
        ∃ live'', w''.form? f'.id = some live''
          ∧ h.count live''.store.state = h.count live.store.state + added
          ∧ f.Extended live.store.state f' live''.store.state name h.path
            (h.count live.store.state) added ⟨f.id, .ofList (Node.entriesAll nodes)⟩
            (a.container.document item) := by
  obtain ⟨found, hcurrent⟩ := Form.current_of_created hhost hr hrun hid
  obtain rfl := Option.some.inj (hlive.symm.trans hcurrent.found)
  have hprofile : live.profile = config.profile := Form.profile_of_created hrun (hid ▸ hlive)
  rw [← hid] at hhost
  obtain ⟨v, hv, hpath, hcontainer, rfl, hcount, hgrown⟩ :=
    Addition.grown_zero hcurrent hname (hprofile ▸ hitem)
  have hform : h.form = f.id := hcurrent.form_eq (Directory.get?_of_container hname)
  obtain ⟨w', live', hends, hgrown'⟩ := hgrown.addAll (hform ▸ hhost) hpath hcontainer hreturns
  rw [Nat.zero_add] at hgrown'
  -- all additions together are one replacement of the definition, so the form is read once more only
  obtain ⟨definition, hreplaced, hlengthened⟩ := hgrown'.definition
  obtain ⟨state', hrewritten⟩ := hv.rewrite config definition
  obtain rfl : state' = live'.store.state :=
    Option.some.inj (hrewritten.replaced.symm.trans hreplaced)
  have hfound : w'.form? f.id = some live' := hform ▸ hgrown'.found
  obtain ⟨directory', hread'⟩ := hrewritten.exists_read?_lengthened hlengthened hread hcurrent.read
  refine ⟨w', hends, ⟨directory', Form.rendersTo_of_read? hfound hread'⟩, ?_⟩
  intro ρ' r' limit f' again w'' hr' hrender
  obtain ⟨seen, hseen, hsame, hread''⟩ := Form.read?_of_render hrender
  obtain rfl := Option.some.inj (hfound.symm.trans hseen)
  obtain ⟨live'', hfound'', halike, -⟩ :=
    Program.run_steady hhost limit _ (f.render_passive hr') hrender _ hfound
  obtain ⟨visits, hlists⟩ := Directory.lists_of_read? hcurrent.read
  obtain ⟨visits', hlists'⟩ := Directory.lists_of_read? hread''
  obtain ⟨others, hothers⟩ := Directory.lists_of_read? (Directory.read?_of_readForm hread)
  refine ⟨live'', hsame ▸ hfound'', ?_, ?_⟩
  · have hdefinition : live'.store.state.node? h.path = some (.list definition) :=
      hpath ▸ Data.node?_replace? hreplaced
    have hitems := hlengthened.items
    rw [hlengthened.kind] at hitems
    rw [halike.state, h.count_eq hdefinition, hcontainer, hitems, List.length_append,
      List.length_replicate, hcount]
  -- the renderer may have been host code, but the state it left is the one that was read
  · rw [halike.state, ← hcount, hpath, hdot]
    exact hrewritten.extended hlengthened hnames hfit hdot hlists hlists' hothers

/-! ## Two items more -/

namespace Nursery

open Correction (callbacks config renderer callbacks_passive renderer_passive)
open Swap (field text?)

/-- A container with a field in its only item. -/
def parts : List Data :=
  [.string "parts", .string "default", .null, .list [], .list [],
    .list [.list [field "label" "part"]]]

/-- A template with a field and a container. -/
def template : Data := .list [field "label" "new", .list [.string "many", .list parts]]

/-- A container with this template and one item. -/
def items : List Data :=
  [.string "items", .string "default", .null, .list [], template, .list [.list [field "label" "a"]]]

/-- The container, and a field behind it. -/
def initial : Data := .list [.list [.string "many", .list items], field "note" "c"]

/-- Set up the form and render it. -/
def begin : Program Unit Unit (Form Unit × Except Fault (Rendered Unit)) := do
  (← pure (← Form.create config [] initial)).render config renderer

theorem mem_template {v : Visit} (h : template.Reached v) : (v.path, v.above, v.name)
    ∈ [([0, 1], [], "label"), ([1, 1], [], "parts"), ([1, 1, 5, 0, 0, 1], ["parts", "0"], "label")] := by
  obtain ⟨_, ⟨⟩, h⟩ := h
  rcases reachesAll_cons.1 h with hlabel | hparts
  · obtain rfl := Reaches.eq_field ⟨rfl, rfl⟩ hlabel
    decide
  · have hnode : (Data.list [.string "many", .list parts]).IsNode .many parts := ⟨rfl, rfl⟩
    rcases (reaches_iff hnode).1 (reachesAll_singleton.1 hparts) with
      rfl | ⟨_, ⟨⟩, -⟩ | ⟨_, ⟨⟩, _, ⟨⟩, hinside⟩
    · decide
    · rcases reachesItems_cons.1 hinside with hfirst | hnone
      · obtain rfl := Reaches.eq_field ⟨rfl, rfl⟩ (reachesAll_singleton.1 hfirst)
        decide
      · exact absurd hnone not_reachesItems_nil

theorem mem_initial {v : Visit} (h : initial.Reached v) : (v.path, v.above, v.name)
    ∈ [([0, 1], [], "items"), ([0, 1, 5, 0, 0, 1], ["items", "0"], "label"), ([1, 1], [], "note")] := by
  obtain ⟨_, ⟨⟩, h⟩ := h
  rcases reachesAll_cons.1 h with hmany | hnote
  · have hnode : (Data.list [.string "many", .list items]).IsNode .many items := ⟨rfl, rfl⟩
    rcases (reaches_iff hnode).1 hmany with rfl | ⟨_, ⟨⟩, -⟩ | ⟨_, ⟨⟩, _, ⟨⟩, hinside⟩
    · decide
    · rcases reachesItems_cons.1 hinside with hfirst | hnone
      · obtain rfl := Reaches.eq_field ⟨rfl, rfl⟩ (reachesAll_singleton.1 hfirst)
        decide
      · exact absurd hnone not_reachesItems_nil
  · obtain rfl := Reaches.eq_field ⟨rfl, rfl⟩ (reachesAll_singleton.1 hnote)
    decide

theorem wellNamed_template : WellNamed template :=
  .of_places (fun _ => mem_template) (by unfold Dotless; decide) (by decide)

theorem wellNamed_initial : WellNamed initial :=
  .of_places (fun _ => mem_initial) (by unfold Dotless; decide) (by decide)

/-- Whether the form is rendered, two items are put at the end, and it is rendered again; and the
template can be read. -/
def succeeds : Bool :=
  match begin.run callbacks 6 (.start #[] ()), Node.readForm config 0 template with
  | .ok ((f, .ok _), w), some (.ok nodes) =>
    match f.directory.container .many "items" with
    | .ok h =>
      match (Addition.content.times h 2).run callbacks 6 w with
      | .ok (_, w') =>
        match (f.render config renderer).run callbacks 6 w' with
        | .ok ((_, .ok _), _) =>
          decide (h.path = [0, 1] ∧ h.count initial = 1
            ∧ text? ⟨0, .ofList (Node.entriesAll nodes)⟩ template "parts.0.label" = some "part")
        | _ => false
      | _ => false
    | _ => false
  | _, _ => false

theorem begin_run : ∃ f rendered w nodes h answers w' f' again w'',
    begin.run callbacks 6 (.start #[] ()) = .ok ((f, .ok rendered), w)
      ∧ Node.readForm config 0 template = some (.ok nodes)
      ∧ f.directory.container .many "items" = .ok h
      ∧ (Addition.content.times h 2).run callbacks 6 w = .ok (answers, w')
      ∧ (f.render config renderer).run callbacks 6 w' = .ok ((f', .ok again), w'')
      ∧ h.path = [0, 1] ∧ h.count initial = 1
      ∧ text? ⟨0, .ofList (Node.entriesAll nodes)⟩ template "parts.0.label" = some "part" := by
  have hcheck : succeeds = true := by decide +kernel
  unfold succeeds at hcheck
  split at hcheck
  · next f rendered w nodes hrun hread =>
    split at hcheck
    · next h hhandle =>
      split at hcheck
      · next answers w' hadded =>
        split at hcheck
        · next f' again w'' hrender =>
          exact ⟨f, rendered, w, nodes, h, answers, w', f', again, w'', hrun, hread, hhandle, hadded,
            hrender, of_decide_eq_true hcheck⟩
        · cases hcheck
      · cases hcheck
    · cases hcheck
  · cases hcheck

end Nursery

open Correction (callbacks config renderer callbacks_passive callbacks_returns renderer_passive) in
open Nursery in
theorem items_added_nested : ∃ f rendered w live h nodes w' f' again w'' live'',
    begin.run callbacks 6 (.start #[] ()) = .ok ((f, .ok rendered), w)
      ∧ w.form? f.id = some live ∧ WellNamed live.store.state
      ∧ f.directory.container .many "items" = .ok h
      ∧ Addition.content.item? config.profile h live.store.state = some template
      ∧ Node.readForm config f.id template = some (.ok nodes) ∧ WellNamed template
      ∧ Addition.content.HostReturns callbacks 5 h template 2 w
      ∧ (Addition.content.times h 2).run callbacks 6 w = .ok ([.ok (), .ok ()], w')
      ∧ (f.render config renderer).run callbacks 6 w' = .ok ((f', .ok again), w'')
      ∧ w''.form? f'.id = some live'' ∧ h.count live''.store.state = 3
      ∧ f.Extended live.store.state f' live''.store.state "items" h.path 1 2
        ⟨f.id, .ofList (Node.entriesAll nodes)⟩ template
      ∧ f'.valueIn live''.store.state "items.2.parts.0.label" = .ok (.string "part") := by
  obtain ⟨f, rendered, w, nodes, h, answers, w', f', again, w'', hrun, hread, hhandle, hadded, hrender,
    hpath, hcount, htext⟩ := begin_run
  obtain ⟨hid, live, hcurrent, hstate⟩ :=
    Form.current_of_fresh callbacks_passive renderer_passive hrun
  replace hid : f.id = 0 := hid
  have hnames : WellNamed live.store.state := hstate ▸ wellNamed_initial
  have hitem : ∀ profile, Addition.content.item? profile h live.store.state = some template := by
    intro profile
    rw [hstate, Addition.item?, hpath]
    rfl
  have hform : h.form = 0 := (hcurrent.form_eq (Directory.get?_of_container hhandle)).trans hid
  have hplaced : w.Placed h.form := hform ▸ Form.placed_of_created hrun
  have hreturns := Addition.HostReturns.of_host (callbacks_returns 2 h.form) hplaced .content template 2
  obtain ⟨_, hends, -, hextended⟩ := items_added (a := .content) callbacks_passive renderer_passive
    hrun hid rfl hcurrent.found hnames hhandle (hitem _) (hid ▸ hread) wellNamed_template hreturns
  obtain ⟨rfl, rfl⟩ := Program.run_unique hadded (hends 6 (Nat.lt_succ_self 5))
  obtain ⟨live'', hlive'', hmore, hall⟩ :=
    hextended renderer 6 f' again w'' (hid ▸ renderer_passive) hrender
  rw [hstate, hcount] at hmore
  rw [hstate, hcount] at hall
  refine ⟨f, rendered, w, live, h, nodes, w', f', again, w'', live'', hrun, hcurrent.found, hnames,
    hhandle, hitem _, hid ▸ hread, wellNamed_template, hreturns, hadded, hrender, hlive'', hmore,
    hstate ▸ hall, ?_⟩
  exact (hall.valueIn_added 2 "parts.0.label" (.string "part") (by decide) (by decide)).2
    (Swap.valueIn_of_text? (hid ▸ htext))

end FormTree
