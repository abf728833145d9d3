import FormTree.Proofs.Action.Reordering
import FormTree.Proofs.Document.Readdressing
import FormTree.Proofs.Editing.Fields
import Mathlib.Data.List.InsertIdx

/-!
# Reordering and removing items

A container can be told to bring its items into another order, or to take one out.  Either way it ends
up with some of its items at new indices, and the directory of the next render follows: what was named
like something in an item is named likewise in the item at the new index, and all other names belong
to the nodes that they belonged to.
-/

namespace FormTree

variable {σ κ : Type}

/-! ## Rearrangements -/

/-- What brings the items of a container to other indices. -/
inductive Rearrangement where
  /-- Position `i` gets the item that was at `order[i]`. -/
  | reorder (order : List Nat)
  /-- The item at an index is taken out. -/
  | remove (index : Nat)

namespace Rearrangement

/-- The action on the items of a container. -/
def action (op : Rearrangement) (h : ContainerHandle κ) : Action κ :=
  match op with
  | .reorder order => .reorderItems h.container h.path order
  | .remove index => .deleteItem h.container (h.path ++ [h.container.itemsAt, index])

/-- Rearrange the items with the handle of their container. -/
def program (op : Rearrangement) (h : ContainerHandle κ) : Program σ κ (Except Fault Unit) :=
  match op with
  | .reorder order => h.reorder order
  | .remove index => h.removeItem index

theorem program_eq (op : Rearrangement) (h : ContainerHandle κ) :
    (op.program h : Program σ κ (Except Fault Unit)) = h.change (op.action h) := by
  cases op <;> rfl

/-- Whether there are items for it. -/
def Fits : Rearrangement → Nat → Prop
  | .reorder order, count => IsPermutation order count
  | .remove index, count => index < count

instance (op : Rearrangement) (count : Nat) : Decidable (op.Fits count) := by
  cases op <;> unfold Fits <;> infer_instance

/-- Where the item that ends up at an index was. -/
def source : Rearrangement → Nat → Nat
  | .reorder order, index => order.getD index index
  | .remove removed, index => if index < removed then index else index + 1

/-- Where the items that are left were, of so many items. -/
def sources : Rearrangement → Nat → List Nat
  | .reorder order, _ => order
  | .remove removed, count => (List.range count).eraseIdx removed

section

variable {op : Rearrangement} {count index found : Nat}

theorem lt_of_mem_sources (h : op.Fits count) (hfound : found ∈ op.sources count) :
    found < count := by
  cases op with
  | reorder order => exact h.2.2 found hfound
  | remove removed => exact List.mem_range.1 (List.mem_of_mem_eraseIdx hfound)

theorem source_of_some (hfound : (op.sources count)[index]? = some found) :
    op.source index = found := by
  cases op with
  | reorder order =>
    change order[index]? = some found at hfound
    rw [source, List.getD_eq_getElem?_getD, hfound, Option.getD_some]
  | remove removed =>
    have hrange : ∀ {i : Nat}, (List.range count)[i]? = some found → i = found := by
      intro i hi
      obtain ⟨_, hget⟩ := List.getElem?_eq_some_iff.1 hi
      rwa [List.getElem_range] at hget
    rw [sources, List.getElem?_eraseIdx] at hfound
    rw [source]
    split at hfound
    · next hlt => rw [if_pos hlt, hrange hfound]
    · next hle => rw [if_neg hle, hrange hfound]

theorem le_source_of_none (h : op.Fits count) (hnone : (op.sources count)[index]? = none) :
    count ≤ op.source index := by
  cases op with
  | reorder order =>
    have hlength : order.length ≤ index := List.getElem?_eq_none_iff.1 hnone
    rw [source, List.getD_eq_getElem?_getD, List.getElem?_eq_none hlength, Option.getD_none, ← h.1]
    exact hlength
  | remove removed =>
    have hremoved : removed < count := h
    rw [sources, List.getElem?_eq_none_iff, List.length_eraseIdx, List.length_range,
      if_pos hremoved] at hnone
    rw [source]
    split <;> omega

end

/-- Taking an item out is one of the ways of permuting items. -/
theorem eraseIdx_eq_permuted (items : List Data) (removed : Nat) :
    items.eraseIdx removed = permuted items ((List.range items.length).eraseIdx removed) := by
  rw [permuted, ← List.eraseIdx_map, ← permuted, permuted_range]

end Rearrangement

/-- The number of items of a container in a state; anything but a list counts as no items. -/
def ContainerHandle.count (h : ContainerHandle κ) (state : Data) : Nat :=
  ((state.node? (h.path ++ [h.container.itemsAt])).getD .null).items.length

section

variable {h : ContainerHandle κ} {op : Rearrangement} {state : Data} {definition : List Data}

theorem ContainerHandle.count_eq (hdefinition : state.node? h.path = some (.list definition)) :
    h.count state = (slotAt definition h.container.itemsAt).items.length := by
  rw [count, Data.node?_concat hdefinition, Data.child?_list, slotAt, List.getD_eq_getElem?_getD]

/-- A rearrangement for which there are items replaces them by those that were at its sources, and
leaves the other slots of the definition. -/
theorem Rearrangement.plan_action (hdefinition : state.node? h.path = some (.list definition))
    (hfits : op.Fits (h.count state)) :
    ∃ changed between, (op.action h).plan state = .settled (.ok between)
      ∧ state.replace? h.path (.list changed) = some between
      ∧ changed[h.container.itemsAt]? = some (.list (permuted
        (slotAt definition h.container.itemsAt).items (op.sources (h.count state))))
      ∧ ∀ slot, slot ≠ h.container.itemsAt → slotAt changed slot = slotAt definition slot := by
  rw [h.count_eq hdefinition] at hfits ⊢
  cases op with
  | reorder order =>
    obtain ⟨between, hbetween⟩ := Data.exists_replace? hdefinition (.list (putSlot definition
      h.container.itemsAt (.list (permuted (slotAt definition h.container.itemsAt).items order))))
    refine ⟨_, between, ?_, hbetween, getElem?_putSlot_self .., fun _ hne => slotAt_putSlot_ne hne⟩
    rw [action, Action.plan]
    exact Plan.adjust_of_node? hdefinition ((reordered_eq ..).trans (if_pos hfits)) hbetween
  | remove removed =>
    have hlt : removed < (slotAt definition h.container.itemsAt).items.length := hfits
    have hitems := getElem?_of_lt_items hlt
    have hcontent : state.node? (h.path ++ [h.container.itemsAt])
        = some (.list (slotAt definition h.container.itemsAt).items) :=
      (Data.node?_concat hdefinition _).trans hitems
    -- the removal writes the list of the items, which is the same as writing the definition around it
    obtain ⟨between, hbetween⟩ := Data.exists_replace? hcontent
      (.list ((slotAt definition h.container.itemsAt).items.eraseIdx removed))
    have hreplaced : state.replace? h.path (.list (definition.set h.container.itemsAt (.list
        ((slotAt definition h.container.itemsAt).items.eraseIdx removed)))) = some between := by
      rw [Data.replace?_append, hdefinition] at hbetween
      simpa [Data.replace?, hitems] using hbetween
    refine ⟨_, between, ?_, hreplaced, ?_, fun slot hne => slotAt_set_ne hne _⟩
    · have herased := Data.erase?_concat.2 ⟨_, hcontent, hlt, hbetween⟩
      rw [List.append_assoc] at herased
      rw [action, Action.plan]
      exact congrArg Plan.settled (removeAt_eq_ok.2 herased)
    · rw [List.getElem?_set_self (List.getElem?_eq_some_iff.1 hitems).1, eraseIdx_eq_permuted]
      rfl

end

/-! ## Rearranging the items of a form -/

section

variable {config : Config κ} {host : Host σ κ} {fuel : Nat} {f : Form κ} {w : World σ κ}
  {live : LiveForm κ} {op : Rearrangement} {h : ContainerHandle κ} {name : String}

/-- Whatever else a validator wrote, the items of the container are rearranged. -/
theorem Rearrangement.rearranged {v : Visit} {changed : List Data}
    (hkind : v.kind = h.container.kind) {state : Data} (hcount : h.count state = v.items.length)
    (hfits : op.Fits (h.count state))
    (hitems : changed[h.container.itemsAt]?
      = some (.list (permuted v.items (op.sources (h.count state)))))
    (hothers : ∀ slot, slot ≠ h.container.itemsAt → slotAt changed slot = slotAt v.definition slot)
    (texts : Option (List String)) :
    Rearranged v (putTexts changed h.container.errorsAt texts) (op.sources (h.count state)) where
  container := ⟨h.container, hkind⟩
  slots slot hinside herrors := by
    rw [hkind] at hinside herrors
    rw [slotAt_putTexts_ne herrors, hothers slot hinside]
  items := by
    rw [hkind]
    exact getElem?_putTexts_ne (by cases h.container <;> decide) hitems texts
  bounds found hfound := hcount ▸ lt_of_mem_sources hfits hfound

/-- Rearranging the items of a container of a current form succeeds, and the form can be read
afterwards, with the items readdressed. -/
theorem Rearrangement.made (hhost : host.Uses (Call.Passive f.id))
    (hcurrent : f.Current config w live) (hdot : config.settings.nameSeparator = ".")
    (hnames : WellNamed live.store.state) (hname : f.directory.get? name = some (.container h))
    (hfits : op.Fits (h.count live.store.state))
    (hreturns : (h.changeSubmission (op.action h)).HostReturns host fuel f.id w) :
    ∃ w' live', (∀ more > fuel, (op.program h).run host more w = .ok (.ok (), w'))
      ∧ w'.form? f.id = some live' ∧ live'.store.AtRest
      ∧ (∃ directory', Directory.read? config f.id live'.store.state = some directory')
      ∧ ∀ f' : Form κ, Directory.read? config f.id live'.store.state = some f'.directory →
        f.Readdressed live.store.state f' live'.store.state name h.path op.source := by
  obtain ⟨visits, hlists⟩ := Directory.lists_of_read? hcurrent.read
  obtain ⟨v, hv, hregistered⟩ := hlists.of_get? hname
  obtain ⟨hnamePath, hpath, hsort, -⟩ := Visit.of_registered hregistered
  change h.path = v.path at hpath
  have hkind : v.kind = h.container.kind := hsort.symm
  have hdefinition : live.store.state.node? h.path = some (.list v.definition) :=
    hpath ▸ hv.stands.definition
  have hcount : h.count live.store.state = v.items.length := by
    rw [h.count_eq hdefinition, Visit.items, hkind]
  obtain ⟨changed, between, hplan, hbetween, hitems, hothers⟩ := op.plan_action hdefinition hfits
  have hform : h.form = f.id := hcurrent.form_eq hname
  rw [← hform] at hhost hreturns
  obtain ⟨texts, w', live', hends, hfound, hrest, hreplaced⟩ := ContainerHandle.change_returns hhost
    (hform ▸ hcurrent.found) hcurrent.atRest hplan hbetween hreturns
  rw [hpath] at hreplaced
  -- the change and the errors of its validation are one replacement of the definition
  obtain ⟨state', hrewritten⟩ := hv.rewrite config (putTexts changed h.container.errorsAt texts)
  obtain rfl : state' = live'.store.state :=
    Option.some.inj (hrewritten.replaced.symm.trans hreplaced)
  have hmoved := Rearrangement.rearranged hkind hcount hfits
    (by rw [Visit.items, hkind]; exact hitems) hothers texts
  refine ⟨w', live', op.program_eq h ▸ hends, hform ▸ hfound, hrest,
    hrewritten.exists_read? hmoved hcurrent.read, fun f' hread' => ?_⟩
  obtain ⟨visits', hlists'⟩ := Directory.lists_of_read? hread'
  rw [hnamePath, hdot, hpath]
  exact hrewritten.readdressed hmoved hnames hdot hlists hlists'
    (fun _ _ => Rearrangement.source_of_some)
    fun _ hnone => hcount ▸ Rearrangement.le_source_of_none hfits hnone

end

/-- A form was set up, used in whatever way, and rendered without fault; no host code submits to it,
the separator is the dot, and the names are fit for name paths.  If a container is told to rearrange
its items, and the host code of that returns, then this succeeds, and so does the next render, after
which the items are readdressed. -/
theorem items_readdressed {ρ : Type} {host : Host σ κ} {config : Config κ}
    {r : Node.Renderer (Program σ κ) κ ρ} {handlers : List (HostEvent × κ)} {initial : Data}
    {p : Form κ → Program σ κ (Form κ)} {start fuel : Nat} {f : Form κ} {rendered : Rendered ρ}
    {w₀ w : World σ κ} {live : LiveForm κ} {op : Rearrangement} {h : ContainerHandle κ}
    {name : String}
    (hhost : host.Uses (Call.Passive w₀.forms.size)) (hr : r.Uses (Call.Passive w₀.forms.size))
    (hrun : (do (← p (← Form.create config handlers initial)).render config r).run host start w₀
      = .ok ((f, .ok rendered), w)) (hid : f.id = w₀.forms.size)
    (hdot : config.settings.nameSeparator = ".") (hlive : w.form? f.id = some live)
    (hnames : WellNamed live.store.state) (hname : f.directory.get? name = some (.container h))
    (hfits : op.Fits (h.count live.store.state))
    (hreturns : (h.changeSubmission (op.action h)).HostReturns host fuel f.id w) :
    ∃ w', (∀ more > fuel, (op.program h).run host more w = .ok (.ok (), w'))
      ∧ (∃ directory', f.RendersTo config host w' directory')
      ∧ ∀ {ρ' : Type} (r' : Node.Renderer (Program σ κ) κ ρ') (limit : Nat) (f' : Form κ)
          (again : Rendered ρ') (w'' : World σ κ), r'.Uses (Call.Passive f.id) →
        (f.render config r').run host limit w' = .ok ((f', .ok again), w'') →
        ∃ live'', w''.form? f'.id = some live''
          ∧ f.Readdressed live.store.state f' live''.store.state name h.path op.source := by
  obtain ⟨found, hcurrent⟩ := Form.current_of_created hhost hr hrun hid
  obtain rfl := Option.some.inj (hlive.symm.trans hcurrent.found)
  rw [← hid] at hhost
  obtain ⟨w', live', hends, hfound, hrest, ⟨directory', hread⟩, hmade⟩ :=
    Rearrangement.made hhost hcurrent hdot hnames hname hfits hreturns
  refine ⟨w', hends, ⟨directory', Form.rendersTo_of_read? hfound hread⟩, ?_⟩
  intro ρ' r' limit f' again w'' hr' hrender
  obtain ⟨seen, hseen, hsame, hread'⟩ := Form.read?_of_render hrender
  obtain rfl := Option.some.inj (hfound.symm.trans hseen)
  obtain ⟨live'', hfound'', halike, -⟩ :=
    Program.run_steady hhost limit _ (f.render_passive hr') hrender _ hfound
  refine ⟨live'', hsame ▸ hfound'', ?_⟩
  rw [halike.state]
  exact hmade f' hread'

/-! ## Two items that change places -/

namespace Swap

open Correction (callbacks config renderer callbacks_passive renderer_passive)

/-- A field of a name with a text for its value. -/
def field (name text : String) : Data :=
  .list [.string "field", .list [.string name, .string "text", .string text]]

/-- The definition of a container with two items, each with a field of the same name. -/
def items : List Data :=
  [.string "items", .string "default", .null, .list [], .list [],
    .list [.list [field "label" "a"], .list [field "label" "b"]]]

/-- The container, and a field behind it. -/
def initial : Data := .list [.list [.string "many", .list items], field "note" "c"]

/-- Set up the form and render it. -/
def begin : Program Unit Unit (Form Unit × Except Fault (Rendered Unit)) := do
  (← pure (← Form.create config [] initial)).render config renderer

/-- The paths of the nodes, with what stands above their names. -/
def places : List (Path × List String × String) :=
  [([0, 1], [], "items"), ([0, 1, 5, 0, 0, 1], ["items", "0"], "label"),
    ([0, 1, 5, 1, 0, 1], ["items", "1"], "label"), ([1, 1], [], "note")]

theorem mem_places {v : Visit} (h : initial.Reached v) : (v.path, v.above, v.name) ∈ places := by
  obtain ⟨_, ⟨⟩, h⟩ := h
  rcases reachesAll_cons.1 h with hmany | hnote
  · have hnode : (Data.list [.string "many", .list items]).IsNode .many items := ⟨rfl, rfl⟩
    rcases (reaches_iff hnode).1 hmany with rfl | ⟨_, ⟨⟩, -⟩ | ⟨_, ⟨⟩, _, ⟨⟩, hinside⟩
    · exact .head _
    · rcases reachesItems_cons.1 hinside with hfirst | hinside
      · obtain rfl := Reaches.eq_field ⟨rfl, rfl⟩ (reachesAll_singleton.1 hfirst)
        decide
      · rcases reachesItems_cons.1 hinside with hsecond | hinside
        · obtain rfl := Reaches.eq_field ⟨rfl, rfl⟩ (reachesAll_singleton.1 hsecond)
          decide
        · exact absurd hinside not_reachesItems_nil
  · obtain rfl := Reaches.eq_field ⟨rfl, rfl⟩ (reachesAll_singleton.1 hnote)
    decide

theorem wellNamed_initial : WellNamed initial :=
  .of_places (fun _ => mem_places) (by unfold Dotless; decide) (by decide)

/-- The text that a name has for its value in a state. -/
def text? (f : Form Unit) (state : Data) (name : String) : Option String :=
  match f.valueIn state name with
  | .ok (.string text) => some text
  | _ => none

theorem valueIn_of_text? {f : Form Unit} {state : Data} {name text : String}
    (h : text? f state name = some text) : f.valueIn state name = .ok (.string text) := by
  unfold text? at h
  split at h
  · next hvalue => rw [hvalue, Option.some.inj h]
  · cases h

/-- Whether the form is rendered, its items change places, and it is rendered again. -/
def succeeds : Bool :=
  match begin.run callbacks 6 (.start #[] ()) with
  | .ok ((f, .ok _), w) =>
    match f.directory.container .many "items" with
    | .ok h =>
      match ((Rearrangement.reorder [1, 0]).program h).run callbacks 6 w with
      | .ok (_, w') =>
        match (f.render config renderer).run callbacks 6 w' with
        | .ok ((_, .ok _), _) =>
          decide (f.id = 0 ∧ h.count initial = 2 ∧ text? f initial "items.1.label" = some "b")
        | _ => false
      | _ => false
    | _ => false
  | _ => false

theorem begin_run : ∃ f rendered w h answer w' f' again w'',
    begin.run callbacks 6 (.start #[] ()) = .ok ((f, .ok rendered), w)
      ∧ f.id = 0 ∧ f.directory.container .many "items" = .ok h ∧ h.count initial = 2
      ∧ text? f initial "items.1.label" = some "b"
      ∧ ((Rearrangement.reorder [1, 0]).program h).run callbacks 6 w = .ok (answer, w')
      ∧ (f.render config renderer).run callbacks 6 w' = .ok ((f', .ok again), w'') := by
  have hcheck : succeeds = true := by decide +kernel
  unfold succeeds at hcheck
  split at hcheck
  · next f rendered w hrun =>
    split at hcheck
    · next h hhandle =>
      split at hcheck
      · next answer w' hreorder =>
        split at hcheck
        · next f' again w'' hrender =>
          obtain ⟨hid, hcount, htext⟩ := of_decide_eq_true hcheck
          exact ⟨f, rendered, w, h, answer, w', f', again, w'', hrun, hid, hhandle, hcount, htext,
            hreorder, hrender⟩
        · cases hcheck
      · cases hcheck
    · cases hcheck
  · cases hcheck

/-- After the render the form is current in its initial state. -/
theorem begin_current {f : Form Unit} {rendered : Rendered Unit} {w : World Unit Unit}
    (hrun : begin.run callbacks 6 (.start #[] ()) = .ok ((f, .ok rendered), w)) :
    ∃ live, f.Current config w live ∧ live.store.state = initial :=
  (Form.current_of_fresh callbacks_passive renderer_passive hrun).2

end Swap

open Correction (callbacks config renderer callbacks_passive callbacks_returns renderer_passive) in
open Swap in
theorem items_readdressed_swapped : ∃ f rendered w live h w' f' again w'' live'',
    begin.run callbacks 6 (.start #[] ()) = .ok ((f, .ok rendered), w)
      ∧ w.form? f.id = some live ∧ WellNamed live.store.state
      ∧ f.directory.get? "items" = some (.container h)
      ∧ (Rearrangement.reorder [1, 0]).Fits (h.count live.store.state)
      ∧ (h.changeSubmission ((Rearrangement.reorder [1, 0]).action h)).HostReturns callbacks 5 f.id w
      ∧ ((Rearrangement.reorder [1, 0]).program h).run callbacks 6 w = .ok (.ok (), w')
      ∧ (f.render config renderer).run callbacks 6 w' = .ok ((f', .ok again), w'')
      ∧ w''.form? f'.id = some live''
      ∧ f.Readdressed live.store.state f' live''.store.state "items" h.path
        (Rearrangement.reorder [1, 0]).source
      ∧ f'.valueIn live''.store.state "items.0.label" = .ok (.string "b") := by
  obtain ⟨f, rendered, w, h, answer, w', f', again, w'', hrun, hid, hhandle, hcount, htext, hreorder,
    hrender⟩ := begin_run
  obtain ⟨live, hcurrent, hstate⟩ := begin_current hrun
  have hname := Directory.get?_of_container hhandle
  have hnames : WellNamed live.store.state := hstate ▸ wellNamed_initial
  have hfits : (Rearrangement.reorder [1, 0]).Fits (h.count live.store.state) := by
    rw [hstate, hcount]
    decide
  have hplaced : w.Placed f.id := hid ▸ Form.placed_of_created hrun
  have hreturns := Submission.HostReturns.of_host (callbacks_returns 2 f.id) hplaced
    (h.changeSubmission ((Rearrangement.reorder [1, 0]).action h))
  obtain ⟨_, hends, -, hreaddressed⟩ := items_readdressed callbacks_passive renderer_passive hrun hid
    rfl hcurrent.found hnames hname hfits hreturns
  obtain ⟨rfl, rfl⟩ := Program.run_unique hreorder (hends 6 (Nat.lt_succ_self 5))
  obtain ⟨live'', hlive'', hall⟩ :=
    hreaddressed renderer 6 f' again w'' (hid ▸ renderer_passive) hrender
  refine ⟨f, rendered, w, live, h, _, f', again, w'', live'', hrun, hcurrent.found, hnames, hname,
    hfits, hreturns, hreorder, hrender, hlive'', hall, ?_⟩
  refine (hall.valueIn 0 "label" (.string "b")).2 ?_
  rw [hstate]
  exact valueIn_of_text? htext

end FormTree
