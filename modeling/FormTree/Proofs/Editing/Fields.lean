import FormTree.Proofs.Document.Directory
import FormTree.Proofs.Document.Rewriting
import FormTree.Proofs.Editing.Batches

/-!
# Edits of fields

An edit of a field writes its value and its errors.  No render reads these, and nothing stands inside
a field; so all nodes of the form read alike after an edit, and the directory of the last render is
still that of the state.  That is why handles stay good for any number of edits, and why an edit of one
field is not seen in another.
-/

namespace FormTree

variable {σ κ : Type}

/-! ## Rewriting a node with nothing inside -/

section Document

variable {config : Config κ} {form : FormId} {state state' : Data} {u v : Visit}
  {definition : List Data} {directory : Directory κ}

/-- If the nodes of two states correspond to each other and read alike, the same is registered in
both, in the same order. -/
theorem registered_of_alike {visits visits' : List Visit} (h : Itinerary state visits)
    (h' : Itinerary state' visits') (hagain : ∀ u, state.Reached u → ∃ u', state'.Reached u' ∧ u.Alike u')
    (hbefore : ∀ u', state'.Reached u' → ∃ u, state.Reached u ∧ u.Alike u') :
    visits'.filterMap (Visit.registered config form)
      = visits.filterMap (Visit.registered config form) := by
  choose! again hreached hsame using hagain
  have hitinerary : Itinerary state' (visits.map again) := by
    refine ⟨fun u' => ?_, ?_⟩
    · simp only [List.mem_map, h.mem]
      constructor
      · rintro ⟨u, hu, rfl⟩
        exact hreached u hu
      · intro hu'
        obtain ⟨u, hu, halike⟩ := hbefore u' hu'
        exact ⟨u, hu, (hreached u hu).eq_of_path hu' ((hsame u hu).path.trans halike.path.symm)⟩
    · rw [List.pairwise_map]
      refine h.ordered.imp_of_mem fun {u t} hu ht hprecedes => ?_
      rwa [(hsame u ((h.mem u).1 hu)).path, (hsame t ((h.mem t).1 ht)).path]
  rw [h'.unique hitinerary, List.filterMap_map]
  exact List.filterMap_congr fun u hu => (hsame u ((h.mem u).1 hu)).registered config form

/-- If nothing stands inside a rewritten node, neither before nor after, and the node reads alike and
is as sound, then all nodes read alike, and the directory is the same. -/
theorem Rewritten.read?_eq (h : Rewritten config state v definition state')
    (halike : v.Alike { v with definition := definition })
    (hsound : v.Sound config → ({ v with definition := definition } : Visit).Sound config)
    (hnone : ∀ u, ¬ ReachesInside v.path v.above v.kind v.definition u)
    (hnone' : ∀ u, ¬ ReachesInside v.path v.above v.kind definition u)
    (hread : Directory.read? config form state = some directory) :
    Directory.read? config form state' = some directory := by
  obtain ⟨nodes, hnodes⟩ := Directory.readForm_of_read? hread h.reached
  obtain ⟨_, -, -, hbelow⟩ := readForm_ok_iff.1 ⟨nodes, hnodes⟩
  obtain ⟨nodes', hnodes'⟩ := h.readable hnodes (hsound (hbelow v h.reached))
    fun u hu => absurd hu (hnone' u)
  obtain ⟨directory', hread'⟩ := Directory.exists_read? hnodes'
  obtain ⟨visits, hlists⟩ := Directory.lists_of_read? hread
  obtain ⟨visits', hlists'⟩ := Directory.lists_of_read? hread'
  have hagain : ∀ u, state.Reached u → ∃ u', state'.Reached u' ∧ u.Alike u' := by
    intro u hu
    by_cases hpre : v.path <+: u.path
    · obtain rfl := (h.reached.inside_of_isPrefix hu hpre).resolve_right (hnone u)
      exact ⟨_, h.self, halike⟩
    · obtain ⟨u', hu', halike', -⟩ := h.kept u hu hpre
      exact ⟨u', hu', halike'⟩
  have hbefore : ∀ u', state'.Reached u' → ∃ u, state.Reached u ∧ u.Alike u' := by
    intro u' hu'
    rcases h.cases hu' with rfl | hin | ⟨-, u, hu, halike', -⟩
    · exact ⟨v, h.reached, halike⟩
    · exact absurd hin (hnone' u')
    · exact ⟨u, hu, halike'⟩
  rw [hread', hlists'.eq, hlists.eq,
    registered_of_alike hlists.itinerary hlists'.itinerary hagain hbefore]

/-! ## Rewriting a field -/

variable {value : Data} {texts : Option (List String)}

/-- A field reads alike after an edit. -/
theorem Visit.alike_edited (hfield : v.kind = .field) (value : Data) (texts : Option (List String)) :
    v.Alike { v with definition := editedField v.definition value texts } where
  path := rfl
  above := rfl
  kind := rfl
  name := slotAt_editedField (by decide) (by decide)
  typeName := slotAt_editedField (by rw [hfield]; decide) (by rw [hfield]; decide)
  attributes := slotAt_editedField (by rw [hfield]; decide) (by rw [hfield]; decide)

/-- A field is sound after an edit if it was before. -/
theorem Visit.Sound.edited (hfield : v.kind = .field) (h : v.Sound config) :
    ({ v with definition := editedField v.definition value texts } : Visit).Sound config := by
  refine h.of_alike (Visit.alike_edited hfield value texts) (fun hblank => ?_) ?_ ?_
  · rcases hblank.1 with hkind | hkind <;> rw [hfield] at hkind <;> cases hkind
  · intro slot hslot
    rw [hfield] at hslot
    cases hslot
  · intro slot hslot
    rw [hfield] at hslot
    cases hslot

/-- Fields do not stand inside each other: what is read at one stays as it is when another is
rewritten. -/
theorem node?_other_field (hv : state.Reached v) (hfield : v.kind = .field) (hu : state.Reached u)
    (hfield' : u.kind = .field) (hne : u ≠ v)
    (hreplaced : state.replace? v.path (.list definition) = some state') (q : Path) :
    state'.node? (u.path ++ q) = state.node? (u.path ++ q) := by
  have happart : ¬ v.path <+: u.path := fun hpre =>
    (hv.inside_of_isPrefix hu hpre).elim hne (not_reachesInside_field hfield _ u)
  have happart' : ¬ u.path <+: v.path := fun hpre =>
    (hu.inside_of_isPrefix hv hpre).elim (Ne.symm hne) (not_reachesInside_field hfield' _ v)
  refine Data.node?_replace?_apart hreplaced (fun hpre => ?_) fun hpre =>
    happart' ((List.prefix_append _ _).trans hpre)
  exact (List.prefix_or_prefix_of_prefix hpre (List.prefix_append _ q)).elim happart happart'

end Document

/-! ## Reading a field -/

section Reading

variable {h : FieldHandle κ} {name : String} {state : Data} {definition : List Data}

theorem FieldHandle.valueIn_of_node? (hdefinition : state.node? h.path = some (.list definition)) :
    h.valueIn state = .ok (slotAt definition Kind.valueAt) := by
  rw [FieldHandle.valueIn, locate, hdefinition]
  simp only [Except.map, Data.child?_list, slotAt, List.getD_eq_getElem?_getD]

/-- What a field handle of a directory leads to. -/
theorem Visit.of_registered_field {config : Config κ} {form : FormId} {v : Visit}
    (hregistered : v.registered config form = some (name, .field h)) :
    v.kind = .field ∧ h.path = v.path := by
  obtain ⟨-, hpath, hkind, -⟩ := Visit.of_registered hregistered
  exact ⟨hkind.symm, hpath⟩

/-- What is read at a field by its handle or name stays as it is when another field is rewritten. -/
theorem Directory.Lists.kept_other_field {config : Config κ} {f : Form κ} {state' : Data} {v : Visit}
    {visits : List Visit} {edited : String} {handle : FieldHandle κ}
    (hlists : Directory.Lists config f.id state visits f.directory) (hv : state.Reached v)
    (hregistered : v.registered config f.id = some (edited, .field h))
    (hreplaced : state.replace? v.path (.list definition) = some state')
    (hname : f.directory.get? name = some (.field handle)) (hne : name ≠ edited) :
    handle.valueIn state' = handle.valueIn state ∧ f.valueIn state' name = f.valueIn state name
      ∧ state'.node? (handle.path ++ [Kind.field.errorsAt])
        = state.node? (handle.path ++ [Kind.field.errorsAt]) := by
  obtain ⟨t, ht, hregistered'⟩ := hlists.of_get? hname
  obtain ⟨hfield, -⟩ := Visit.of_registered_field hregistered
  obtain ⟨hfield', hpath'⟩ := Visit.of_registered_field hregistered'
  have hother : t ≠ v := by
    rintro rfl
    exact hne (congrArg Prod.fst (Option.some.inj (hregistered'.symm.trans hregistered)))
  have hsame : ∀ q, state'.node? (handle.path ++ q) = state.node? (handle.path ++ q) := by
    rw [hpath']
    exact node?_other_field hv hfield ht hfield' hother hreplaced
  have hbefore : state.node? handle.path = some (.list t.definition) := hpath' ▸ ht.stands.definition
  have hafter : state'.node? handle.path = some (.list t.definition) := by
    simpa [hbefore] using hsame []
  rw [FieldHandle.valueIn_of_node? hbefore, FieldHandle.valueIn_of_node? hafter,
    Form.valueIn_of_node? hname hbefore, Form.valueIn_of_node? hname hafter]
  exact ⟨rfl, rfl, hsame _⟩

end Reading

/-! ## Edits one after the other -/

/-- An edit of a field, by its name or with its handle. -/
structure FieldEdit (κ : Type) where
  name : String
  handle : FieldHandle κ
  update : Update κ
  byName : Bool

namespace FieldEdit

/-- The edit as a program. -/
def program (f : Form κ) (e : FieldEdit κ) : Program σ κ (Except Fault Unit) :=
  if e.byName then f.edit e.name e.update else e.handle.edit e.update

/-- The handle is the one that the form has under the name. -/
def Addresses (f : Form κ) (e : FieldEdit κ) : Prop :=
  f.directory.get? e.name = some (.field e.handle)

/-- What an edit did. -/
structure Made (host : Host σ κ) (f : Form κ) (e : FieldEdit κ) (w : World σ κ) (live : LiveForm κ)
    (w' : World σ κ) (live' : LiveForm κ) : Prop where
  found : w.form? f.id = some live
  left : w'.form? f.id = some live'
  version : live'.store.version = live.store.version + 1
  /-- The field has the value that the host answered to the previous one and, if it is validated, the
  errors that its validator found in that value. -/
  answered : ∃ previous value texts fuel v,
    e.handle.valueIn live.store.state = .ok previous
      ∧ (e.handle.answers host e.update previous).run host fuel
          ((w.setForm f.id (live.mark true)).note
            (.began f.id (e.handle.editBatch e.update) live.store.state)) = .ok ((value, texts), v)
      ∧ e.handle.valueIn live'.store.state = .ok value
      ∧ f.valueIn live'.store.state e.name = .ok value.toJson
      ∧ texts.isSome = e.handle.validator.isSome
      ∧ ∀ errors ∈ texts, live'.store.state.node? (e.handle.path ++ [Kind.field.errorsAt])
          = some (Data.ofTexts errors)
  /-- The other fields have the values and errors that they had. -/
  others : ∀ name handle, f.directory.get? name = some (.field handle) → name ≠ e.name →
    handle.valueIn live'.store.state = handle.valueIn live.store.state
      ∧ f.valueIn live'.store.state name = f.valueIn live.store.state name
      ∧ live'.store.state.node? (handle.path ++ [Kind.field.errorsAt])
        = live.store.state.node? (handle.path ++ [Kind.field.errorsAt])

/-- What edits did, one after the other. -/
inductive MadeAll (host : Host σ κ) (f : Form κ) :
    List (FieldEdit κ) → World σ κ → LiveForm κ → World σ κ → LiveForm κ → Prop where
  | nil {w : World σ κ} {live : LiveForm κ} (hlive : w.form? f.id = some live) :
    MadeAll host f [] w live w live
  | cons {e : FieldEdit κ} {rest : List (FieldEdit κ)} {w v w' : World σ κ}
      {live between live' : LiveForm κ} (hfirst : e.Made host f w live v between)
      (hrest : MadeAll host f rest v between w' live') : MadeAll host f (e :: rest) w live w' live'

/-- The host code of the edits returns: that of the first one, and that of the others wherever the
first one leads to. -/
def HostReturns (host : Host σ κ) (fuel : Nat) (f : Form κ) : List (FieldEdit κ) → World σ κ → Prop
  | [], _ => True
  | e :: rest, w => (e.handle.editSubmission e.update).HostReturns host fuel f.id w
    ∧ ∀ answer w', (e.program f).run host (fuel + 1) w = .ok (answer, w') →
      HostReturns host fuel f rest w'

section

variable {config : Config κ} {host : Host σ κ} {fuel : Nat} {f : Form κ} {e : FieldEdit κ}
  {w w' : World σ κ} {live : LiveForm κ}

theorem program_eq (h : e.Addresses f) :
    (e.program f : Program σ κ (Except Fault Unit)) = e.handle.edit e.update := by
  unfold program
  split
  · rw [Form.edit, Directory.entry, show f.directory.get? e.name = _ from h]
  · rfl

/-- An edit of a current form succeeds, and the form is current afterwards, with the same
directory. -/
theorem made (hhost : host.Uses (Call.Passive f.id)) (hcurrent : f.Current config w live)
    (he : e.Addresses f)
    (hreturns : (e.handle.editSubmission e.update).HostReturns host fuel f.id w) :
    ∃ w' live', (∀ more > fuel, (e.program f).run host more w = .ok (.ok (), w'))
      ∧ e.Made host f w live w' live' ∧ f.Current config w' live' := by
  obtain ⟨visits, hlists⟩ := Directory.lists_of_read? hcurrent.read
  obtain ⟨v, hv, hregistered⟩ := hlists.of_get? he
  obtain ⟨hfield, hpath⟩ := Visit.of_registered_field hregistered
  have hdefinition : live.store.state.node? e.handle.path = some (.list v.definition) :=
    hpath ▸ hv.stands.definition
  obtain ⟨result, u, w', live', hcompute, hends, hfound, hstate, hversion, hrest⟩ :=
    Program.submitThen_returns hhost hcurrent.found hcurrent.atRest (List.cons_ne_nil _ _) hreturns
  obtain ⟨value, texts, next, hanswers, rfl, hvalidated, hreplaced⟩ :=
    FieldHandle.compute_edit (World.form?_setForm_self hcurrent.found (live.mark true)) hdefinition
      hcompute
  -- the state of the edit is the given one, as only the mark of the dispatch differs
  change live.store.state.replace? _ _ = _ at hreplaced
  have hnext : live'.store.state = next := hstate
  rw [hpath, ← hnext] at hreplaced
  obtain ⟨state', hrewritten⟩ := hv.rewrite config (editedField v.definition value texts)
  obtain rfl : state' = live'.store.state :=
    Option.some.inj (hrewritten.replaced.symm.trans hreplaced)
  have hedited : live'.store.state.node? e.handle.path
      = some (.list (editedField v.definition value texts)) := by
    rw [hpath]
    exact Data.node?_replace? hreplaced
  refine ⟨w', live', fun more hmore => ?_, ⟨hcurrent.found, hfound, hversion, ?_, ?_⟩,
    hfound, hrest, ?_⟩
  · rw [program_eq he, FieldHandle.edit, show e.handle.form = f.id from hcurrent.form_eq he]
    exact hends more hmore
  · refine ⟨_, value, texts, _, u, FieldHandle.valueIn_of_node? hdefinition, hanswers, ?_, ?_,
      hvalidated, fun errors herrors => ?_⟩
    · rw [FieldHandle.valueIn_of_node? hedited, slotAt_editedField_value]
    · rw [Form.valueIn_of_node? he hedited, slotAt_editedField_value]
    · obtain rfl : texts = some errors := herrors
      exact (Data.node?_concat hedited _).trans getElem?_putTexts_self
  · exact fun name handle => hlists.kept_other_field hv hregistered hreplaced
  · exact hrewritten.read?_eq (Visit.alike_edited hfield value texts) (Visit.Sound.edited hfield)
      (not_reachesInside_field hfield _) (not_reachesInside_field hfield _) hcurrent.read

/-- Edits of a current form succeed one after the other, and the form is current afterwards, with
the same directory. -/
theorem madeAll {edits : List (FieldEdit κ)} (hhost : host.Uses (Call.Passive f.id))
    (hcurrent : f.Current config w live) (hedits : ∀ e ∈ edits, e.Addresses f)
    (hreturns : HostReturns host fuel f edits w) :
    ∃ w' live', (∀ more > fuel, (edits.mapM (program f)).run host more w
        = .ok (edits.map fun _ => .ok (), w'))
      ∧ MadeAll host f edits w live w' live' ∧ f.Current config w' live' := by
  induction edits generalizing w live with
  | nil =>
    refine ⟨w, live, fun more hmore => ?_, .nil hcurrent.found, hcurrent⟩
    exact Program.run_done.2 ⟨Nat.zero_lt_of_lt hmore, rfl, rfl⟩
  | cons e rest ih =>
    obtain ⟨v, between, hfirst, hmade, hbetween⟩ :=
      made hhost hcurrent (hedits e (by simp)) hreturns.1
    obtain ⟨w', live', hothers, hall, hcurrent'⟩ :=
      ih hbetween (fun other h => hedits other (by simp [h]))
        (hreturns.2 _ _ (hfirst _ (Nat.lt_succ_self fuel)))
    refine ⟨w', live', fun more hmore => ?_, .cons hmade hall, hcurrent'⟩
    rw [List.mapM_cons, Program.run_bind, Run.bind_of_ok (hfirst more hmore), Program.run_bind,
      Run.bind_of_ok (hothers more hmore)]
    exact Program.run_done.2 ⟨Nat.zero_lt_of_lt hmore, rfl, rfl⟩

/-- If every callback returns, the host code of all edits does. -/
theorem HostReturns.of_host (hhost : host.Returns fuel f.id) (hplaced : w.Placed f.id)
    (edits : List (FieldEdit κ)) : HostReturns host (fuel + 2) f edits w := by
  induction edits generalizing w with
  | nil => trivial
  | cons e rest ih =>
    exact ⟨.of_host hhost hplaced _, fun _ _ hrun => ih (Program.run_placed host _ _ hrun hplaced)⟩

end

end FieldEdit

/-- A form was set up, used in whatever way, and rendered without fault; no host code submits to it,
and the host code of some edits of fields returns.  Then every edit succeeds and does what an edit
does to its field alone, and a further render succeeds with the same directory. -/
theorem field_edits {ρ : Type} {host : Host σ κ} {config : Config κ}
    {r : Node.Renderer (Program σ κ) κ ρ} {handlers : List (HostEvent × κ)} {initial : Data}
    {p : Form κ → Program σ κ (Form κ)} {start fuel : Nat} {f : Form κ} {rendered : Rendered ρ}
    {w₀ w : World σ κ} {edits : List (FieldEdit κ)}
    (hhost : host.Uses (Call.Passive w₀.forms.size)) (hr : r.Uses (Call.Passive w₀.forms.size))
    (hrun : (do (← p (← Form.create config handlers initial)).render config r).run host start w₀
      = .ok ((f, .ok rendered), w)) (hid : f.id = w₀.forms.size)
    (hedits : ∀ e ∈ edits, e.Addresses f) (hreturns : FieldEdit.HostReturns host fuel f edits w) :
    ∃ live w' live', (∀ more > fuel, (edits.mapM (FieldEdit.program f)).run host more w
        = .ok (edits.map fun _ => .ok (), w'))
      ∧ FieldEdit.MadeAll host f edits w live w' live'
      ∧ f.RendersTo config host w' f.directory := by
  obtain ⟨live, hcurrent⟩ := Form.current_of_created hhost hr hrun hid
  obtain ⟨w', live', hends, hmade, hcurrent'⟩ :=
    FieldEdit.madeAll (hid ▸ hhost) hcurrent hedits hreturns
  exact ⟨live, w', live', hends, hmade, Form.rendersTo_of_read? hcurrent'.found hcurrent'.read⟩

/-! ## Two edits -/

namespace Correction

/-- Text fields are validated by the same callback, whatever their rules are. -/
def config : Config Unit where
  fieldTypes := ["text"]
  fallbackField := false
  handled := [.many]
  validator := some fun _ => ()
  templates := []
  settings := {}

/-- An update puts the previous value into a list, and the empty text is an error. -/
def callbacks : Host Unit Unit where
  update _ previous := pure (.list [previous])
  errors _ value := pure (match value with
    | .string "" => ["must be filled"]
    | _ => [])
  listen _ _ _ := pure ()
  handle _ _ _ := pure ()
  follow _ _ _ := pure ()

/-- The render handlers do nothing. -/
def renderer : Node.Renderer (Program Unit Unit) Unit Unit where
  field _ := pure ()
  attr _ _ := pure ()
  block _ _ _ := pure ()
  many _ _ := pure ()
  childForms _ _ := pure ()

/-- A container with a validated field, and a field without a slot for its value. -/
def initial : Data :=
  let rules := .list [.string "object", .list [.list [.string "validation",
    .list [.string "object", .list []]]]]
  let label := .list [.string "field", .list [.string "label", .string "text", .string "x", .null,
    rules]]
  .list [.list [.string "many", .list [.string "items", .string "default", .null, .list [], .list [],
      .list [.list [label]]]],
    .list [.string "field", .list [.string "note", .string "text"]]]

/-- Set up the form and render it. -/
def begin : Program Unit Unit (Form Unit × Except Fault (Rendered Unit)) := do
  (← pure (← Form.create config [] initial)).render config renderer

/-- Empty the validated field by its name, and change the other one with its handle. -/
def edits (label note : FieldHandle Unit) : List (FieldEdit Unit) :=
  [⟨"items.0.label", label, .fixed (.string ""), true⟩, ⟨"note", note, .computed (), false⟩]

theorem callbacks_passive : callbacks.Uses (Call.Passive 0) where
  update _ _ := Program.uses_pure _
  errors _ _ := Program.uses_pure _
  listen _ _ _ := Program.uses_pure _
  handle _ _ _ := Program.uses_pure _
  follow _ _ _ := Program.uses_pure _

theorem callbacks_returns (fuel : Nat) (form : FormId) : callbacks.Returns (fuel + 1) form where
  update _ _ := .of_brief (Program.uses_pure _)
  errors _ _ := .of_brief (Program.uses_pure _)
  listen _ _ := .of_brief (Program.uses_pure _)
  handle _ _ := .of_brief (Program.uses_pure _)
  follow _ _ := .of_brief (Program.uses_pure _)

theorem renderer_passive : renderer.Uses (Call.Passive 0) where
  field _ := Program.uses_pure _
  attr _ _ := Program.uses_pure _
  block _ _ _ := Program.uses_pure _
  many _ _ := Program.uses_pure _
  childForms _ _ := Program.uses_pure _

/-- Both edits were made: the first field has an error, and the value of the second is a list of one
item. -/
def Ended (w : World Unit Unit) : Prop :=
  (w.form? 0).map (fun live => (live.store.version,
    (live.store.state.node? [0, 1, 5, 0, 0, 1, 3]).map Data.texts,
    (live.store.state.node? [1, 1, 2]).map Data.size)) = some (2, some ["must be filled"], some 1)

instance (w : World Unit Unit) : Decidable (Ended w) := inferInstanceAs (Decidable (_ = _))

/-- Whether the form is rendered, and both edits are made. -/
def succeeds : Bool :=
  match begin.run callbacks 6 (.start #[] ()) with
  | .ok ((f, .ok _), w) =>
    match f.directory.field "items.0.label", f.directory.field "note" with
    | .ok label, .ok note =>
      match ((edits label note).mapM (FieldEdit.program f)).run callbacks 6 w with
      | .ok (_, w') => decide (f.id = 0 ∧ Ended w')
      | _ => false
    | _, _ => false
  | _ => false

theorem begin_run : ∃ f rendered w label note answers w',
    begin.run callbacks 6 (.start #[] ()) = .ok ((f, .ok rendered), w)
      ∧ f.id = 0 ∧ f.directory.field "items.0.label" = .ok label
      ∧ f.directory.field "note" = .ok note
      ∧ ((edits label note).mapM (FieldEdit.program f)).run callbacks 6 w = .ok (answers, w')
      ∧ Ended w' := by
  have hcheck : succeeds = true := by decide +kernel
  unfold succeeds at hcheck
  split at hcheck
  · next f rendered w hrun =>
    split at hcheck
    · next label note hlabel hnote =>
      split at hcheck
      · next answers w' hedits =>
        obtain ⟨hid, hended⟩ := of_decide_eq_true hcheck
        exact ⟨f, rendered, w, label, note, answers, w', hrun, hid, hlabel, hnote, hedits, hended⟩
      · cases hcheck
    · cases hcheck
  · cases hcheck

end Correction

open Correction in
theorem field_edits_nested : ∃ f rendered w label note live w' live',
    begin.run callbacks 6 (.start #[] ()) = .ok ((f, .ok rendered), w)
      ∧ (∀ e ∈ edits label note, e.Addresses f)
      ∧ FieldEdit.HostReturns callbacks 5 f (edits label note) w
      ∧ ((edits label note).mapM (FieldEdit.program f)).run callbacks 6 w = .ok ([.ok (), .ok ()], w')
      ∧ FieldEdit.MadeAll callbacks f (edits label note) w live w' live' ∧ Ended w'
      ∧ f.RendersTo config callbacks w' f.directory := by
  obtain ⟨f, rendered, w, label, note, answers, w', hrun, hid, hlabel, hnote, hedited, hended⟩ :=
    begin_run
  have hedits : ∀ e ∈ edits label note, e.Addresses f := by
    rw [edits, List.forall_mem_cons, List.forall_mem_singleton]
    exact ⟨Directory.get?_of_field hlabel, Directory.get?_of_field hnote⟩
  have hplaced : w.Placed f.id := hid ▸ Form.placed_of_created hrun
  have hreturns := FieldEdit.HostReturns.of_host (callbacks_returns 2 f.id) hplaced (edits label note)
  obtain ⟨live, _, live', hends, hmade, hrenders⟩ :=
    field_edits callbacks_passive renderer_passive hrun hid hedits hreturns
  obtain ⟨rfl, rfl⟩ := Program.run_unique hedited (hends 6 (Nat.lt_succ_self 5))
  exact ⟨f, rendered, w, label, note, live, _, live', hrun, hedits, hreturns, hedited, hmade, hended,
    hrenders⟩

end FormTree
