import FormTree.Proofs.Document.Rendering
import FormTree.Proofs.Execution.Passive
import FormTree.Proofs.Validity.Settling

/-!
# Which names a form reports invalid

In a form that reports verdicts, and whose host is discreet, a name is reported invalid exactly if
the last verdict on it had errors.  So a form whose nodes have no errors can still be reported
invalid: a change of a container reports on the container alone, and the last verdicts on what it
took out or moved stay.
-/

namespace FormTree

variable {σ κ α : Type}

/-- The errors of the last verdict on a name. -/
def lastVerdict (verdicts : List (String × List String)) (name : String) : Option (List String) :=
  verdicts.reverse.lookup name

/-! ## Discreet operations -/

section Discreet

variable {form : FormId}

theorem Program.submitThen_discreet (other : FormId) (submission : Submission κ) :
    (submitThen other submission : Program σ κ _).Uses (Call.Discreet form) :=
  (uses_call.2 trivial).bind fun _ => uses_pure _

/-- The operations of handles are discreet: they submit, and leave the reports to the form. -/
theorem FieldHandle.edit_discreet (h : FieldHandle κ) (update : Update κ) :
    (h.edit update : Program σ κ _).Uses (Call.Discreet form) :=
  Program.submitThen_discreet _ _

theorem ContainerHandle.change_discreet (h : ContainerHandle κ) (action : Action κ) :
    (h.change action : Program σ κ _).Uses (Call.Discreet form) :=
  Program.submitThen_discreet _ _

theorem Form.edit_discreet (f : Form κ) (name : String) (update : Update κ) :
    (f.edit name update : Program σ κ _).Uses (Call.Discreet form) := by
  unfold Form.edit
  split
  · exact Program.uses_pure _
  · exact FieldHandle.edit_discreet _ _
  · exact ContainerHandle.change_discreet _ _

end Discreet

/-- A render is as discreet as the render handlers. -/
theorem Form.render_discreet {ρ : Type} {r : Node.Renderer (Program σ κ) κ ρ} {form : FormId}
    (config : Config κ) (f : Form κ) (hr : r.Uses (Call.Discreet form)) :
    (f.render config r).Uses (Call.Discreet form) := by
  refine (Program.uses_call.2 trivial).bind fun view => ?_
  split
  · exact Program.uses_pure _
  · exact (Node.renderAll_uses hr _).bind fun _ => Program.uses_pure _
  · exact (Node.renderAll_uses hr _).bind fun _ => Program.uses_pure _

/-! ## Verdicts that stay -/

/-- A new form is at rest, and has settled the verdicts since its beginning in an empty queue. -/
theorem Form.create_settles {host : Host σ κ} {fuel : Nat} {config : Config κ}
    {handlers : List (HostEvent × κ)} {initial : Data} {f : Form κ} {w v : World σ κ}
    (hverdicts : config.settings.fieldValidity = true)
    (hhost : host.Uses (Call.Discreet w.forms.size))
    (hrun : (Form.create config handlers initial).run host fuel w = .ok (f, v)) :
    f = ⟨w.forms.size, .empty⟩ ∧ ∃ entries live, w.Wrote entries v ∧ Watched w.forms.size v live
      ∧ live.store.dispatching = false
      ∧ live.channels.invalid = (verdictsIn w.forms.size entries).foldl IdQueue.settle .empty := by
  obtain ⟨rfl, _, hemit⟩ := Form.run_create hrun
  have hnew : Watched w.forms.size
      (({ w with forms := w.forms.push (.create config.profile handlers initial) } :
        World σ κ).note (.created w.forms.size handlers initial))
      (.create config.profile handlers initial) :=
    ⟨w.form?_push_self _, Channels.wired_connected.registerAll handlers, hverdicts⟩
  -- neither the host's handlers nor the connections put a name in
  have hempty : (LiveForm.create config.profile handlers initial).channels.invalid = .empty :=
    (Channels.invalid_registerAll ..).trans (Channels.invalid_registerAll ..)
  obtain ⟨entries, live, hwrote, hlive, hrest, hqueue⟩ := Program.run_settles hhost fuel _
    (Program.emit_discreet (by decide) _ _) hemit _ hnew
  refine ⟨rfl, .created w.forms.size handlers initial :: entries, live, ?_, hlive, hrest, ?_⟩
  · rw [World.Wrote, hwrote]
    simp
  · rw [hqueue, hempty]
    rfl

/-- In every run of a new form that reports verdicts, with a discreet host, a name is reported
invalid exactly if the last verdict on it had errors; so no name is exactly if no last verdict had
errors. -/
theorem invalid_iff_lastVerdict {host : Host σ κ} {fuel : Nat} {config : Config κ}
    {handlers : List (HostEvent × κ)} {initial : Data} {p : Form κ → Program σ κ α} {a : α}
    {w w' : World σ κ} (hverdicts : config.settings.fieldValidity = true)
    (hhost : host.Uses (Call.Discreet w.forms.size))
    (hp : (p ⟨w.forms.size, .empty⟩).Uses (Call.Discreet w.forms.size))
    (hrun : (Form.create config handlers initial >>= p).run host fuel w = .ok (a, w')) :
    ∃ entries live', w.Wrote entries w' ∧ w'.form? w.forms.size = some live'
      ∧ live'.store.dispatching = false
      ∧ (∀ name, name ∈ live'.channels.invalid ↔
        ∃ errors, lastVerdict (verdictsIn w.forms.size entries) name = some errors ∧ errors ≠ [])
      ∧ (live'.channels.invalid.size = 0 ↔
        ∀ name errors, lastVerdict (verdictsIn w.forms.size entries) name = some errors →
          errors = []) := by
  obtain ⟨f, v, hcreate, hrest⟩ := Program.run_bind_eq_ok.1 hrun
  obtain ⟨rfl, first, live, hwrote, hlive, hidle, hqueue⟩ :=
    Form.create_settles hverdicts hhost hcreate
  obtain ⟨second, live', hwrote', hlive', hidle', hqueue'⟩ :=
    Program.run_settles hhost fuel _ hp hrest _ hlive
  have hname : ∀ name, name ∈ live'.channels.invalid ↔ ∃ errors,
      lastVerdict (verdictsIn w.forms.size (first ++ second)) name = some errors ∧ errors ≠ [] := by
    intro name
    -- the queue is the fold of all verdicts, those of the creation and those of the program
    rw [hqueue', hqueue, ← List.foldl_append, ← verdictsIn_append, IdQueue.mem_foldl_settle,
      lastVerdict]
    cases (verdictsIn w.forms.size (first ++ second)).reverse.lookup name <;> simp
  refine ⟨first ++ second, live', hwrote.append hwrote', hlive'.found, hidle'.trans hidle, hname, ?_⟩
  rw [IdQueue.size_eq_zero]
  constructor
  · intro hnone name errors hlast
    by_contra herrors
    exact hnone name ((hname name).2 ⟨errors, hlast, herrors⟩)
  · intro hclean name hmem
    obtain ⟨errors, hlast, herrors⟩ := (hname name).1 hmem
    exact herrors (hclean name errors hlast)

/-! ### A name that is gone -/

mutual

/-- The error messages in a node and in everything inside it, of fields and containers. -/
def Node.messages : Node κ → List String
  | .field node => node.errors
  | .attr _ children => Node.messagesAll children
  | .block _ _ children => Node.messagesAll children
  | .many node items => node.errors ++ Node.messagesItems items
  | .childForms node items => node.errors ++ Node.messagesAll items
  | .blank _ => []

/-- The error messages in a list of nodes. -/
def Node.messagesAll : List (Node κ) → List String
  | [] => []
  | node :: rest => node.messages ++ Node.messagesAll rest

/-- The error messages in the items of a `many` container. -/
def Node.messagesItems : List (List (Node κ)) → List String
  | [] => []
  | nodes :: rest => Node.messagesAll nodes ++ Node.messagesItems rest

end

namespace Stale

/-- Text fields are validated by the same callback, whatever their rules are. -/
def config : Config Unit where
  fieldTypes := ["text"]
  fallbackField := false
  handled := [.many]
  validator := some fun _ => ()
  templates := []
  settings := {}

/-- The empty text is an error. -/
def callbacks : Host Unit Unit where
  update _ previous := pure previous
  errors _ value := pure (match value with
    | .string "" => ["must be filled"]
    | _ => [])
  listen _ _ _ := pure ()
  handle _ _ _ := pure ()
  follow _ _ _ := pure ()

/-- The render handlers do nothing. -/
def renderer : Node.Renderer (Program Unit Unit) Unit Unit where
  field _ := pure ()
  attr _ _ := pure ()
  block _ _ _ := pure ()
  many _ _ := pure ()
  childForms _ _ := pure ()

/-- A container with one item, which is one validated field. -/
def initial : Data :=
  let rules := .list [.string "object", .list [.list [.string "validation",
    .list [.string "object", .list []]]]]
  let field := .list [.string "field", .list [.string "label", .string "text", .string "x", .null,
    rules]]
  .list [.list [.string "many", .list [.string "items", .string "default", .null, .list [], .list [],
    .list [.list [field]]]]]

/-- Take the first item of a container out, by name. -/
def takeOut (form : Form Unit) (name : String) : Program Unit Unit (Except Fault Unit) :=
  match form.directory.container .many name with
  | .ok handle => handle.removeItem 0
  | .error e => pure (.error e)

/-- Render, empty the field, take the item out, and render again; which of the four succeeded. -/
def session (form : Form Unit) : Program Unit Unit (List Bool) := do
  let (form, first) ← form.render config renderer
  let edited ← form.edit "items.0.label" (.fixed (.string ""))
  let removed ← takeOut form "items"
  let (_, second) ← form.render config renderer
  return [first.toBool, edited.toBool, removed.toBool, second.toBool]

/-- The form from the beginning. -/
def run : Run Unit Unit (List Bool) :=
  (Form.create config [] initial >>= session).run callbacks 9

theorem callbacks_discreet : callbacks.Uses (Call.Discreet 0) where
  update _ _ := Program.uses_pure _
  errors _ _ := Program.uses_pure _
  listen _ _ _ := Program.uses_pure _
  handle _ _ _ := Program.uses_pure _
  follow _ _ _ := Program.uses_pure _

theorem renderer_discreet : renderer.Uses (Call.Discreet 0) where
  field _ := Program.uses_pure _
  attr _ _ := Program.uses_pure _
  block _ _ _ := Program.uses_pure _
  many _ _ := Program.uses_pure _
  childForms _ _ := Program.uses_pure _

theorem takeOut_discreet (form : Form Unit) (name : String) :
    (takeOut form name).Uses (Call.Discreet 0) := by
  unfold takeOut
  split
  · exact ContainerHandle.change_discreet _ _
  · exact Program.uses_pure _

theorem session_discreet (form : Form Unit) : (session form).Uses (Call.Discreet 0) :=
  (form.render_discreet config renderer_discreet).bind fun _ =>
    (Form.edit_discreet _ _ _).bind fun _ =>
    (takeOut_discreet _ _).bind fun _ =>
    (Form.render_discreet config _ renderer_discreet).bind fun _ => Program.uses_pure _

/-- The nodes of a state, if it can be read. -/
def nodes (state : Data) : Option (List (Node Unit)) :=
  (Node.readForm config 0 state).bind Except.toOption

theorem readForm_of_nodes {state : Data} {found : List (Node Unit)} (h : nodes state = some found) :
    Node.readForm config 0 state = some (.ok found) := by
  obtain ⟨result, hread, hresult⟩ := Option.bind_eq_some_iff.1 h
  rw [hread, toOption_eq_some.1 hresult]

/-- The conditions of the end of the run: the form is at rest, only the container can be addressed,
without messages, and one name is reported invalid, on which the last verdict had errors. -/
structure Ended (w : World Unit Unit) (live : LiveForm Unit) (nodes : List (Node Unit)) : Prop where
  atRest : live.store.dispatching = false
  messages : Node.messagesAll nodes = []
  entries : (Node.entriesAll nodes).map (fun entry => (entry.1, entry.2.path)) = [("items", [0, 1])]
  size : live.channels.invalid.size = 1
  verdict : lastVerdict (verdictsIn 0 w.journal.reverse) "items.0.label" = some ["must be filled"]

instance (w : World Unit Unit) (live : LiveForm Unit) (nodes : List (Node Unit)) :
    Decidable (Ended w live nodes) :=
  decidable_of_iff (live.store.dispatching = false ∧ Node.messagesAll nodes = []
      ∧ (Node.entriesAll nodes).map (fun entry => (entry.1, entry.2.path)) = [("items", [0, 1])]
      ∧ live.channels.invalid.size = 1
      ∧ lastVerdict (verdictsIn 0 w.journal.reverse) "items.0.label" = some ["must be filled"])
    ⟨fun ⟨h₁, h₂, h₃, h₄, h₅⟩ => ⟨h₁, h₂, h₃, h₄, h₅⟩,
      fun h => ⟨h.atRest, h.messages, h.entries, h.size, h.verdict⟩⟩

/-- The run comes to its end, and the name of the field that is gone is still reported invalid. -/
theorem run_start : ∃ w' live' found, run (.start #[] ()) = .ok ([true, true, true, true], w')
    ∧ w'.form? 0 = some live' ∧ Node.readForm config 0 live'.store.state = some (.ok found)
    ∧ Ended w' live' found := by
  have hcheck : (run (.start #[] ())).toOption.any (fun result =>
      result.1 = [true, true, true, true] && (result.2.form? 0).any fun live =>
        (nodes live.store.state).any fun found => Ended result.2 live found) = true := by
    decide +kernel
  obtain ⟨⟨answers, w'⟩, hrun, hends⟩ := (Option.any_eq_true ..).1 hcheck
  obtain ⟨hanswers, hends⟩ := Bool.and_eq_true_iff.1 hends
  obtain ⟨live', hlive, hends⟩ := (Option.any_eq_true ..).1 hends
  obtain ⟨found, hfound, hends⟩ := (Option.any_eq_true ..).1 hends
  obtain rfl := of_decide_eq_true hanswers
  exact ⟨w', live', found, toOption_eq_some.1 hrun, hlive, readForm_of_nodes hfound,
    of_decide_eq_true hends⟩

/-- The form begins without messages. -/
theorem initial_nodes : ∃ found, Node.readForm config 0 initial = some (.ok found)
    ∧ Node.messagesAll found = [] := by
  have hcheck : (nodes initial).map Node.messagesAll = some [] := by decide +kernel
  obtain ⟨found, hfound, hmessages⟩ := Option.map_eq_some_iff.1 hcheck
  exact ⟨found, readForm_of_nodes hfound, hmessages⟩

end Stale

open Stale in
theorem invalid_iff_lastVerdict_stale : ∃ w' entries live',
    run (.start #[] ()) = .ok ([true, true, true, true], w')
      ∧ (World.start #[] ()).Wrote entries w' ∧ w'.form? 0 = some live'
      ∧ lastVerdict (verdictsIn 0 entries) "items.0.label" = some ["must be filled"]
      ∧ "items.0.label" ∈ live'.channels.invalid := by
  obtain ⟨w', _, _, hrun, -, -, hends⟩ := run_start
  obtain ⟨entries, live', hwrote, hlive', -, hname, -⟩ :=
    invalid_iff_lastVerdict (p := session) (w := .start #[] ()) rfl callbacks_discreet
      (session_discreet _) hrun
  have hjournal : w'.journal.reverse = entries := by
    rw [World.Wrote] at hwrote
    simp [hwrote, World.start]
  have hlast := hends.verdict
  rw [hjournal] at hlast
  exact ⟨w', entries, live', hrun, hwrote, hlive', hlast,
    (hname "items.0.label").2 ⟨_, hlast, List.cons_ne_nil _ _⟩⟩

open Stale in
/-- No node of the form has errors, neither in the beginning nor in the end, but the name of the
field that was taken out is still reported invalid. -/
theorem stale_name : ∃ w' live' first last,
    run (.start #[] ()) = .ok ([true, true, true, true], w')
      ∧ Node.readForm config 0 initial = some (.ok first) ∧ Node.messagesAll first = []
      ∧ w'.form? 0 = some live' ∧ live'.store.dispatching = false
      ∧ Node.readForm config 0 live'.store.state = some (.ok last) ∧ Node.messagesAll last = []
      ∧ (Node.entriesAll last).map (fun entry => (entry.1, entry.2.path)) = [("items", [0, 1])]
      ∧ live'.channels.invalid.size = 1 := by
  obtain ⟨w', live', last, hrun, hlive, hread, hends⟩ := run_start
  obtain ⟨first, hfirst, hmessages⟩ := initial_nodes
  exact ⟨w', live', first, last, hrun, hfirst, hmessages, hlive, hends.atRest, hread, hends.messages,
    hends.entries, hends.size⟩

end FormTree
