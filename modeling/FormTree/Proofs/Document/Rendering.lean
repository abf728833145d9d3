import FormTree.Form.Basic
import FormTree.Proofs.Document.Names
import FormTree.Proofs.Document.Reading
import FormTree.Proofs.Execution.Progress

/-!
# What a render does

A render that succeeds visits the nodes of the form in the order of the document.  It calls the
render handler of every node that is not blank exactly once, and its directory has the fields and
containers under their name paths.
-/

namespace FormTree

section

variable {σ κ ρ : Type} {host : Host σ κ} {fuel : Nat} {config : Config κ} {form : FormId}

/-! ## Calls of render handlers -/

/-- The program that a render handler gives for a call, with some outputs for the nodes inside. -/
inductive Handed.Answered (r : Node.Renderer (Program σ κ) κ ρ) : Handed κ → Program σ κ ρ → Prop where
  | field (node : FieldNode κ) : Answered r (.field node) (r.field node)
  | attr (node : AttrNode) (children : List (Option ρ)) : Answered r (.attr node) (r.attr node children)
  | block (kind : Kind) (node : BlockNode) (children : List (Option ρ)) :
    Answered r (.block kind node) (r.block kind node children)
  | many (node : ContainerNode κ) (items : List (List (Option ρ))) :
    Answered r (.many node) (r.many node items)
  | childForms (node : ContainerNode κ) (items : List (Option ρ)) :
    Answered r (.childForms node) (r.childForms node items)

/-- Render handlers are called, one after the other, and nothing happens between the calls. -/
inductive Called (host : Host σ κ) (fuel : Nat) (r : Node.Renderer (Program σ κ) κ ρ) :
    List (Handed κ) → World σ κ → World σ κ → Prop where
  | nil (w : World σ κ) : Called host fuel r [] w w
  | cons {call : Handed κ} {rest : List (Handed κ)} {p : Program σ κ ρ} {output : ρ}
      {w u w' : World σ κ} (hanswer : call.Answered r p) (hrun : p.run host fuel w = .ok (output, u))
      (hrest : Called host fuel r rest u w') : Called host fuel r (call :: rest) w w'

section Calls

variable {r : Node.Renderer (Program σ κ) κ ρ} {w u w' : World σ κ} {calls others : List (Handed κ)}

theorem Called.append (h : Called host fuel r calls w u) (h' : Called host fuel r others u w') :
    Called host fuel r (calls ++ others) w w' := by
  induction h with
  | nil _ => exact h'
  | cons hanswer hrun _ ih => exact .cons hanswer hrun (ih h')

theorem Called.single {call : Handed κ} {p : Program σ κ ρ} {output : ρ} (hanswer : call.Answered r p)
    (hrun : p.run host fuel w = .ok (output, w')) : Called host fuel r [call] w w' :=
  .cons hanswer hrun (.nil w')

open Program in
/-- A handler is called after the calls for the nodes inside. -/
theorem Called.enclose {α : Type} {inside : Program σ κ α} {p : α → Program σ κ ρ} {call : Handed κ}
    {output : Option ρ} (hinside : ∀ {children u},
      inside.run host fuel w = .ok (children, u) → Called host fuel r calls w u)
    (hanswer : ∀ children, call.Answered r (p children))
    (hrun : (inside >>= fun children => p children >>= fun output => pure (some output)).run
      host fuel w = .ok (output, w')) : Called host fuel r (calls ++ [call]) w w' := by
  obtain ⟨children, u, hchildren, hrest⟩ := run_bind_eq_ok.1 hrun
  obtain ⟨_, v, hcall, hdone⟩ := run_bind_eq_ok.1 hrest
  obtain ⟨-, -, rfl⟩ := run_done.1 hdone
  exact (hinside hchildren).append (.single (hanswer children) hcall)

end Calls

open Program in
mutual

/-- Rendering a node calls the handlers for everything inside it, and then its own. -/
theorem Node.render_called {r : Node.Renderer (Program σ κ) κ ρ} (node : Node κ)
    {output : Option ρ} {w w' : World σ κ}
    (h : (node.render r).run host fuel w = .ok (output, w')) :
    Called host fuel r node.handed w w' := by
  match node, h with
  | .field node, h =>
    obtain ⟨_, u, hcall, hdone⟩ := run_bind_eq_ok.1 h
    obtain ⟨-, -, rfl⟩ := run_done.1 hdone
    exact .single (.field node) hcall
  | .attr node children, h =>
    exact .enclose (Node.renderAll_called children) (.attr node) h
  | .block kind node children, h =>
    exact .enclose (Node.renderAll_called children) (.block kind node) h
  | .many node items, h =>
    exact .enclose (Node.renderItems_called items) (.many node) h
  | .childForms node items, h =>
    exact .enclose (Node.renderAll_called items) (.childForms node) h
  | .blank _, h =>
    obtain ⟨-, -, rfl⟩ := run_done.1 h
    exact .nil w

theorem Node.renderAll_called {r : Node.Renderer (Program σ κ) κ ρ} (nodes : List (Node κ))
    {outputs : List (Option ρ)} {w w' : World σ κ}
    (h : (Node.renderAll r nodes).run host fuel w = .ok (outputs, w')) :
    Called host fuel r (Node.handedAll nodes) w w' := by
  match nodes, h with
  | [], h =>
    obtain ⟨-, -, rfl⟩ := run_done.1 h
    exact .nil w
  | node :: rest, h =>
    obtain ⟨_, u, hfirst, hrest⟩ := run_bind_eq_ok.1 h
    obtain ⟨_, v, hothers, hdone⟩ := run_bind_eq_ok.1 hrest
    obtain ⟨-, -, rfl⟩ := run_done.1 hdone
    exact (Node.render_called node hfirst).append (Node.renderAll_called rest hothers)

theorem Node.renderItems_called {r : Node.Renderer (Program σ κ) κ ρ} (items : List (List (Node κ)))
    {outputs : List (List (Option ρ))} {w w' : World σ κ}
    (h : (Node.renderItems r items).run host fuel w = .ok (outputs, w')) :
    Called host fuel r (Node.handedItems items) w w' := by
  match items, h with
  | [], h =>
    obtain ⟨-, -, rfl⟩ := run_done.1 h
    exact .nil w
  | nodes :: rest, h =>
    obtain ⟨_, u, hfirst, hrest⟩ := run_bind_eq_ok.1 h
    obtain ⟨_, v, hothers, hdone⟩ := run_bind_eq_ok.1 hrest
    obtain ⟨-, -, rfl⟩ := run_done.1 hdone
    exact (Node.renderAll_called nodes hfirst).append (Node.renderItems_called rest hothers)

end

/-! ## What render handlers use -/

/-- Every render handler uses only calls of a kind. -/
structure Node.Renderer.Uses {ρ : Type} (r : Node.Renderer (Program σ κ) κ ρ)
    (allowed : Call σ κ → Prop) : Prop where
  field : ∀ node, (r.field node).Uses allowed
  attr : ∀ node children, (r.attr node children).Uses allowed
  block : ∀ kind node children, (r.block kind node children).Uses allowed
  many : ∀ node items, (r.many node items).Uses allowed
  childForms : ∀ node items, (r.childForms node items).Uses allowed

section Uses

variable {r : Node.Renderer (Program σ κ) κ ρ} {allowed : Call σ κ → Prop}

mutual

/-- Rendering a node uses what the render handlers use. -/
theorem Node.render_uses (hr : r.Uses allowed) : ∀ node : Node κ, (node.render r).Uses allowed
  | .field node => (hr.field node).bind fun _ => Program.uses_pure _
  | .attr _ children => (Node.renderAll_uses hr children).bind fun _ =>
    (hr.attr ..).bind fun _ => Program.uses_pure _
  | .block _ _ children => (Node.renderAll_uses hr children).bind fun _ =>
    (hr.block ..).bind fun _ => Program.uses_pure _
  | .many _ items => (Node.renderItems_uses hr items).bind fun _ =>
    (hr.many ..).bind fun _ => Program.uses_pure _
  | .childForms _ items => (Node.renderAll_uses hr items).bind fun _ =>
    (hr.childForms ..).bind fun _ => Program.uses_pure _
  | .blank _ => Program.uses_pure _

theorem Node.renderAll_uses (hr : r.Uses allowed) :
    ∀ nodes : List (Node κ), (Node.renderAll r nodes).Uses allowed
  | [] => Program.uses_pure _
  | node :: rest => (Node.render_uses hr node).bind fun _ =>
    (Node.renderAll_uses hr rest).bind fun _ => Program.uses_pure _

theorem Node.renderItems_uses (hr : r.Uses allowed) :
    ∀ items : List (List (Node κ)), (Node.renderItems r items).Uses allowed
  | [] => Program.uses_pure _
  | nodes :: rest => (Node.renderAll_uses hr nodes).bind fun _ =>
    (Node.renderItems_uses hr rest).bind fun _ => Program.uses_pure _

end

end Uses

/-! ## The names of a form -/

/-- The nodes that can be addressed. -/
def Kind.Addressable (kind : Kind) : Prop := kind = .field ∨ kind = .many ∨ kind = .manyChildForms

theorem Visit.registered_isSome (v : Visit) :
    (v.registered config form).isSome ↔ v.kind.Addressable := by
  rw [registered, Option.isSome_map, entry?, Kind.Addressable]
  cases v.kind <;> simp

/-- What a visit registers is registered under the name path of the visit, at its path and for its
kind. -/
theorem Visit.of_registered {v : Visit} {name : String} {entry : Entry κ}
    (h : v.registered config form = some (name, entry)) :
    name = v.namePath config.settings.nameSeparator ∧ entry.path = v.path ∧ entry.kind = v.kind
      ∧ v.kind.Named := by
  obtain ⟨found, hfound, hpair⟩ := Option.map_eq_some_iff.1 h
  obtain ⟨rfl, rfl⟩ := Prod.mk.inj hpair
  obtain ⟨path, above, kind, definition⟩ := v
  cases kind with
  | field | many | manyChildForms =>
    cases hfound
    exact ⟨rfl, rfl, rfl, trivial⟩
  | attr | compoundField | sect | group | childForm => cases hfound

/-- What stands at the path of an entry: a definition with the last segment of the name in its first
slot, behind the tag of the entry's kind. -/
structure Entry.Stands (entry : Entry κ) (separator name : String) (state : Data) : Prop where
  definition : ∃ definition above last, state.node? entry.path = some (.list definition)
    ∧ definition[Kind.nameAt]? = some (.string last)
    ∧ name = separator.intercalate (above ++ [last])
  tag : ∃ node, state.node? entry.path.dropLast = some (.list node)
    ∧ node[0]? = some (.string entry.kind.tag)

/-- What a render does that succeeds: from the world in which it has looked at the form to the world
it leaves. -/
structure Rendering (host : Host σ κ) (fuel : Nat) (config : Config κ)
    (r : Node.Renderer (Program σ κ) κ ρ) (f : Form κ) (state : Data) (visits : List Visit)
    (w : World σ κ) (f' : Form κ) (w' : World σ κ) : Prop where
  /-- The nodes of the form are visited in the order of the document. -/
  itinerary : Itinerary state visits
  /-- The nodes that can be addressed are registered one after the other, each under its name path,
  in the place of what was registered under it before. -/
  directory : f'.directory = (visits.filterMap (Visit.registered config f.id)).foldl
    (fun m entry => m.insert entry.1 entry.2) .empty
  addressable : ∀ v : Visit, (v.registered config f.id).isSome ↔ v.kind.Addressable
  /-- Every entry leads to the node that it names. -/
  stands : ∀ name entry, (name, entry) ∈ f'.directory.entries →
    entry.Stands config.settings.nameSeparator name state
  /-- The render handlers are called in the order of the visits, once for each node that is not
  blank, and nothing happens between the calls. -/
  called : Called host fuel r (visits.filterMap (Visit.handed? config f.id)) w w'
  complete : ∀ v ∈ visits, (v.handed? config f.id).isSome ↔ ¬ v.Blank
  id : f'.id = f.id

/-- Nodes that cover a form make a rendering, if the calls and the directory are made of them. -/
theorem Rendering.of_covers {r : Node.Renderer (Program σ κ) κ ρ} {f f' : Form κ} {state : Data}
    {visits : List Visit} {nodes : List (Node κ)} {w w' : World σ κ}
    (h : Covers config f.id state.Reached visits nodes)
    (hdirectory : f'.directory = .ofList (Node.entriesAll nodes))
    (hcalled : Called host fuel r (Node.handedAll nodes) w w') (hid : f'.id = f.id) :
    Rendering host fuel config r f state visits w f' w' where
  itinerary := ⟨h.mem, h.ordered⟩
  directory := by rw [hdirectory, h.entries]; rfl
  addressable v := v.registered_isSome
  stands name entry hentry := by
    rw [hdirectory, h.entries] at hentry
    obtain ⟨v, hv, hregistered⟩ := List.mem_filterMap.1 (Directory.mem_ofList hentry)
    obtain ⟨hname, hpath, hkind, hnamed⟩ := Visit.of_registered hregistered
    have hstands := Data.Reached.stands ((h.mem v).1 hv)
    constructor
    · rw [hpath]
      exact ⟨v.definition, v.above, v.name, hstands.definition, ((h.complete v hv).named hnamed).1,
        hname⟩
    · rw [hpath, hkind]
      exact hstands.tag
  called := by rwa [← h.handed]
  complete v hv := (h.complete v hv).handed
  id := hid

/-- A render that succeeds visits the nodes of the form that it looked at, and makes the directory of
them. -/
theorem render_directory {r : Node.Renderer (Program σ κ) κ ρ} {f f' : Form κ}
    {rendered : Rendered ρ} {w w' : World σ κ}
    (hrun : (f.render config r).run host fuel w = .ok ((f', .ok rendered), w')) :
    ∃ live visits, w.form? f.id = some live ∧ Rendering host fuel config r f live.store.state visits
      (w.note (.looked f.id live.store.view)) f' w' := by
  obtain ⟨view, u, hlook, hrest⟩ := Program.run_bind_eq_ok.1 hrun
  obtain ⟨live, hlive, rfl, rfl⟩ := Program.run_look hlook
  refine ⟨live, ?_⟩
  split at hrest
  · -- the state is not a list, and nothing is reached
    next hnone =>
    obtain ⟨-, hresult, rfl⟩ := Program.run_done.1 hrest
    obtain ⟨rfl, -⟩ := Prod.mk.inj hresult
    exact ⟨[], hlive, .of_covers (readForm_none_covers hnone) rfl (.nil _) rfl⟩
  · obtain ⟨_, v, -, hdone⟩ := Program.run_bind_eq_ok.1 hrest
    obtain ⟨-, hresult, -⟩ := Program.run_done.1 hdone
    cases (Prod.mk.inj hresult).2
  · next nodes hnodes =>
    obtain ⟨_, v, hcalls, hdone⟩ := Program.run_bind_eq_ok.1 hrest
    obtain ⟨-, hresult, rfl⟩ := Program.run_done.1 hdone
    obtain ⟨rfl, -⟩ := Prod.mk.inj hresult
    obtain ⟨visits, hcovers⟩ := readForm_covers hnodes
    exact ⟨visits, hlive, .of_covers hcovers rfl (Node.renderAll_called nodes hcalls) rfl⟩

end

/-! ## A form with nested nodes -/

namespace Nested

/-- Text fields, and the kinds of nodes that the form has. -/
def config : Config Unit where
  fieldTypes := ["text"]
  fallbackField := false
  handled := [.attr, .many, .sect]
  validator := none
  templates := []
  settings := {}

/-- Nothing calls back. -/
def callbacks : Host Nat Unit where
  update _ previous := pure previous
  errors _ _ := pure []
  listen _ _ _ := pure ()
  handle _ _ _ := pure ()
  follow _ _ _ := pure ()

/-- What a render handler does: it counts its call. -/
def count : Program Nat Unit Unit := do Program.setMemory ((← Program.memory) + 1)

/-- The render handlers count their calls. -/
def renderer : Node.Renderer (Program Nat Unit) Unit Unit where
  field _ := count
  attr _ _ := count
  block _ _ _ := count
  many _ _ := count
  childForms _ _ := count

/-- A text field. -/
def field (name : String) : Data :=
  .list [.string "field", .list [.string name, .string "text"]]

/-- A section with a container of two items, and a group with nothing inside. -/
def state : Data :=
  let phones := .list [.string "many", .list [.string "phones", .string "default", .null, .null,
    .list [field "template"], .list [.list [field "number"], .list [field "number"]]]]
  let person := .list [.string "attr", .list [.string "person", .string "default", .null, .null,
    .list [phones]]]
  .list [.list [.string "section", .list [.string "data", .string "default", .null, .list [person]]],
    .list [.string "group", .list [.string "row", .null, .list []]]]

/-- The form alone. -/
def start : World Nat Unit :=
  .start #[{ store := .create state .queue false, channels := .unwired, profile := {} }] 0

end Nested

open Nested in
theorem render_directory_nested : ∃ f' rendered w' visits,
    (Form.render config renderer ⟨0, .empty⟩).run callbacks 3 start = .ok ((f', .ok rendered), w')
      ∧ Rendering callbacks 3 config renderer ⟨0, .empty⟩ state visits
        (start.note (.looked 0 (Store.create state .queue false : Store Unit).view)) f' w'
      ∧ f'.directory.entries.map (fun entry => (entry.1, entry.2.path))
        = [("person.phones.0.number", [0, 1, 3, 0, 1, 4, 0, 1, 5, 0, 0, 1]),
          ("person.phones.1.number", [0, 1, 3, 0, 1, 4, 0, 1, 5, 1, 0, 1]),
          ("person.phones", [0, 1, 3, 0, 1, 4, 0, 1])]
      ∧ w'.memory = 5 := by
  have hcheck : ((Form.render config renderer ⟨0, .empty⟩).run callbacks 3 start).toOption.any
      (fun result => result.1.2.toOption.isSome
        ∧ result.1.1.directory.entries.map (fun entry => (entry.1, entry.2.path))
          = [("person.phones.0.number", [0, 1, 3, 0, 1, 4, 0, 1, 5, 0, 0, 1]),
            ("person.phones.1.number", [0, 1, 3, 0, 1, 4, 0, 1, 5, 1, 0, 1]),
            ("person.phones", [0, 1, 3, 0, 1, 4, 0, 1])]
        ∧ result.2.memory = 5) = true := by decide +kernel
  obtain ⟨⟨⟨f', result⟩, w'⟩, hrun, hcheck⟩ := (Option.any_eq_true ..).1 hcheck
  obtain ⟨hresult, hcheck⟩ := of_decide_eq_true hcheck
  obtain ⟨rendered, hrendered⟩ := Option.isSome_iff_exists.1 hresult
  obtain rfl : result = .ok rendered := toOption_eq_some.1 hrendered
  rw [toOption_eq_some] at hrun
  obtain ⟨live, visits, hlive, hrendering⟩ := render_directory hrun
  cases hlive
  exact ⟨f', rendered, w', visits, hrun, hrendering, hcheck⟩

end FormTree
