import FormTree.Proofs.Editing.Fields

/-!
# Two ways to look a value up

The value of a name can be asked from the form, which goes through its directory to a path, or from the
handle that the directory has under the name.  Both read the state as it is now, at the path that the
node had at the last render; after an edit of the structure there may be another node at that path, or
none.  `lookups_agree_iff` says when the two answers agree: always for a container, and for a field as
long as its path leads somewhere.  Where it leads nowhere the handle fails, as do both lookups of a
container, but the form answers null for a field.
-/

namespace FormTree

variable {σ κ : Type}

/-! ## In a state -/

namespace Entry

/-- What the handle of a node reads in a state: the value of a field, or the items of a container. -/
def valueIn (entry : Entry κ) (state : Data) : Except Fault Json :=
  match entry with
  | .field handle => (handle.valueIn state).map Data.toJson
  | .container handle => handle.itemsIn state

/-- What the handle of a node reads now. -/
def value (entry : Entry κ) : Program σ κ (Except Fault Json) :=
  match entry with
  | .field handle => return (← handle.value).map Data.toJson
  | .container handle => handle.items

end Entry

section States

variable {f : Form κ} {state : Data} {name : String} {entry : Entry κ} {handle : FieldHandle κ}

/-- A handle finds nothing at a path that leads nowhere. -/
theorem Entry.valueIn_of_none (hnone : state.node? entry.path = none) :
    entry.valueIn state = .error (.pathNotFound entry.path) := by
  cases entry with
  | field handle =>
    rw [valueIn, FieldHandle.valueIn, locate, show state.node? handle.path = none from hnone]
    rfl
  | container handle =>
    rw [valueIn, ContainerHandle.itemsIn, locate, show state.node? handle.path = none from hnone]
    rfl

/-- A form reads what the handle of a field reads, and null if that fails. -/
theorem Form.valueIn_field (hname : f.directory.get? name = some (.field handle)) :
    f.valueIn state name
      = .ok (((handle.valueIn state).toOption.map Data.toJson).getD .null) := by
  have hslot : state.node? (handle.path ++ [Kind.valueAt])
      = (state.node? handle.path).bind (Data.child? · Kind.valueAt) := by
    cases hnode : state.node? handle.path with
    | none => rw [Data.node?_append, hnode, Option.bind_none, Option.bind_none]
    | some definition => rw [Data.node?_concat hnode, Option.bind_some]
  rw [Form.valueIn, Directory.entry, hname]
  change Except.ok (((state.node? (handle.path ++ [Kind.valueAt])).map Data.toJson).getD .null) = _
  rw [hslot, FieldHandle.valueIn, locate]
  cases state.node? handle.path with
  | none => rfl
  | some definition =>
    change _ = Except.ok (((definition.child? Kind.valueAt).getD .null).toJson)
    rw [Option.bind_some]
    cases definition.child? Kind.valueAt <;> rfl

theorem Form.valueIn_container {handle : ContainerHandle κ}
    (hname : f.directory.get? name = some (.container handle)) :
    f.valueIn state name = handle.itemsIn state := by
  rw [Form.valueIn, Directory.entry, hname]
  rfl

/-- For a field whose path leads nowhere a form answers null. -/
theorem Form.valueIn_of_none (hname : f.directory.get? name = some entry)
    (hsort : entry.sort = .field) (hnone : state.node? entry.path = none) :
    f.valueIn state name = .ok .null := by
  cases entry with
  | container handle => cases hsort
  | field handle =>
    rw [valueIn_field hname, FieldHandle.valueIn, locate,
      show state.node? handle.path = none from hnone]
    rfl

/-- In a state the two lookups agree unless the name belongs to a field whose path leads nowhere. -/
theorem Form.valueIn_eq_iff (hname : f.directory.get? name = some entry) :
    f.valueIn state name = entry.valueIn state
      ↔ (entry.sort = .field → (state.node? entry.path).isSome) := by
  cases entry with
  | container handle => exact iff_of_true (valueIn_container hname) fun hsort => nomatch hsort
  | field handle =>
    cases hnode : state.node? (Entry.field handle).path with
    | none =>
      rw [valueIn_of_none hname rfl hnode, Entry.valueIn_of_none hnode]
      exact iff_of_false (fun h => nomatch h) fun h => nomatch h rfl
    | some definition =>
      rw [valueIn_field hname, Entry.valueIn, FieldHandle.valueIn, locate,
        show state.node? handle.path = some definition from hnode]
      exact iff_of_true rfl fun _ => rfl

end States

/-! ## In a run -/

section Runs

variable {host : Host σ κ} {fuel : Nat} {form : FormId} {f : Form κ} {w : World σ κ}
  {live : LiveForm κ} {name : String} {entry : Entry κ}

/-- A program that looks at a form and answers from its state leaves no trace but the look. -/
theorem Program.run_look_pure {α : Type} (answer : Data → α) (hlive : w.form? form = some live) :
    (do return answer (← look form).state : Program σ κ α).run host (fuel + 1) w
      = .ok (answer live.store.state, w.note (.looked form live.store.view)) := by
  have hlook : (look form).run host (fuel + 1) w
      = .ok (live.store.view, w.note (.looked form live.store.view)) :=
    (congrFun (run_call (.look form)) w).trans (Run.perform_look hlive)
  rw [run_bind, Run.bind_of_ok hlook]
  rfl

theorem Form.run_value (hlive : w.form? f.id = some live) :
    (f.value name).run host (fuel + 1) w
      = .ok (f.valueIn live.store.state name, w.note (.looked f.id live.store.view)) :=
  Program.run_look_pure (f.valueIn · name) hlive

theorem Entry.run_value (hlive : w.form? entry.form = some live) :
    entry.value.run host (fuel + 1) w
      = .ok (entry.valueIn live.store.state, w.note (.looked entry.form live.store.view)) := by
  cases entry with
  | field handle =>
    exact Program.run_look_pure (fun state => (handle.valueIn state).map Data.toJson) hlive
  | container handle => exact Program.run_look_pure handle.itemsIn hlive

/-- The handles of a directory that a render made act on the form. -/
theorem Form.form_of_render {ρ : Type} {config : Config κ} {r : Node.Renderer (Program σ κ) κ ρ}
    {f₀ : Form κ} {rendered : Rendered ρ} {w' : World σ κ}
    (hrender : (f₀.render config r).run host fuel w = .ok ((f, .ok rendered), w'))
    (hname : f.directory.get? name = some entry) : entry.form = f.id := by
  obtain ⟨_, -, hid, hread⟩ := Form.read?_of_render hrender
  obtain ⟨_, hlists⟩ := Directory.lists_of_read? hread
  obtain ⟨v, -, hregistered⟩ := hlists.of_get? hname
  rw [Visit.form_of_registered hregistered, hid]

end Runs

/-- Let a form be rendered without fault, and then let anything happen.  The lookup of a name in the
form and the one with the handle that the directory has under the name both answer, and leave the same
world.  They give the same answer exactly if the name does not belong to a field or the path of the
handle leads somewhere in the current state.  Where it leads nowhere, the handle fails with that path,
and for a field the form answers null. -/
theorem lookups_agree_iff {α ρ : Type} {host : Host σ κ} {config : Config κ}
    {r : Node.Renderer (Program σ κ) κ ρ} {f₀ f : Form κ} {rendered : Rendered ρ}
    {p : Program σ κ α} {a : α} {w₀ w₁ w : World σ κ} {fuel fuel' : Nat} {name : String}
    {entry : Entry κ}
    (hrender : (f₀.render config r).run host fuel w₀ = .ok ((f, .ok rendered), w₁))
    (hlater : p.run host fuel' w₁ = .ok (a, w)) (hname : f.directory.get? name = some entry) :
    ∃ live, w.form? f.id = some live ∧ ∀ depth, ∃ byName byHandle w',
      (f.value name).run host (depth + 1) w = .ok (byName, w')
      ∧ entry.value.run host (depth + 1) w = .ok (byHandle, w')
      ∧ (byName = byHandle
        ↔ (entry.sort = .field → (live.store.state.node? entry.path).isSome))
      ∧ (live.store.state.node? entry.path = none →
        byHandle = .error (.pathNotFound entry.path) ∧ (entry.sort = .field → byName = .ok .null)) := by
  obtain ⟨seen, hseen, hid, -⟩ := Form.read?_of_render hrender
  rw [← hid] at hseen
  obtain ⟨-, between, -, hbetween, -⟩ := Program.run_growing f.id host fuel _ hrender seen hseen
  obtain ⟨-, live, -, hlive, -⟩ := Program.run_growing f.id host fuel' _ hlater between hbetween
  refine ⟨live, hlive, fun depth => ⟨_, _, _, Form.run_value hlive, ?_,
    Form.valueIn_eq_iff hname, fun hnone =>
      ⟨Entry.valueIn_of_none hnone, fun hsort => Form.valueIn_of_none hname hsort hnone⟩⟩⟩
  rw [← Form.form_of_render hrender hname] at hlive ⊢
  exact Entry.run_value hlive

/-! ## After a removal -/

namespace Lost

open Correction (callbacks config renderer)

/-- A field with a text. -/
def field (name value : String) : Data :=
  .list [.string "field", .list [.string name, .string "text", .string value]]

/-- Two fields. -/
def initial : Data := .list [field "a" "1", field "b" "2"]

/-- Set up the form and render it. -/
def begin : Program Unit Unit (Form Unit × Except Fault (Rendered Unit)) := do
  (← Form.create config [] initial).render config renderer

/-- Whether the form is rendered and the first field is removed, and there is then something at the
path that it had, and nothing at that of the second. -/
def succeeds : Bool :=
  match begin.run callbacks 6 (.start #[] ()) with
  | .ok ((f, .ok _), w) =>
    match f.directory.field "a", f.directory.field "b" with
    | .ok first, .ok second =>
      match first.remove.run callbacks 6 w with
      | .ok (_, w') => (w'.form? f.id).any fun live =>
        decide ((live.store.state.node? first.path).isSome
          ∧ (live.store.state.node? second.path).isNone ∧ second.path = [1, 1])
      | _ => false
    | _, _ => false
  | _ => false

theorem begin_run : ∃ (f₀ f : Form Unit) (rendered : Rendered Unit) (w₀ w : World Unit Unit)
      (first second : FieldHandle Unit) (answer : Except Fault Unit) (w' : World Unit Unit)
      (live : LiveForm Unit),
    (Form.create config [] initial).run callbacks 6 (.start #[] ()) = .ok (f₀, w₀)
      ∧ (f₀.render config renderer).run callbacks 6 w₀ = .ok ((f, .ok rendered), w)
      ∧ f.directory.field "a" = .ok first ∧ f.directory.field "b" = .ok second
      ∧ first.remove.run callbacks 6 w = .ok (answer, w') ∧ w'.form? f.id = some live
      ∧ (live.store.state.node? first.path).isSome
      ∧ (live.store.state.node? second.path).isNone ∧ second.path = [1, 1] := by
  have hcheck : succeeds = true := by decide +kernel
  unfold succeeds at hcheck
  split at hcheck
  · next f rendered w hrun =>
    obtain ⟨f₀, w₀, hcreate, hrender⟩ := Program.run_bind_eq_ok.1 hrun
    split at hcheck
    · next first second hfirst hsecond =>
      split at hcheck
      · next answer w' hremove =>
        obtain ⟨live, hlive, hends⟩ := (Option.any_eq_true ..).1 hcheck
        exact ⟨f₀, f, rendered, w₀, w, first, second, answer, w', live, hcreate, hrender, hfirst,
          hsecond, hremove, hlive, of_decide_eq_true hends⟩
      · cases hcheck
    · cases hcheck
  · cases hcheck

end Lost

open Correction (callbacks config renderer) in
open Lost in
theorem lookups_agree_iff_moved : ∃ (f₀ f : Form Unit) (rendered : Rendered Unit)
      (w₀ w w' w'' : World Unit Unit) (first : FieldHandle Unit) (answer : Except Fault Unit)
      (value : Except Fault Json),
    (f₀.render config renderer).run callbacks 6 w₀ = .ok ((f, .ok rendered), w)
      ∧ first.remove.run callbacks 6 w = .ok (answer, w')
      ∧ f.directory.get? "a" = some (.field first)
      ∧ (f.value "a").run callbacks 6 w' = .ok (value, w'')
      ∧ (Entry.field first).value.run callbacks 6 w' = .ok (value, w'') := by
  obtain ⟨f₀, f, rendered, w₀, w, first, _, answer, w', live, -, hrender, hfirst, -, hremove, hlive,
    hsome, -⟩ := begin_run
  have hname := Directory.get?_of_field hfirst
  obtain ⟨found, hfound, hall⟩ := lookups_agree_iff hrender hremove hname
  obtain rfl := Option.some.inj (hlive.symm.trans hfound)
  obtain ⟨byName, byHandle, w'', hvalue, hvalue', hagree, -⟩ := hall 5
  obtain rfl := hagree.2 fun _ => hsome
  exact ⟨f₀, f, rendered, w₀, w, w', w'', first, answer, byName, hrender, hremove, hname, hvalue,
    hvalue'⟩

open Correction (callbacks config renderer) in
open Lost in
/-- After the removal the form answers null for the second field, and its handle fails. -/
theorem lookups_disagree : ∃ (f₀ f : Form Unit) (rendered : Rendered Unit)
      (w₀ w w' w'' : World Unit Unit) (first second : FieldHandle Unit) (answer : Except Fault Unit),
    (Form.create config [] initial).run callbacks 6 (.start #[] ()) = .ok (f₀, w₀)
      ∧ (f₀.render config renderer).run callbacks 6 w₀ = .ok ((f, .ok rendered), w)
      ∧ f.directory.field "a" = .ok first ∧ first.remove.run callbacks 6 w = .ok (answer, w')
      ∧ f.directory.get? "b" = some (.field second)
      ∧ (f.value "b").run callbacks 6 w' = .ok (.ok .null, w'')
      ∧ (Entry.field second).value.run callbacks 6 w'
        = .ok (.error (.pathNotFound [1, 1]), w'') := by
  obtain ⟨f₀, f, rendered, w₀, w, first, second, answer, w', live, hcreate, hrender, hfirst, hsecond,
    hremove, hlive, -, hmissing, hpath⟩ := begin_run
  have hname := Directory.get?_of_field hsecond
  have hnone : live.store.state.node? (Entry.field second).path = none :=
    Option.isNone_iff_eq_none.1 hmissing
  have hvalue : (f.value "b").run callbacks 6 w' = _ := Form.run_value hlive
  rw [Form.valueIn_of_none hname rfl hnone] at hvalue
  rw [← Form.form_of_render hrender hname] at hlive hvalue
  have hvalue' : (Entry.field second).value.run callbacks 6 w' = _ := Entry.run_value hlive
  rw [Entry.valueIn_of_none hnone, show (Entry.field second).path = [1, 1] from hpath] at hvalue'
  exact ⟨f₀, f, rendered, w₀, w, w', _, first, second, answer, hcreate, hrender, hfirst, hremove, hname,
    hvalue, hvalue'⟩

end FormTree
