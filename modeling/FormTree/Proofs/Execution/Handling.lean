import FormTree.Form.Handle
import FormTree.Proofs.Data.Paths
import FormTree.Proofs.Execution.Report

/-!
# What the operations of handles report

Field handles edit and remove; container handles append, remove, reorder and edit items.  Each
operation submits one batch at most, and what its report says is read off the state that the batch led
to, at the paths that the handle holds: `HandleOperation.events` lists these events, and
`HandleOperation.submits` ties the operations to them.
-/

namespace FormTree

variable {σ κ α : Type}

/-! ## What a state holds at a path -/

namespace Data

/-- The node at a path as JSON, null if there is none. -/
def jsonAt (d : Data) (p : Path) : Json := ((d.node? p).map toJson).getD .null

/-- The list at a path as a JSON array, empty if there is no list. -/
def arrayAt (d : Data) (p : Path) : Json :=
  .array ((((d.node? p).map items).getD []).map toJson)

/-- The texts in the list at a path. -/
def textsAt (d : Data) (p : Path) : List String := ((d.node? p).map texts).getD []

end Data

/-- The slot of a definition stands at the end of a path. -/
theorem Program.slotOf_node? (d : Data) (p : Path) (slot : Nat) :
    slotOf (d.node? p) slot = d.node? (p ++ [slot]) := by
  rw [slotOf, Data.node?_append]
  cases d.node? p with
  | none => rfl
  | some definition => cases hslot : definition.child? slot <;> simp [Data.node?_cons, hslot]

theorem Program.messagesAt_node? (d : Data) (p : Path) (slot : Nat) :
    messagesAt (d.node? p) slot = d.textsAt (p ++ [slot]) := by
  rw [messagesAt, slotOf_node?]
  rfl

theorem Data.itemsJson_node? (d : Data) (p : Path) : itemsJson (d.node? p) = d.arrayAt p := by
  rw [arrayAt]
  cases d.node? p with
  | none => rfl
  | some value => exact itemsJson_some value

/-! ## The events of a handle -/

/-- The change of a field and, where verdicts are reported of it, the verdict on the new value. -/
def FieldHandle.changes (h : FieldHandle κ) (verdicts : Bool) (state : Data) :
    List (Event × Payload) :=
  (.internal .fieldChange,
    .field h.namePath (some (state.jsonAt (h.path ++ [Kind.valueAt])))) ::
  if h.validator.isSome && verdicts then
    [verdictEvent h.namePath (state.textsAt (h.path ++ [Kind.field.errorsAt]))]
  else []

/-- The removal of a field, which is valid from then on. -/
def FieldHandle.removal (h : FieldHandle κ) (verdicts : Bool) : List (Event × Payload) :=
  (.internal .fieldRemoved, .field h.namePath none) ::
  if verdicts then [verdictEvent h.namePath []] else []

/-- The change of a container and, where verdicts are reported of it, the verdict on the new items. -/
def ContainerHandle.changes (h : ContainerHandle κ) (verdicts : Bool) (state : Data) :
    List (Event × Payload) :=
  (.internal .fieldChange,
    .field h.namePath (some (state.arrayAt (h.path ++ [h.container.itemsAt])))) ::
  if h.validator.isSome && verdicts then
    [verdictEvent h.namePath (state.textsAt (h.path ++ [h.container.errorsAt]))]
  else []

theorem FieldHandle.due_edit (h : FieldHandle κ) (verdicts : Bool) (state : Data) :
    (After.fieldEdited h.path h.namePath h.validator.isSome : After κ).due verdicts state
      = h.changes verdicts state := by
  simp only [After.due, After.event?, After.verdict?, Program.slotOf_node?, Program.messagesAt_node?,
    changes, Data.jsonAt]
  cases h.validator <;> cases verdicts <;> rfl

theorem FieldHandle.due_remove (h : FieldHandle κ) (verdicts : Bool) (state : Data) :
    (After.fieldRemoved h.namePath : After κ).due verdicts state = h.removal verdicts := by
  cases verdicts <;> rfl

theorem ContainerHandle.due_change (h : ContainerHandle κ) (verdicts : Bool) (state : Data) :
    (After.itemsChanged h.container h.path h.namePath h.validator.isSome : After κ).due verdicts state
      = h.changes verdicts state := by
  simp only [After.due, After.event?, After.verdict?, Program.slotOf_node?, Program.messagesAt_node?,
    Data.itemsJson_node?, changes]
  cases h.validator <;> cases verdicts <;> rfl

/-! ## Operations -/

/-- An operation of a handle. -/
inductive HandleOperation (κ : Type) where
  | edit (h : FieldHandle κ) (update : Update κ)
  | remove (h : FieldHandle κ)
  | append (h : ContainerHandle κ)
  | appendForm (h : ContainerHandle κ) (name : String)
  | removeItem (h : ContainerHandle κ) (index : Nat)
  | reorder (h : ContainerHandle κ) (order : List Nat)
  | editItems (h : ContainerHandle κ) (update : Update κ)

namespace HandleOperation

/-- The form that the handle is on. -/
def form : HandleOperation κ → FormId
  | .edit h _ | .remove h => h.form
  | .append h | .appendForm h _ | .removeItem h _ | .reorder h _ | .editItems h _ => h.form

/-- What the operation runs. -/
def program : HandleOperation κ → Program σ κ (Except Fault Unit)
  | .edit h update => h.edit update
  | .remove h => h.remove
  | .append h => h.append
  | .appendForm h name => h.appendForm name
  | .removeItem h index => h.removeItem index
  | .reorder h order => h.reorder order
  | .editItems h update => h.editItems update

/-- The events of an operation whose batch led to a state. -/
def events (verdicts : Bool) (state : Data) : HandleOperation κ → List (Event × Payload)
  | .edit h _ => h.changes verdicts state
  | .remove h => h.removal verdicts
  | .append h | .appendForm h _ | .removeItem h _ | .reorder h _ | .editItems h _ =>
    h.changes verdicts state

/-- The batch of the operation, with what comes after it: the events of the operation are due. -/
structure Submits (op : HandleOperation κ) (submission : Submission κ) (after : After κ) : Prop where
  after_eq : submission.after = some after
  ofHandle : after.OfHandle
  due : ∀ verdicts state, after.due verdicts state = op.events verdicts state

variable {host : Host σ κ} {fuel : Nat} {w w' : World σ κ} {live : LiveForm κ}
  {answer : Except Fault Unit}

theorem submits_edit (h : FieldHandle κ) (update : Update κ) :
    (edit h update).Submits (h.editSubmission update)
      (.fieldEdited h.path h.namePath h.validator.isSome) :=
  ⟨rfl, trivial, h.due_edit⟩

theorem submits_remove (h : FieldHandle κ) (node : Path) :
    (remove h).Submits (h.removeSubmission node) (.fieldRemoved h.namePath) :=
  ⟨rfl, trivial, h.due_remove⟩

theorem submits_change {h : ContainerHandle κ} {op : HandleOperation κ} (action : Action κ)
    (hop : ∀ verdicts state, op.events verdicts state = h.changes verdicts state) :
    op.Submits (h.changeSubmission action)
      (.itemsChanged h.container h.path h.namePath h.validator.isSome) :=
  ⟨rfl, trivial, fun verdicts state => (h.due_change verdicts state).trans (hop verdicts state).symm⟩

/-- An operation fails at once, and then nothing has happened, or it submits its batch to the form. -/
theorem submits (op : HandleOperation κ) (hlive : w.form? op.form = some live)
    (hrun : op.program.run host fuel w = .ok (answer, w')) :
    (w' = w ∧ ∃ e, answer = .error e)
      ∨ ∃ submission after, op.Submits submission after
        ∧ (Program.submitThen op.form submission).run host fuel w = .ok (answer, w') := by
  cases op with
  | edit h update => exact .inr ⟨_, _, submits_edit h update, hrun⟩
  | remove h =>
    simp only [program, FieldHandle.remove] at hrun
    split at hrun
    · obtain ⟨-, rfl, rfl⟩ := Program.run_done.1 hrun
      exact .inl ⟨rfl, _, rfl⟩
    · exact .inr ⟨_, _, submits_remove h _, hrun⟩
  | appendForm h name =>
    obtain ⟨profile, v, hprofile, hrun⟩ := Program.run_bind_eq_ok.1 hrun
    cases fuel with
    | zero => exact absurd hprofile Program.run_zero_ne_ok
    | succ fuel =>
      have hfound : w.form? h.form = some live := hlive
      rw [Program.run_profile hfound] at hprofile
      cases hprofile
      split at hrun
      · obtain ⟨-, rfl, rfl⟩ := Program.run_done.1 hrun
        exact .inl ⟨rfl, _, rfl⟩
      · exact .inr ⟨_, _, submits_change _ fun _ _ => rfl, hrun⟩
  | append h | removeItem h index | reorder h order | editItems h update =>
    exact .inr ⟨_, _, submits_change _ fun _ _ => rfl, hrun⟩

/-- An operation asks for the profile of the form, and submits a batch to it. -/
theorem uses (op : HandleOperation κ) {allowed : Call σ κ → Prop}
    (hprofile : allowed (.profile op.form))
    (hsubmit : ∀ submission, allowed (.submit op.form submission)) :
    op.program.Uses allowed := by
  have hthen : ∀ submission,
      (Program.submitThen op.form submission : Program σ κ _).Uses allowed := fun submission =>
    (Program.uses_call.2 (hsubmit submission)).bind fun _ => Program.uses_pure _
  cases op with
  | remove h =>
    simp only [program, FieldHandle.remove]
    split
    · exact Program.uses_pure _
    · exact hthen _
  | appendForm h name =>
    refine (Program.uses_call.2 hprofile).bind fun profile => ?_
    split
    · exact Program.uses_pure _
    · exact hthen _
  | _ => exact hthen _

end HandleOperation

end FormTree
