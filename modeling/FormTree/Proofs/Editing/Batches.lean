import FormTree.Proofs.Action.Frame
import FormTree.Proofs.Execution.Passive
import FormTree.Proofs.Execution.Returning

/-!
# The batches of handles

A handle submits one batch: it changes its node, and has it validated again.  Here is what such a
batch makes of the state of a form at rest, given what the host answers.  The definition of the node
is replaced, and nothing else; the errors that the validator finds are those of the new content.
-/

namespace FormTree

variable {σ κ : Type}

/-! ## What the host answers -/

/-- Ask for the new content of a slot. -/
def Update.ask (host : Host σ κ) (previous : Data) : Update κ → Program σ κ Data
  | .fixed value => pure value
  | .computed name => host.update name previous

/-- Ask a validator, if there is one, for the errors of a value. -/
def askErrors (host : Host σ κ) (validator : Option κ) (value : Json) :
    Program σ κ (Option (List String)) :=
  match validator with
  | none => pure none
  | some validator => some <$> host.errors validator value

/-- What the host answers to an edit of a field with some previous value: the new value, and its
errors if the field is validated. -/
def FieldHandle.answers (host : Host σ κ) (h : FieldHandle κ) (update : Update κ) (previous : Data) :
    Program σ κ (Data × Option (List String)) := do
  let value ← update.ask host previous
  return (value, ← askErrors host h.validator value.toJson)

/-- A definition with a slot replaced by the given texts, if there are any. -/
def putTexts (definition : List Data) (slot : Nat) : Option (List String) → List Data
  | none => definition
  | some texts => putSlot definition slot (Data.ofTexts texts)

section Slots

variable {definition : List Data} {slot index : Nat} {texts : List String}

theorem slotAt_putTexts_ne (hne : index ≠ slot) (texts : Option (List String)) :
    slotAt (putTexts definition slot texts) index = slotAt definition index := by
  cases texts with
  | none => rfl
  | some texts => exact slotAt_putSlot_ne hne

theorem getElem?_putTexts_ne {d : Data} (hne : index ≠ slot) (h : definition[index]? = some d)
    (texts : Option (List String)) : (putTexts definition slot texts)[index]? = some d := by
  cases texts with
  | none => exact h
  | some texts =>
    exact (getElem?_putSlot_of_lt hne (List.getElem?_eq_some_iff.1 h).1).trans h

theorem getElem?_putTexts_self :
    (putTexts definition slot (some texts))[slot]? = some (Data.ofTexts texts) :=
  getElem?_putSlot_self ..

end Slots

/-- The definition of a field with another value and, if the field is validated, its errors. -/
def editedField (definition : List Data) (value : Data) (texts : Option (List String)) : List Data :=
  putTexts (putSlot definition Kind.valueAt value) Kind.field.errorsAt texts

section Field

variable {definition : List Data} {slot : Nat} {value : Data} {texts : Option (List String)}

theorem slotAt_editedField (hvalue : slot ≠ Kind.valueAt) (herrors : slot ≠ Kind.field.errorsAt) :
    slotAt (editedField definition value texts) slot = slotAt definition slot := by
  rw [editedField, slotAt_putTexts_ne herrors, slotAt_putSlot_ne hvalue]

theorem slotAt_editedField_value (definition : List Data) (value : Data)
    (texts : Option (List String)) :
    slotAt (editedField definition value texts) Kind.valueAt = value := by
  rw [editedField, slotAt_putTexts_ne (by decide), slotAt_putSlot_self]

end Field

/-! ## Computing a batch -/

namespace Run

open Program (run_bind_eq_ok run_done run_mono)

variable {host : Host σ κ} {fuel : Nat} {w w' : World σ κ} {state : Data} {path : Path}
  {definition : List Data} {slot : Nat} {result : Except Fault Data} {form : FormId}
  {live : LiveForm κ}

theorem run_update {update : Update κ} {errors : κ → Json → Run σ κ (List String)}
    (hdefinition : state.node? path = some (.list definition))
    (h : (Plan.update state path slot update).run
      (fun name previous => (host.update name previous).run host fuel) errors w = .ok (result, w')) :
    ∃ value, (update.ask host (slotAt definition slot)).run host (fuel + 1) w = .ok (value, w')
      ∧ result = writeSlot state path definition slot value := by
  rw [Plan.update, Plan.withDefinition_of_node? hdefinition] at h
  cases update with
  | fixed value =>
    obtain ⟨rfl, rfl⟩ := pure_eq_ok.1 h
    exact ⟨value, run_done.2 ⟨Nat.succ_pos _, rfl, rfl⟩, rfl⟩
  | computed name =>
    obtain ⟨value, hvalue, rfl⟩ := map_eq_ok.1 h
    exact ⟨value, run_mono hvalue (Nat.le_succ _), rfl⟩

theorem run_check {validator : κ} {view : List Data → Json} {update : κ → Data → Run σ κ Data}
    (hdefinition : state.node? path = some (.list definition))
    (h : (Plan.check state path slot validator view).run update
      (fun name value => (host.errors name value).run host fuel) w = .ok (result, w')) :
    ∃ texts, (host.errors validator (view definition)).run host fuel w = .ok (texts, w')
      ∧ result = writeSlot state path definition slot (Data.ofTexts texts) := by
  rw [Plan.check, Plan.withDefinition_of_node? hdefinition] at h
  obtain ⟨texts, htexts, rfl⟩ := map_eq_ok.1 h
  exact ⟨texts, htexts, rfl⟩

theorem applyM_cons {update : κ → Data → Run σ κ Data} {errors : κ → Json → Run σ κ (List String)}
    {action : Action κ} {rest : Batch κ}
    (h : Batch.applyM update errors state (action :: rest) w = .ok (result, w')) :
    ∃ first v, (action.plan state).run update errors w = .ok (first, v)
      ∧ ((∃ e, first = .error e ∧ result = .error e)
        ∨ ∃ next, first = .ok next ∧ Batch.applyM update errors next rest v = .ok (result, w')) := by
  obtain ⟨first, v, hfirst, h⟩ := bind_eq_ok.1 h
  refine ⟨first, v, hfirst, ?_⟩
  cases first with
  | error e => exact .inl ⟨e, rfl, (pure_eq_ok.1 h).1.symm⟩
  | ok next => exact .inr ⟨next, rfl, h⟩

/-- What a validator finds goes into the definition that was checked. -/
theorem run_check_replaced {next : Data} {validator : κ} {view : List Data → Json}
    {update : κ → Data → Run σ κ Data} (hreplaced : state.replace? path (.list definition) = some next)
    (h : (Plan.check next path slot validator view).run update
      (fun name value => (host.errors name value).run host fuel) w = .ok (result, w')) :
    ∃ texts last, (askErrors host (some validator) (view definition)).run host (fuel + 1) w
        = .ok (some texts, w')
      ∧ result = .ok last
      ∧ state.replace? path (.list (putSlot definition slot (Data.ofTexts texts))) = some last := by
  obtain ⟨texts, htexts, rfl⟩ := run_check (Data.node?_replace? hreplaced) h
  obtain ⟨last, hlast⟩ := Data.exists_replace? (Data.node?_replace? hreplaced)
    (.list (putSlot definition slot (Data.ofTexts texts)))
  refine ⟨texts, last, ?_, writeSlot_eq_ok.2 hlast, by rw [← hlast, Data.replace?_replace? hreplaced]⟩
  rw [askErrors, map_eq_pure_bind]
  exact run_bind_eq_ok.2
    ⟨texts, w', run_mono htexts (Nat.le_succ _), run_done.2 ⟨Nat.succ_pos _, rfl, rfl⟩⟩

end Run

section Handles

open Program (run_bind_eq_ok run_done)

variable {host : Host σ κ} {fuel : Nat} {w w' : World σ κ} {definition : List Data}
  {result : Except Fault Data} {form : FormId} {live : LiveForm κ}

/-- An edit that succeeds finds a definition. -/
theorem FieldHandle.exists_definition {h : FieldHandle κ} {update : Update κ} {next : Data}
    (hlive : w.form? form = some live)
    (hrun : Run.compute host (Program.run host fuel) form (h.editBatch update) w
      = .ok (.ok next, w')) :
    ∃ definition, live.store.state.node? h.path = some (.list definition) := by
  rw [Run.compute_eq hlive] at hrun
  obtain ⟨first, v, hfirst, hrest⟩ := Run.applyM_cons hrun
  cases hdefinition : definitionAt live.store.state h.path with
  | ok definition => exact ⟨definition, definitionAt_eq_ok.1 hdefinition⟩
  | error e =>
    have hplan : (Action.editField h.path update : Action κ).plan live.store.state
        = .settled (.error e) := by
      simp only [Action.plan, Plan.update, Plan.withDefinition, hdefinition]
    rw [hplan] at hfirst
    obtain ⟨rfl, -⟩ := Run.pure_eq_ok.1 hfirst
    obtain ⟨_, -, ⟨⟩⟩ | ⟨_, ⟨⟩, -⟩ := hrest

/-- An edit of a field replaces its value by the host's answer, and its errors by those of that
value. -/
theorem FieldHandle.compute_edit {h : FieldHandle κ} {update : Update κ}
    (hlive : w.form? form = some live)
    (hdefinition : live.store.state.node? h.path = some (.list definition))
    (hrun : Run.compute host (Program.run host fuel) form (h.editBatch update) w = .ok (result, w')) :
    ∃ value texts next, (h.answers host update (slotAt definition Kind.valueAt)).run host (fuel + 1)
        (w.note (.began form (h.editBatch update) live.store.state)) = .ok ((value, texts), w')
      ∧ result = .ok next
      ∧ texts.isSome = h.validator.isSome
      ∧ live.store.state.replace? h.path (.list (editedField definition value texts)) = some next := by
  rw [Run.compute_eq hlive] at hrun
  obtain ⟨first, v, hfirst, hrest⟩ := Run.applyM_cons hrun
  obtain ⟨value, hvalue, rfl⟩ := Run.run_update hdefinition hfirst
  obtain ⟨between, hbetween⟩ := Data.exists_replace? hdefinition
    (.list (putSlot definition Kind.valueAt value))
  rw [writeSlot_eq_ok.2 hbetween] at hrest
  obtain ⟨_, ⟨⟩, -⟩ | ⟨_, ⟨⟩, hrest⟩ := hrest
  have hanswers : ∀ {texts : Option (List String)},
      (askErrors host h.validator value.toJson).run host (fuel + 1) v = .ok (texts, w') →
      (h.answers host update (slotAt definition Kind.valueAt)).run host (fuel + 1)
        (w.note (.began form (h.editBatch update) live.store.state)) = .ok ((value, texts), w') :=
    fun htexts => run_bind_eq_ok.2 ⟨value, v, hvalue, run_bind_eq_ok.2
      ⟨_, w', htexts, run_done.2 ⟨Nat.succ_pos _, rfl, rfl⟩⟩⟩
  cases hvalidator : h.validator with
  | none =>
    rw [hvalidator] at hrest hanswers
    obtain ⟨rfl, rfl⟩ := Run.pure_eq_ok.1 hrest
    exact ⟨value, none, between, hanswers (run_done.2 ⟨Nat.succ_pos _, rfl, rfl⟩), rfl, rfl, hbetween⟩
  | some validator =>
    rw [hvalidator] at hrest hanswers
    obtain ⟨second, u, hsecond, hrest⟩ := Run.applyM_cons hrest
    obtain ⟨texts, last, htexts, rfl, hlast⟩ := Run.run_check_replaced hbetween hsecond
    obtain ⟨_, ⟨⟩, -⟩ | ⟨_, ⟨⟩, hrest⟩ := hrest
    obtain ⟨rfl, rfl⟩ := Run.pure_eq_ok.1 hrest
    rw [slotAt_putSlot_self] at htexts
    exact ⟨value, some texts, last, hanswers htexts, rfl, rfl, hlast⟩

/-- A change of a container that replaces its definition replaces its errors by those of the new
items. -/
theorem ContainerHandle.compute_change {h : ContainerHandle κ} {action : Action κ} {between : Data}
    (hlive : w.form? form = some live)
    (hplan : action.plan live.store.state = .settled (.ok between))
    (hreplaced : live.store.state.replace? h.path (.list definition) = some between)
    (hrun : Run.compute host (Program.run host fuel) form (h.changeSubmission action).batch w
      = .ok (result, w')) :
    ∃ texts next, (askErrors host h.validator (Data.itemsJson definition[h.container.itemsAt]?)).run
        host (fuel + 1) (w.note (.began form (h.changeSubmission action).batch live.store.state))
          = .ok (texts, w')
      ∧ result = .ok next
      ∧ live.store.state.replace? h.path (.list (putTexts definition h.container.errorsAt texts))
        = some next := by
  rw [Run.compute_eq hlive] at hrun
  obtain ⟨first, v, hfirst, hrest⟩ := Run.applyM_cons hrun
  rw [hplan] at hfirst
  obtain ⟨rfl, rfl⟩ := Run.pure_eq_ok.1 hfirst
  obtain ⟨_, ⟨⟩, -⟩ | ⟨_, ⟨⟩, hrest⟩ := hrest
  obtain ⟨second, u, hsecond, hrest⟩ := Run.applyM_cons hrest
  cases hvalidator : h.validator with
  | none =>
    rw [hvalidator] at hsecond
    obtain ⟨rfl, rfl⟩ := Run.pure_eq_ok.1 hsecond
    obtain ⟨_, ⟨⟩, -⟩ | ⟨_, ⟨⟩, hrest⟩ := hrest
    obtain ⟨rfl, rfl⟩ := Run.pure_eq_ok.1 hrest
    exact ⟨none, between, run_done.2 ⟨Nat.succ_pos _, rfl, rfl⟩, rfl, hreplaced⟩
  | some validator =>
    rw [hvalidator] at hsecond
    obtain ⟨texts, last, htexts, rfl, hlast⟩ := Run.run_check_replaced hreplaced hsecond
    obtain ⟨_, ⟨⟩, -⟩ | ⟨_, ⟨⟩, hrest⟩ := hrest
    obtain ⟨rfl, rfl⟩ := Run.pure_eq_ok.1 hrest
    exact ⟨some texts, last, htexts, rfl, hlast⟩

end Handles

/-! ## Submitting a batch to a form at rest -/

/-- The host code of a batch that is submitted to a form returns, from the answers to what comes
after the batch. -/
def Submission.HostReturns (host : Host σ κ) (fuel : Nat) (form : FormId) (submission : Submission κ)
    (w : World σ κ) : Prop :=
  ∀ live, w.form? form = some live → ∃ answer v, Run.apply host (Program.run host fuel) form submission
    (w.setForm form (live.mark true)) = .ok (answer, v)

/-- If every callback returns, the host code of a batch does. -/
theorem Submission.HostReturns.of_host {host : Host σ κ} {fuel : Nat} {form : FormId}
    {w : World σ κ} (hhost : host.Returns fuel form) (hplaced : w.Placed form)
    (submission : Submission κ) : submission.HostReturns host (fuel + 2) form w := by
  obtain ⟨live, hlive, hplaced⟩ := hplaced
  intro found hfound
  obtain rfl := Option.some.inj (hlive.symm.trans hfound)
  obtain ⟨answer, v, happly, -⟩ := hhost.apply submission _
    ⟨live.mark true, World.form?_setForm_self hlive _, hplaced, rfl⟩
  exact ⟨answer, v, happly⟩

/-- A batch that is submitted to a form at rest is computed and swapped in, and the form is at rest
again. -/
theorem Program.submitThen_returns {host : Host σ κ} {fuel : Nat} {form : FormId}
    {submission : Submission κ} {w : World σ κ} {live : LiveForm κ}
    (hhost : host.Uses (Call.Passive form)) (hlive : w.form? form = some live)
    (hrest : live.store.AtRest) (hbatch : submission.batch ≠ [])
    (hreturns : submission.HostReturns host fuel form w) :
    ∃ result v w' live', Run.compute host (Program.run host fuel) form submission.batch
        (w.setForm form (live.mark true)) = .ok (result, v)
      ∧ (∀ more > fuel, (submitThen form submission).run host more w
        = .ok (result.map fun _ => (), w'))
      ∧ w'.form? form = some live'
      ∧ live'.store.state = result.toOption.getD live.store.state
      ∧ live'.store.version = live.store.version + result.toOption.toList.length
      ∧ live'.store.AtRest := by
  obtain ⟨answer, u, happly⟩ := hreturns live hlive
  obtain ⟨between, hbetween, hsubmit⟩ :=
    Run.submit_of_apply hhost fuel hlive hrest hbatch happly
  obtain ⟨result, v, live', hcompute, hanswer, hfound, hstate, hversion, hrest'⟩ :=
    Run.submit_passive hhost hlive hrest hbatch hsubmit
  refine ⟨result, v, _, live', hcompute, fun more hmore => ?_, hfound, hstate, hversion, hrest'⟩
  have hsubmitted : (submit form submission).run host (fuel + 1) w = _ :=
    (congrFun (run_submit form submission) w).trans hsubmit
  rw [hanswer] at hsubmitted
  refine run_mono ?_ hmore
  rw [submitThen, run_bind, Run.bind_of_ok hsubmitted]
  cases result <;> rfl

/-- A change of a container whose action replaces the definition replaces it, and the errors if the
container is validated. -/
theorem ContainerHandle.change_returns {host : Host σ κ} {fuel : Nat} {h : ContainerHandle κ}
    {action : Action κ} {definition : List Data} {between : Data} {w : World σ κ} {live : LiveForm κ}
    (hhost : host.Uses (Call.Passive h.form)) (hlive : w.form? h.form = some live)
    (hrest : live.store.AtRest) (hplan : action.plan live.store.state = .settled (.ok between))
    (hreplaced : live.store.state.replace? h.path (.list definition) = some between)
    (hreturns : (h.changeSubmission action).HostReturns host fuel h.form w) :
    ∃ texts w' live', (∀ more > fuel, (h.change action).run host more w = .ok (.ok (), w'))
      ∧ w'.form? h.form = some live' ∧ live'.store.AtRest
      ∧ live.store.state.replace? h.path (.list (putTexts definition h.container.errorsAt texts))
        = some live'.store.state := by
  obtain ⟨result, u, w', live', hcompute, hends, hfound, hstate, -, hrest'⟩ :=
    Program.submitThen_returns hhost hlive hrest (List.cons_ne_nil _ _) hreturns
  obtain ⟨texts, next, -, rfl, hnext⟩ := compute_change
    (World.form?_setForm_self hlive (live.mark true)) hplan hreplaced hcompute
  obtain rfl : live'.store.state = next := hstate
  exact ⟨texts, w', live', hends, hfound, hrest', hnext⟩

end FormTree
