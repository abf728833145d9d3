import FormTree.Form.Basic
import FormTree.Proofs.Execution.Dispatch
import FormTree.Proofs.Execution.Fuel

/-!
# Host code that submits nothing

If no callback submits a batch to a form, nothing is queued while a batch of the form is dispatched.
So a form at rest with nothing waiting stays so, whatever program uses it, and a batch that is
submitted to it is applied alone: a dispatch is one computation of a new state.

Callbacks may do everything else, to this form and to others: they listen, emit events, look, and set
up further forms.
-/

namespace FormTree

variable {σ κ α : Type} {form : FormId}

/-- The call submits nothing to the form. -/
def Call.Passive (form : FormId) : Call σ κ → Prop
  | .submit other _ => other ≠ form
  | _ => True

theorem Call.passive_of_form?_ne {c : Call σ κ} (h : c.form? ≠ some form) : c.Passive form := by
  cases c <;> simp_all [Passive, Call.form?]

/-- Only a submission to the form is not passive. -/
theorem Call.passive_or_submit (form : FormId) (c : Call σ κ) :
    c.Passive form ∨ ∃ submission, c = .submit form submission := by
  cases c with
  | submit other submission =>
    by_cases h : other = form
    · exact .inr ⟨submission, by rw [h]⟩
    · exact .inl h
  | _ => exact .inl trivial

/-! ## Passive programs -/

/-- Progress that leaves the store as it is, but for its listeners. -/
def steady (form : FormId) : Progress σ κ form where
  rel w w' := ∀ live, w.form? form = some live → ∃ live', w'.form? form = some live'
    ∧ live'.store.Alike live.store ∧ live'.store.pending = live.store.pending
  refl w live hlive := ⟨live, hlive, .refl _, rfl⟩
  trans := by
    intro u v w h₁ h₂ live hlive
    obtain ⟨between, hfound, halike, hpending⟩ := h₁ live hlive
    obtain ⟨live', hfound', halike', hpending'⟩ := h₂ between hfound
    exact ⟨live', hfound', halike'.trans halike, hpending'.trans hpending⟩
  frame _ _ _ hsame live hlive := ⟨live, hsame live hlive, .refl _, rfl⟩
  absent hnone _ hlive := by simp [hnone] at hlive

namespace Run

variable {host : Host σ κ} {exec : {α : Type} → Program σ κ α → Run σ κ α} {fuel : Nat}

theorem note_steady (o : Occurrence κ) : Keeps (steady form) (note o : Run σ κ Unit) := by
  intro w _ w' hstep live hlive
  rw [note_eq_ok.1 hstep]
  exact ⟨live, hlive, .refl _, rfl⟩

theorem changeChannels_steady (f : Channels κ → α × Channels κ) :
    Keeps (steady form) (changeChannels form f : Run σ κ α) := by
  intro w _ w' hstep live hlive
  rw [changeChannels_of hlive] at hstep
  cases hstep
  exact ⟨_, World.form?_setForm_self hlive _, .refl _, rfl⟩

theorem changeStore_steady {f : Store κ → α × Store κ} (halike : ∀ s, (f s).2.Alike s)
    (hpending : ∀ s, (f s).2.pending = s.pending) :
    Keeps (steady form) (changeStore form f : Run σ κ α) := by
  intro w _ w' hstep live hlive
  rw [changeStore_of hlive] at hstep
  cases hstep
  exact ⟨_, World.form?_setForm_self hlive _, halike _, hpending _⟩

theorem perform_steady
    (hexec : ∀ {α : Type} (p : Program σ κ α), p.Uses (Call.Passive form) →
      Keeps (steady form) (exec p))
    (hhost : host.Uses (Call.Passive form)) (c : Call σ κ) (hpassive : c.Passive form)
    (hc : c.form? = some form) : Keeps (steady form) (perform host exec fuel c) := by
  cases c <;> simp only [Call.form?, Option.some.injEq, reduceCtorEq] at hc <;> subst hc
  case look => exact (Keeps.store _).bind fun _ => (note_steady _).bind fun _ => Keeps.pure _
  case profile => exact (Keeps.live _).bind fun _ => Keeps.pure _
  case submit => exact absurd rfl hpassive
  case subscribe =>
    exact (changeStore_steady (fun _ => ⟨rfl, rfl, rfl, rfl, rfl⟩) fun _ => rfl).bind fun _ =>
      (note_steady _).bind fun _ => Keeps.pure _
  case unsubscribe id =>
    refine (changeStore_steady (fun s => s.unsubscribe_alike id) fun s => ?_).bind fun _ =>
      (note_steady _).bind fun _ => Keeps.pure _
    unfold Store.unsubscribe
    split <;> rfl
  case register =>
    exact (changeChannels_steady _).bind fun _ => (note_steady _).bind fun _ => Keeps.pure _
  case unregister =>
    exact (changeChannels_steady _).bind fun _ => (note_steady _).bind fun _ => Keeps.pure _
  case emit event payload =>
    exact emit_keeps (fun _ _ => hexec _ (Program.uses_call.2 trivial))
      (fun _ _ => hexec _ (hhost.handle ..)) (fun f _ => changeChannels_steady f)
      (fun o _ _ => note_steady o) event payload
  case count | waiting =>
    exact (Keeps.live _).bind fun _ => (note_steady _).bind fun _ => Keeps.pure _

end Run

/-- A program that submits nothing to a form leaves its store as it is, but for the listeners. -/
theorem Program.run_steady {host : Host σ κ} (hhost : host.Uses (Call.Passive form)) (fuel : Nat)
    (p : Program σ κ α) (hp : p.Uses (Call.Passive form)) :
    Run.Keeps (steady form) (p.run host fuel) :=
  Program.keeps hhost (fun _ => Call.passive_of_form?_ne)
    (fun _ hless c hpassive hc =>
      Run.perform_steady (fun p hp => hless _ (Nat.le_refl _) p hp) hhost c hpassive hc) fuel p hp

/-! ## Batches that are applied alone -/

/-- No batch is dispatched, and none waits. -/
structure Store.AtRest (s : Store κ) : Prop where
  dispatching : s.dispatching = false
  pending : s.pending = []

namespace Run

variable {host : Host σ κ} {fuel limit : Nat} {submission : Submission κ} {w v w' : World σ κ}
  {live : LiveForm κ} {answer : Except Fault Unit}

section

variable (hhost : host.Uses (Call.Passive form))

include hhost

theorem compute_steady (batch : Batch κ) :
    Keeps (steady form) (compute host (Program.run host fuel) form batch) :=
  (Keeps.store _).bind fun _ => (note_steady _).bind fun _ =>
    Keeps.applyM (fun _ _ => Program.run_steady hhost fuel _ (hhost.update ..))
      (fun _ _ => Program.run_steady hhost fuel _ (hhost.errors ..)) _ _

theorem notify_steady (state : Data) (listener : Listener κ) :
    Keeps (steady form) (notify host (Program.run host fuel) form state listener) := by
  cases listener with
  | announces => exact Program.run_steady hhost fuel _ (Program.announce_uses trivial)
  | host _ name => exact Program.run_steady hhost fuel _ (hhost.listen ..)

theorem follow_steady (state : Data) (after : Option (After κ)) :
    Keeps (steady form) (follow host (Program.run host fuel) form state after) := by
  have hreport : ∀ after, Keeps (steady form) ((Program.report form state after).run host fuel) :=
    fun _ => Program.run_steady hhost fuel _ (Program.report_uses trivial fun _ _ => trivial)
  rcases after with _ | name | _ | _ | _
  · exact Keeps.pure ()
  · exact Program.run_steady hhost fuel _ (hhost.follow ..)
  · exact hreport _
  · exact hreport _
  · exact hreport _

/-- To apply a batch is to compute the new state and to swap it in. -/
theorem apply_passive (hlive : w.form? form = some live)
    (h : apply host (Program.run host fuel) form submission w = .ok (answer, w')) :
    ∃ result v live', compute host (Program.run host fuel) form submission.batch w = .ok (result, v)
      ∧ answer = result.map (fun _ => ()) ∧ w'.form? form = some live'
      ∧ live'.store.state = result.toOption.getD live.store.state
      ∧ live'.store.version = live.store.version + result.toOption.toList.length
      ∧ live'.store.pending = live.store.pending := by
  unfold apply at h
  obtain ⟨result, v, hcompute, h⟩ := bind_eq_ok.1 h
  obtain ⟨between, hbetween, halike, hpending⟩ := compute_steady hhost _ hcompute live hlive
  refine ⟨result, v, ?_⟩
  cases result with
  | error e =>
    obtain ⟨_, _, hnote, h⟩ := bind_eq_ok.1 h
    obtain ⟨rfl, rfl⟩ := pure_eq_ok.1 h
    rw [note_eq_ok.1 hnote]
    exact ⟨between, hcompute, rfl, hbetween, halike.state, halike.version, hpending⟩
  | ok next =>
    simp only at h
    rw [bind_of_ok (changeStore_of hbetween _)] at h
    have hadvanced := World.form?_setForm_self hbetween
      { between with store := between.store.advance next }
    rw [bind_of_ok (store_of hadvanced)] at h
    -- what follows the swap runs in a store that nobody changes, so it is kept as one block
    have hquiet : Keeps (steady form) (do
        note (.applied form (between.store.advance next).version next)
        between.store.audience.forM fun listener => do
          note (.notified form listener next)
          notify host (Program.run host fuel) form next listener
        note (.followed form submission.after next)
        follow host (Program.run host fuel) form next submission.after
        pure (.ok ()) : Run σ κ (Except Fault Unit)) :=
      (note_steady _).bind fun _ =>
        (Keeps.forM fun _ _ => (note_steady _).bind fun _ => notify_steady hhost _ _).bind fun _ =>
          (note_steady _).bind fun _ => (follow_steady hhost _ _).bind fun _ => Keeps.pure _
    obtain ⟨live', hfound, halike', hpending'⟩ := hquiet h _ hadvanced
    obtain ⟨_, _, _, h⟩ := bind_eq_ok.1 h
    obtain ⟨_, _, _, h⟩ := bind_eq_ok.1 h
    obtain ⟨_, _, _, h⟩ := bind_eq_ok.1 h
    obtain ⟨_, _, _, h⟩ := bind_eq_ok.1 h
    obtain ⟨rfl, -⟩ := pure_eq_ok.1 h
    exact ⟨live', hcompute, rfl, hfound, halike'.state,
      halike'.version.trans (congrArg (· + 1) halike.version), hpending'.trans hpending⟩

/-- If the application of a batch that is submitted to a form at rest returns, the dispatch ends with
it. -/
theorem submit_of_apply (limit : Nat) (hlive : w.form? form = some live)
    (hrest : live.store.AtRest) (hbatch : submission.batch ≠ [])
    (happly : apply host (Program.run host fuel) form submission (w.setForm form (live.mark true))
      = .ok (answer, v)) :
    ∃ between, v.form? form = some between
      ∧ submit host (Program.run host fuel) limit form submission w
        = .ok (answer.map fun _ => .applied, v.setForm form (between.mark false)) := by
  obtain ⟨_, _, between, -, -, hbetween, -, -, hpending⟩ :=
    apply_passive hhost (World.form?_setForm_self hlive _) happly
  refine ⟨between, hbetween, ?_⟩
  unfold submit
  rw [bind_of_ok (store_of hlive), if_neg (by simpa using hbatch),
    if_neg (by simp [hrest.dispatching]), setDispatching, bind_of_ok (changeStore_of hlive _)]
  rw [bind_of_ok (by exact happly)]
  cases answer with
  | error e =>
    simp only
    rw [setDispatching, bind_of_ok (changeStore_of hbetween _)]
    rfl
  | ok _ =>
    have hnone : between.store.pending = [] := hpending.trans hrest.pending
    have hdrain : drain host (Program.run host fuel) form limit v = .ok ((), v) := by
      cases limit with
      | zero => rw [drain, bind_of_ok (store_of hbetween), hnone]; rfl
      | succ limit => rw [drain, bind_of_ok (store_of hbetween), hnone]; rfl
    simp only
    rw [bind_of_ok hdrain, setDispatching, bind_of_ok (changeStore_of hbetween _)]
    rfl

omit hhost in
/-- A submission to a form at rest applies the batch. -/
theorem apply_of_submit {answer : Except Fault Outcome} (hlive : w.form? form = some live)
    (hrest : live.store.AtRest) (hbatch : submission.batch ≠ [])
    (h : submit host (Program.run host fuel) limit form submission w = .ok (answer, w')) :
    ∃ applied v, apply host (Program.run host fuel) form submission (w.setForm form (live.mark true))
      = .ok (applied, v) := by
  unfold submit at h
  rw [bind_of_ok (store_of hlive), if_neg (by simpa using hbatch),
    if_neg (by simp [hrest.dispatching]), setDispatching, bind_of_ok (changeStore_of hlive _)] at h
  obtain ⟨applied, v, happly, -⟩ := bind_eq_ok.1 h
  exact ⟨applied, v, happly⟩

/-- A batch that is submitted to a form at rest is applied, or fails and does nothing, and the form
is at rest again. -/
theorem submit_passive {answer : Except Fault Outcome} (hlive : w.form? form = some live)
    (hrest : live.store.AtRest) (hbatch : submission.batch ≠ [])
    (h : submit host (Program.run host fuel) limit form submission w = .ok (answer, w')) :
    ∃ result v live', compute host (Program.run host fuel) form submission.batch
        (w.setForm form (live.mark true)) = .ok (result, v)
      ∧ answer = result.map (fun _ => .applied) ∧ w'.form? form = some live'
      ∧ live'.store.state = result.toOption.getD live.store.state
      ∧ live'.store.version = live.store.version + result.toOption.toList.length
      ∧ live'.store.AtRest := by
  obtain ⟨applied, v, happly⟩ := apply_of_submit hlive hrest hbatch h
  obtain ⟨between, hbetween, hsubmit⟩ :=
    submit_of_apply hhost limit hlive hrest hbatch happly
  rw [hsubmit] at h
  cases h
  obtain ⟨result, u, found, hcompute, rfl, hfound, hstate, hversion, hpending⟩ :=
    apply_passive hhost (World.form?_setForm_self hlive _) happly
  obtain rfl := Option.some.inj (hbetween.symm.trans hfound)
  exact ⟨result, u, _, hcompute, by cases result <;> rfl, World.form?_setForm_self hbetween _, hstate,
    hversion, rfl, hpending.trans hrest.pending⟩

end

end Run

/-! ## Forms that stay at rest -/

/-- Progress that leaves a form at rest if it was. -/
def resting (form : FormId) : Progress σ κ form where
  rel w w' := ∀ live, w.form? form = some live → live.store.AtRest →
    ∃ live', w'.form? form = some live' ∧ live'.store.AtRest
  refl w live hlive hrest := ⟨live, hlive, hrest⟩
  trans := by
    intro u v w h₁ h₂ live hlive hrest
    obtain ⟨between, hfound, hrest'⟩ := h₁ live hlive hrest
    exact h₂ between hfound hrest'
  frame _ _ _ hsame live hlive hrest := ⟨live, hsame live hlive, hrest⟩
  absent hnone _ hlive := by simp [hnone] at hlive

variable {host : Host σ κ} {fuel : Nat}

/-- What leaves the store as it is leaves it at rest. -/
theorem Run.Keeps.resting {m : Run σ κ α} (h : Keeps (steady form) m) :
    Keeps (FormTree.resting form) m := by
  intro w a w' hstep live hlive hrest
  obtain ⟨live', hfound, halike, hpending⟩ := h hstep live hlive
  exact ⟨live', hfound, halike.dispatching.trans hrest.dispatching, hpending.trans hrest.pending⟩

/-- Whatever program uses a form at rest leaves it at rest, if no callback submits to it. -/
theorem Program.run_resting (hhost : host.Uses (Call.Passive form)) (fuel : Nat)
    (p : Program σ κ α) : Run.Keeps (resting form) (p.run host fuel) := by
  cases fuel with
  | zero => exact Run.Keeps.halt _
  | succ fuel =>
    refine Program.interpret_keeps (fun c _ => ?_) p p.uses_true
    rcases c.passive_or_submit form with hpassive | ⟨submission, rfl⟩
    · have hcall :=
        Program.run_steady hhost (fuel + 1) (Program.call c) (Program.uses_call.2 hpassive)
      rw [Program.run_call] at hcall
      exact hcall.resting
    · intro w answer w' hstep live hlive hrest
      by_cases hbatch : submission.batch = []
      · have hskip : Run.Keeps (steady form) (do
            Run.note (.skipped form submission.after live.store.state)
            Run.follow host (Program.run host fuel) form live.store.state submission.after
            pure (.ok .applied) : Run σ κ (Except Fault Outcome)) :=
          (Run.note_steady _).bind fun _ =>
            (Run.follow_steady hhost _ _).bind fun _ => Run.Keeps.pure _
        change Run.submit host (Program.run host fuel) fuel form submission w = _ at hstep
        rw [Run.submit, Run.bind_of_ok (Run.store_of hlive), if_pos (by simp [hbatch])] at hstep
        exact hskip.resting hstep live hlive hrest
      · obtain ⟨_, _, live', -, -, hfound, -, -, hrest'⟩ :=
          Run.submit_passive hhost hlive hrest hbatch hstep
        exact ⟨live', hfound, hrest'⟩

/-- To set up a form is to put it behind the others and to announce its beginning. -/
theorem Form.run_create {config : Config κ} {handlers : List (HostEvent × κ)} {initial : Data}
    {f : Form κ} {w w' : World σ κ}
    (hrun : (Form.create config handlers initial).run host fuel w = .ok (f, w')) :
    f = ⟨w.forms.size, .empty⟩ ∧ ∃ called,
      (Program.emit w.forms.size (.internal .formInitialised) (.state initial)).run host fuel
        (({ w with forms := w.forms.push (.create config.profile handlers initial) } :
          World σ κ).note (.created w.forms.size handlers initial)) = .ok (called, w') := by
  obtain ⟨id, u, hcall, hinit⟩ := Program.run_bind_eq_ok.1 hrun
  cases fuel with
  | zero => exact absurd hcall Program.run_zero_ne_ok
  | succ fuel =>
    rw [Program.run_call, Run.perform_create] at hcall
    cases hcall
    obtain ⟨called, _, hemit, hdone⟩ := Program.run_bind_eq_ok.1 hinit
    obtain ⟨-, rfl, rfl⟩ := Program.run_done.1 hdone
    exact ⟨rfl, called, hemit⟩

/-- A new form is at rest in its initial state. -/
theorem Form.create_atRest {config : Config κ} {handlers : List (HostEvent × κ)} {initial : Data}
    {f : Form κ} {w w' : World σ κ} (hhost : host.Uses (Call.Passive w.forms.size))
    (hrun : (Form.create config handlers initial).run host fuel w = .ok (f, w')) :
    f = ⟨w.forms.size, .empty⟩ ∧ ∃ live, w'.form? w.forms.size = some live ∧ live.store.AtRest
      ∧ live.store.state = initial := by
  obtain ⟨rfl, _, hemit⟩ := Form.run_create hrun
  obtain ⟨live, hlive, halike, hpending⟩ :=
    Program.run_steady hhost _ _ (by exact Program.uses_call.2 trivial) hemit _
      (w.form?_push_self _)
  exact ⟨rfl, live, hlive, ⟨halike.dispatching, hpending⟩, halike.state⟩

/-- Whatever was done with a form, it is set up as it was. -/
theorem Form.profile_of_created {config : Config κ} {handlers : List (HostEvent × κ)}
    {initial : Data} {p : Form κ → Program σ κ α} {a : α} {w w' : World σ κ} {live : LiveForm κ}
    (hrun : (Form.create config handlers initial >>= p).run host fuel w = .ok (a, w'))
    (hlive : w'.form? w.forms.size = some live) : live.profile = config.profile := by
  obtain ⟨f, v, hcreate, huse⟩ := Program.run_bind_eq_ok.1 hrun
  obtain ⟨rfl, _, hemit⟩ := Form.run_create hcreate
  obtain ⟨_, begun, -, hbegun, hprofile⟩ := Program.run_growing _ host _ _ hemit _
    (w.form?_push_self _)
  obtain ⟨_, found, -, hfound, hprofile'⟩ := Program.run_growing _ host _ _ huse _ hbegun
  obtain rfl := Option.some.inj (hlive.symm.trans hfound)
  exact hprofile'.trans hprofile

end FormTree
