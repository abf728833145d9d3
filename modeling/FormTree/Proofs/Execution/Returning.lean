import FormTree.Form.Basic
import FormTree.Proofs.Execution.Fuel
import FormTree.Proofs.Execution.Interlude

/-!
# Host code that returns

The application of a batch asks host code, calls listeners, and emits events, and whatever stands
behind an event is called.  It returns if every single callback does.  `Host.Returns` is this
condition on the callbacks of a host, and `Host.Returns.apply` derives from it that the application
of any batch returns, with two units of fuel more than the callbacks need.

Two units are enough because emissions that a form makes by itself nest two deep at most: an event
that is passed on has no connection of its own.  This needs that connections stand behind their own
events only, which is an invariant of every run, `Program.run_placed`.

Callbacks are called while a batch of the form is dispatched.  A callback that emits nothing, and
submits no empty batch, returns then in any case: `Program.Ends.of_brief`.
-/

namespace FormTree

variable {σ κ α β : Type} {form : FormId} {w w' : World σ κ}

namespace World

/-- The form exists, and its connections stand behind their own events only. -/
def Placed (form : FormId) (w : World σ κ) : Prop :=
  ∃ live, w.form? form = some live ∧ live.channels.Placed

/-- A batch of the form is being dispatched, and its connections are placed. -/
def Engaged (form : FormId) (w : World σ κ) : Prop :=
  ∃ live, w.form? form = some live ∧ live.channels.Placed ∧ live.store.dispatching = true

end World

/-! ## Connections stay where they are -/

/-- Progress that leaves the connections of a form placed. -/
def placing (form : FormId) : Progress σ κ form where
  rel w w' := w.Placed form → w'.Placed form
  refl _ h := h
  trans h₁ h₂ h := h₂ (h₁ h)
  frame := by
    rintro w w' _ _ _ hsame ⟨live, hlive, hplaced⟩
    exact ⟨live, hsame live hlive, hplaced⟩
  absent := by
    rintro w w' hnone ⟨live, hlive, -⟩
    cases hnone.symm.trans hlive

namespace Run

theorem note_placing (o : Occurrence κ) : Keeps (placing form) (note o : Run σ κ Unit) := by
  intro w _ w' hstep h
  rw [note_eq_ok.1 hstep]
  exact h

theorem changeStore_placing (f : Store κ → α × Store κ) :
    Keeps (placing form) (changeStore form f : Run σ κ α) := by
  rintro w _ w' hstep ⟨live, hlive, hplaced⟩
  rw [changeStore_of hlive] at hstep
  cases hstep
  exact ⟨_, World.form?_setForm_self hlive _, hplaced⟩

theorem changeChannels_placing {f : Channels κ → α × Channels κ}
    (hf : ∀ b : Channels κ, b.Placed → (f b).2.Placed) :
    Keeps (placing form) (changeChannels form f : Run σ κ α) := by
  rintro w _ w' hstep ⟨live, hlive, hplaced⟩
  rw [changeChannels_of hlive] at hstep
  cases hstep
  exact ⟨_, World.form?_setForm_self hlive _, hf _ hplaced⟩

variable {host : Host σ κ} {exec : {α : Type} → Program σ κ α → Run σ κ α} {fuel : Nat}

section

variable (hexec : ∀ {α : Type} (p : Program σ κ α), Keeps (placing form) (exec p))

include hexec

theorem perform_placing (c : Call σ κ) (hc : c.form? = some form) :
    Keeps (placing form) (perform host exec fuel c) := by
  cases c <;> simp only [Call.form?, Option.some.injEq, reduceCtorEq] at hc <;> subst hc
  case look => exact (Keeps.store _).bind fun _ => (note_placing _).bind fun _ => Keeps.pure _
  case profile => exact (Keeps.live _).bind fun _ => Keeps.pure _
  case submit submission =>
    exact submit_keeps host.uses_true (fun p _ => hexec p) trivial (fun _ _ => trivial) submission
      (fun o _ _ _ => note_placing o) changeStore_placing
  case subscribe | unsubscribe =>
    exact (changeStore_placing _).bind fun _ => (note_placing _).bind fun _ => Keeps.pure _
  case register event name =>
    exact (changeChannels_placing fun _ h => h.register name).bind fun _ =>
      (note_placing _).bind fun _ => Keeps.pure _
  case unregister event id =>
    exact (changeChannels_placing fun _ h => h.unregister).bind fun _ =>
      (note_placing _).bind fun _ => Keeps.pure _
  case emit event payload =>
    refine emit_keeps (fun _ _ => hexec _) (fun _ _ => hexec _) (fun f hf => ?_)
      (fun o _ _ => note_placing o) event payload
    refine changeChannels_placing fun b h => ?_
    obtain ⟨queue, q, hset⟩ := hf b
    exact hset ▸ h.setQueue queue q
  case count | waiting =>
    exact (Keeps.live _).bind fun _ => (note_placing _).bind fun _ => Keeps.pure _

theorem apply_placing (submission : Submission κ) :
    Keeps (placing form) (apply host exec form submission) :=
  apply_keeps (fun o _ _ => note_placing o)
    (compute_keeps (fun o _ _ => note_placing o) (fun _ _ => hexec _) (fun _ _ => hexec _) _)
    (fun _ => changeStore_placing _)
    (notify_keeps host.uses_true (fun p _ => hexec p) fun _ _ => trivial) fun next =>
      (note_placing _).bind fun _ =>
        follow_keeps host.uses_true (fun p _ => hexec p) trivial (fun _ _ => trivial) next _

end

end Run

namespace Program

variable {host : Host σ κ} {fuel : Nat}

/-- Whatever runs, connections stay placed. -/
theorem run_placed (host : Host σ κ) (fuel : Nat) (p : Program σ κ α) :
    Run.Keeps (placing form) (p.run host fuel) :=
  Program.keeps host.uses_true (fun _ _ => trivial) (fun _ hless c _ hc =>
    Run.perform_placing (fun p => hless _ (Nat.le_refl _) p p.uses_true) c hc) fuel p p.uses_true

/-- A form whose batch is being dispatched stays so while host code runs. -/
theorem run_engaged {p : Program σ κ α} {a : α} (h : p.run host fuel w = .ok (a, w'))
    (hw : w.Engaged form) : w'.Engaged form := by
  obtain ⟨live, hlive, hplaced, hbusy⟩ := hw
  obtain ⟨live', hlive', hplaced'⟩ := run_placed host fuel p h ⟨live, hlive, hplaced⟩
  obtain ⟨_, found, hpasses⟩ := run_passes host fuel p h live hlive hbusy
  obtain rfl := Option.some.inj (hlive'.symm.trans hpasses.found)
  exact ⟨live', hlive', hplaced', hpasses.alike.dispatching.trans hbusy⟩

end Program

/-- The connections of a new form are placed, and stay so whatever is done with it. -/
theorem Form.placed_of_created {host : Host σ κ} {fuel : Nat} {config : Config κ}
    {handlers : List (HostEvent × κ)} {initial : Data} {p : Form κ → Program σ κ α} {a : α}
    (hrun : (Form.create config handlers initial >>= p).run host fuel w = .ok (a, w')) :
    w'.Placed w.forms.size := by
  cases fuel with
  | zero => exact absurd hrun Program.run_zero_ne_ok
  | succ fuel =>
    obtain ⟨f, v, hcreate, huse⟩ := Program.run_bind_eq_ok.1 hrun
    obtain ⟨id, u, hcall, hinit⟩ := Program.run_bind_eq_ok.1 hcreate
    rw [Program.run_call, Run.perform_create] at hcall
    cases hcall
    refine Program.run_placed host _ _ huse (Program.run_placed host _ _ hinit ?_)
    exact ⟨_, w.form?_push_self _, (Channels.wired_connected.registerAll handlers).own⟩

/-! ## Steps that return -/

namespace Run

variable {good : World σ κ → Prop}

/-- From every world of a kind the step returns, to a world of that kind. -/
def Returns (good : World σ κ → Prop) (m : Run σ κ α) : Prop :=
  ∀ w, good w → ∃ a w', m w = .ok (a, w') ∧ good w'

namespace Returns

theorem pure (a : α) : Returns good (pure a : Run σ κ α) := fun w h => ⟨a, w, rfl, h⟩

theorem bind {m : Run σ κ α} {f : α → Run σ κ β} (hm : Returns good m)
    (hf : ∀ a, Returns good (f a)) : Returns good (m >>= f) := by
  intro w h
  obtain ⟨a, v, hfirst, hv⟩ := hm w h
  obtain ⟨b, w', hsecond, hw'⟩ := hf a v hv
  exact ⟨b, w', bind_eq_ok.2 ⟨a, v, hfirst, hsecond⟩, hw'⟩

theorem map {m : Run σ κ α} (f : α → β) (hm : Returns good m) : Returns good (f <$> m) := by
  rw [map_eq_pure_bind]
  exact hm.bind fun a => pure (f a)

theorem forM {f : α → Run σ κ Unit} {items : List α}
    (hf : ∀ item ∈ items, Returns good (f item)) : Returns good (items.forM f) := by
  induction items with
  | nil => exact pure ()
  | cons item rest ih =>
    exact (hf item (by simp)).bind fun _ => ih fun other h => hf other (by simp [h])

/-- A batch is worked off if the host code returns that its actions ask. -/
theorem applyM {update : κ → Data → Run σ κ Data} {errors : κ → Json → Run σ κ (List String)}
    (hupdate : ∀ name previous, Returns good (update name previous))
    (herrors : ∀ name value, Returns good (errors name value)) (state : Data) (batch : Batch κ) :
    Returns good (Batch.applyM update errors state batch) := by
  induction batch generalizing state with
  | nil => exact pure _
  | cons action rest ih =>
    have hplan : Returns good ((action.plan state).run update errors) := by
      cases action.plan state with
      | settled result => exact pure _
      | asksUpdate name previous resume => exact (hupdate name previous).map resume
      | asksErrors validator value resume => exact (herrors validator value).map resume
    refine hplan.bind fun result => ?_
    cases result with
    | error e => exact pure _
    | ok next => exact ih next

end Returns

/-! ## What a form does while a batch is dispatched -/

/-- From every world in which a batch of the form is dispatched the step returns, and the batch is
still being dispatched. -/
abbrev ReturnsAmid (form : FormId) (m : Run σ κ α) : Prop := Returns (World.Engaged form) m

namespace ReturnsAmid

theorem note (o : Occurrence κ) : ReturnsAmid form (note o : Run σ κ Unit) :=
  fun w h => ⟨(), w.note o, rfl, h⟩

theorem store : ReturnsAmid form (Run.store form : Run σ κ (Store κ)) := by
  rintro w ⟨live, hlive, h⟩
  exact ⟨live.store, w, store_of hlive, live, hlive, h⟩

/-- What is done with a form can rely on its connections. -/
theorem live_bind {f : LiveForm κ → Run σ κ β}
    (hf : ∀ live, live.channels.Placed → ReturnsAmid form (f live)) :
    ReturnsAmid form (Run.live form >>= f) := by
  rintro w ⟨live, hlive, hplaced, hbusy⟩
  rw [bind_of_ok (live_of hlive)]
  exact hf live hplaced w ⟨live, hlive, hplaced, hbusy⟩

theorem changeStore {f : Store κ → α × Store κ}
    (hf : ∀ s, (f s).2.dispatching = s.dispatching) :
    ReturnsAmid form (changeStore form f : Run σ κ α) := by
  rintro w ⟨live, hlive, hplaced, hbusy⟩
  exact ⟨_, _, changeStore_of hlive f, _, World.form?_setForm_self hlive _, hplaced,
    (hf live.store).trans hbusy⟩

theorem changeChannels {f : Channels κ → α × Channels κ}
    (hf : ∀ b : Channels κ, b.Placed → (f b).2.Placed) :
    ReturnsAmid form (changeChannels form f : Run σ κ α) := by
  rintro w ⟨live, hlive, hplaced, hbusy⟩
  exact ⟨_, _, changeChannels_of hlive f, _, World.form?_setForm_self hlive _, hf _ hplaced, hbusy⟩

end ReturnsAmid

section

variable {host : Host σ κ} {exec : {α : Type} → Program σ κ α → Run σ κ α} {event : Event}

/-- A connection returns if the event does that it emits. -/
theorem connect_returns (payload : Payload) {connection : Connection}
    (hemit : ReturnsAmid form (exec (Program.emit form connection.target payload))) :
    ReturnsAmid form (connect exec form payload connection) := by
  have hchange : ∀ f : Channels κ → Bool × Channels κ,
      (∀ b : Channels κ, b.Placed → (f b).2.Placed) → ReturnsAmid form (do
        if ← changeChannels form f then
          let _ ← exec (Program.emit form connection.target payload)) := by
    intro f hf
    refine (ReturnsAmid.changeChannels hf).bind fun changed => ?_
    split
    · exact hemit.bind fun _ => .pure ()
    · exact .pure ()
  cases connection with
  | relays target => exact hemit.bind fun _ => .pure ()
  | enters queue =>
    simp only [connect]
    split
    · exact .pure ()
    · exact hchange _ fun b hb => hb.setQueue queue _
  | leaves queue =>
    simp only [connect]
    split
    · exact .pure ()
    · exact hchange _ fun b hb => hb.setQueue queue _

/-- An emission returns if the handlers of the host do, and the connection of the event if it has
one. -/
theorem emit_returns (payload : Payload)
    (hhandle : ∀ name, ReturnsAmid form (exec (host.handle name form payload)))
    (hconnect : ∀ connection, Connection.of? event = some connection →
      ReturnsAmid form (connect exec form payload connection)) :
    ReturnsAmid form (emit host exec form event payload) := by
  refine (ReturnsAmid.note _).bind fun _ => ReturnsAmid.live_bind fun live hplaced => ?_
  refine (Returns.forM fun entry hentry => (ReturnsAmid.note _).bind fun _ => ?_).bind fun _ =>
    (ReturnsAmid.note _).bind fun _ => .pure _
  obtain ⟨id, connection | name⟩ := entry
  · exact hconnect connection (hplaced event _ hentry connection rfl)
  · exact hhandle name

/-- What is submitted amid a dispatch is queued or refused, unless there is nothing to do. -/
theorem submit_returns {fuel : Nat} {submission : Submission κ} (hbatch : submission.batch ≠ []) :
    ReturnsAmid form (submit host exec fuel form submission) := by
  rintro w ⟨live, hlive, hplaced, hbusy⟩
  rw [submit, bind_of_ok (store_of hlive), if_neg (by simpa using hbatch), if_pos hbusy]
  cases live.store.policy with
  | reject =>
    exact (ReturnsAmid.note _).bind (fun _ => .pure _) _ ⟨live, hlive, hplaced, hbusy⟩
  | queue =>
    exact (ReturnsAmid.note _).bind (fun _ => ReturnsAmid.changeStore fun _ => rfl) _
      ⟨live, hlive, hplaced, hbusy⟩

end

end Run

/-! ## Programs that return -/

/-- From every world of a kind the program returns, to a world of that kind. -/
def Program.Returns {α : Type} (host : Host σ κ) (fuel : Nat) (good : World σ κ → Prop)
    (p : Program σ κ α) : Prop :=
  ∀ w, good w → ∃ a w', p.run host fuel w = .ok (a, w') ∧ good w'

/-- Whenever a batch of the form is being dispatched, the program comes to its end. -/
def Program.Ends (host : Host σ κ) (fuel : Nat) (form : FormId) (p : Program σ κ α) : Prop :=
  ∀ w : World σ κ, w.Engaged form → ∃ result, p.run host fuel w = .ok result

/-- Every callback comes to its end when it is called in a dispatch of the form. -/
structure Host.Returns (host : Host σ κ) (fuel : Nat) (form : FormId) : Prop where
  update : ∀ name previous, (host.update name previous).Ends host fuel form
  errors : ∀ name value, (host.errors name value).Ends host fuel form
  listen : ∀ name state, (host.listen name form state).Ends host fuel form
  handle : ∀ name payload, (host.handle name form payload).Ends host fuel form
  follow : ∀ name state, (host.follow name form state).Ends host fuel form

/-- A call on the form, or on none, that runs no host code while a batch of the form is dispatched.
-/
def Call.Brief (form : FormId) (c : Call σ κ) : Prop :=
  (∀ other ∈ c.form?, other = form) ∧ match c with
    | .submit _ submission => submission.batch ≠ []
    | .emit _ _ _ => False
    | _ => True

namespace Program

variable {host : Host σ κ} {fuel more : Nat} {good : World σ κ → Prop}

theorem Returns.bind {p : Program σ κ α} {f : α → Program σ κ β} (hp : p.Returns host fuel good)
    (hf : ∀ a, (f a).Returns host fuel good) : (p >>= f).Returns host fuel good := by
  intro w hw
  rw [run_bind]
  exact Run.Returns.bind hp hf w hw

theorem returns_pure (hfuel : 0 < fuel) (a : α) :
    (pure a : Program σ κ α).Returns host fuel good :=
  fun w hw => ⟨a, w, run_done.2 ⟨hfuel, rfl, rfl⟩, hw⟩

/-- A program returns if its calls do. -/
theorem Returns.of_uses {p : Program σ κ α} (hfuel : 0 < fuel)
    (hp : p.Uses fun c => (call c).Returns host fuel good) : p.Returns host fuel good := by
  induction p with
  | done a => exact returns_pure hfuel a
  | ask c next ih => exact Returns.bind hp.1 fun reply => ih reply (hp.2 reply)

/-- The dispatch goes on after a program that comes to its end. -/
theorem Ends.returns {p : Program σ κ α} (h : p.Ends host fuel form) (hmore : fuel ≤ more) :
    p.Returns host more (World.Engaged form) := by
  intro w hw
  obtain ⟨⟨a, w'⟩, hrun⟩ := h w hw
  exact ⟨a, w', run_mono hrun hmore, run_engaged hrun hw⟩

theorem Returns.call_brief {c : Call σ κ} (hc : c.Brief form) :
    (call c).Returns host (fuel + 1) (World.Engaged form) := by
  obtain ⟨hform, hc⟩ := hc
  change Run.ReturnsAmid form ((call c).run host (fuel + 1))
  rw [run_call]
  cases c <;> simp only [Call.form?, Option.mem_def, Option.some.injEq, forall_eq'] at hform
  case memory => exact fun w hw => ⟨w.memory, w, rfl, hw⟩
  case setMemory memory => exact fun w hw => ⟨(), _, rfl, hw⟩
  case create profile handlers initial =>
    rintro w ⟨live, hlive, h⟩
    exact ⟨_, _, Run.perform_create profile handlers initial, live, World.form?_push hlive _, h⟩
  case emit => exact hc.elim
  all_goals subst hform
  case submit => exact Run.submit_returns hc
  case look =>
    exact Run.ReturnsAmid.store.bind fun _ => (Run.ReturnsAmid.note _).bind fun _ => .pure _
  case profile => exact Run.ReturnsAmid.live_bind fun _ _ => .pure _
  case subscribe =>
    exact (Run.ReturnsAmid.changeStore fun _ => rfl).bind fun _ =>
      (Run.ReturnsAmid.note _).bind fun _ => .pure _
  case unsubscribe id =>
    exact (Run.ReturnsAmid.changeStore fun s => (s.unsubscribe_alike id).dispatching).bind fun _ =>
      (Run.ReturnsAmid.note _).bind fun _ => .pure _
  case register event name =>
    exact (Run.ReturnsAmid.changeChannels fun _ h => h.register name).bind fun _ =>
      (Run.ReturnsAmid.note _).bind fun _ => .pure _
  case unregister event id =>
    exact (Run.ReturnsAmid.changeChannels fun _ h => h.unregister).bind fun _ =>
      (Run.ReturnsAmid.note _).bind fun _ => .pure _
  case count | waiting =>
    exact Run.ReturnsAmid.live_bind fun _ _ => (Run.ReturnsAmid.note _).bind fun _ => .pure _

theorem memory_brief : (memory : Program σ κ σ).Uses (Call.Brief form) :=
  uses_call.2 ⟨nofun, trivial⟩

theorem setMemory_brief (memory : σ) :
    (setMemory memory : Program σ κ Unit).Uses (Call.Brief form) :=
  uses_call.2 ⟨nofun, trivial⟩

theorem submit_brief {submission : Submission κ} (hbatch : submission.batch ≠ []) :
    (submit form submission : Program σ κ _).Uses (Call.Brief form) :=
  uses_call.2 ⟨by simp [Call.form?], hbatch⟩

theorem subscribe_brief (name : κ) :
    (subscribe form name : Program σ κ ListenerId).Uses (Call.Brief form) :=
  uses_call.2 ⟨by simp [Call.form?], trivial⟩

theorem unsubscribe_brief (id : ListenerId) :
    (unsubscribe form id : Program σ κ Bool).Uses (Call.Brief form) :=
  uses_call.2 ⟨by simp [Call.form?], trivial⟩

/-- A program that runs no further host code comes to its end. -/
theorem Ends.of_brief {p : Program σ κ α} (hp : p.Uses (Call.Brief form)) :
    p.Ends host (fuel + 1) form := by
  intro w hw
  obtain ⟨a, w', hrun, -⟩ := Returns.of_uses (Nat.succ_pos fuel)
    (hp.mono fun _ => Returns.call_brief) w hw
  exact ⟨(a, w'), hrun⟩

end Program

/-! ## Batches of a host that returns -/

namespace Host.Returns

variable {host : Host σ κ} {fuel : Nat} (h : host.Returns fuel form)

include h

/-- An event without a connection is heard by the host only. -/
theorem emit_of_none {event : Event} (payload : Payload) (hnone : Connection.of? event = none) :
    (Program.emit form event payload).Returns host (fuel + 1) (World.Engaged form) := by
  change Run.ReturnsAmid form ((Program.emit form event payload).run host (fuel + 1))
  rw [Program.run_emit]
  -- one unit of fuel is enough, as no connection emits a second event from within
  refine Run.emit_returns payload (fun name => (h.handle name payload).returns (Nat.le_refl fuel))
    fun connection hsome => ?_
  cases hnone.symm.trans hsome

theorem emit (event : Event) (payload : Payload) :
    (Program.emit form event payload).Returns host (fuel + 2) (World.Engaged form) := by
  change Run.ReturnsAmid form ((Program.emit form event payload).run host (fuel + 2))
  rw [Program.run_emit]
  exact Run.emit_returns payload (fun name => (h.handle name payload).returns (Nat.le_succ fuel))
    fun _ hof => Run.connect_returns payload (h.emit_of_none payload (Connection.of?_target hof))

/-- What the form itself does in a round emits events and asks for the profile. -/
theorem of_uses {p : Program σ κ α}
    (hp : p.Uses fun c => c = .profile form ∨ ∃ event payload, c = .emit form event payload) :
    p.Returns host (fuel + 2) (World.Engaged form) := by
  refine .of_uses (Nat.succ_pos _) (hp.mono fun c hc => ?_)
  obtain rfl | ⟨event, payload, rfl⟩ := hc
  · exact .call_brief ⟨by simp [Call.form?], trivial⟩
  · exact h.emit event payload

theorem notify (state : Data) (listener : Listener κ) :
    Run.ReturnsAmid form (Run.notify host (Program.run host (fuel + 2)) form state listener) := by
  cases listener with
  | announces => exact h.of_uses (Program.announce_uses (.inr ⟨_, _, rfl⟩))
  | host _ name => exact (h.listen name state).returns (Nat.le_add_right fuel 2)

theorem comesAfter (state : Data) (after : Option (After κ)) :
    Run.ReturnsAmid form (Run.follow host (Program.run host (fuel + 2)) form state after) := by
  have hreport : ∀ after,
      Run.ReturnsAmid form ((Program.report form state after).run host (fuel + 2)) :=
    fun _ => h.of_uses (Program.report_uses (.inl rfl) fun _ _ => .inr ⟨_, _, rfl⟩)
  rcases after with _ | name | _ | _ | _
  · exact .pure ()
  · exact (h.follow name state).returns (Nat.le_add_right fuel 2)
  · exact hreport _
  · exact hreport _
  · exact hreport _

/-- The application of a batch returns. -/
theorem apply (submission : Submission κ) :
    Run.ReturnsAmid form (Run.apply host (Program.run host (fuel + 2)) form submission) := by
  have hcompute : Run.ReturnsAmid form
      (Run.compute host (Program.run host (fuel + 2)) form submission.batch) :=
    Run.ReturnsAmid.store.bind fun _ => (Run.ReturnsAmid.note _).bind fun _ => .applyM
      (fun name previous => (h.update name previous).returns (Nat.le_add_right fuel 2))
      (fun name value => (h.errors name value).returns (Nat.le_add_right fuel 2)) _ _
  -- each step leaves the form engaged, so the next one returns as well
  refine hcompute.bind fun result => ?_
  cases result with
  | error e => exact (Run.ReturnsAmid.note _).bind fun _ => .pure _
  | ok next =>
    refine (Run.ReturnsAmid.changeStore fun _ => rfl).bind fun audience =>
      Run.ReturnsAmid.store.bind fun _ => (Run.ReturnsAmid.note _).bind fun _ => ?_
    refine (Run.Returns.forM fun listener _ => ?_).bind fun _ =>
      (Run.ReturnsAmid.note _).bind fun _ =>
        (h.comesAfter next submission.after).bind fun _ => .pure _
    exact (Run.ReturnsAmid.note _).bind fun _ => h.notify next listener

end Host.Returns

end FormTree
