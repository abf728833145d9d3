import FormTree.Proofs.Channel.Wired
import FormTree.Proofs.Execution.Report

/-!
# The signals of a form

A form reports a new state by an external change event, and its handles report what they have done by
four internal signals: a change, a removal, and the two verdicts.  As long as host code does not emit
these events by itself, the journal has no others than those that the form has to emit.  Such host
code is `Reticent`.

What host code does amid a dispatch then emits none of them (`silent`), and the form emits what is
due.  So in every run of reticent programs the signals in the journal are those that were due, in the
same order (`run_signals`).
-/

namespace FormTree

variable {σ κ α : Type} {form : FormId}

/-! ## Signals in the journal -/

/-- The events by which a form and its handles report what batches led to. -/
def Event.Reports : Event → Bool
  | .external .change | .internal .fieldChange | .internal .fieldRemoved | .internal .fieldValid
  | .internal .fieldInvalid => true
  | _ => false

/-- The events of this sort that were emitted, in order. -/
def signalsIn (form : FormId) (entries : List (Occurrence κ)) : List (Event × Payload) :=
  entries.filterMap fun
    | .emitted other event payload =>
      if other = form ∧ event.Reports then some (event, payload) else none
    | _ => none

/-- What the form had to emit, in order: the state when it was to announce one, and what its handles
had to report. -/
def dueIn (form : FormId) (verdicts : Bool) (entries : List (Occurrence κ)) :
    List (Event × Payload) :=
  entries.flatMap fun
    | .notified other .announces state =>
      if other = form then [(.external .change, .state state)] else []
    | .followed other (some after) state => if other = form then after.due verdicts state else []
    | _ => []

/-- What the handle of a round has to emit: what is due after its batch, if the batch succeeded. -/
def Round.due (verdicts : Bool) (r : Round κ) : List (Event × Payload) :=
  match r.result, r.submission.after with
  | .ok l, some after => after.due verdicts l.state
  | _, _ => []

/-- All that a round has to emit: the state that its batch led to, and then what is due of its handle.
-/
def Round.signals (verdicts : Bool) (r : Round κ) : List (Event × Payload) :=
  match r.result with
  | .error _ => []
  | .ok l => (.external .change, .state l.state) :: r.due verdicts

section Entries

variable {verdicts : Bool} {s : Store κ} {first second : List (Occurrence κ)}

@[simp] theorem signalsIn_append :
    signalsIn form (first ++ second) = signalsIn form first ++ signalsIn form second :=
  List.filterMap_append

@[simp] theorem dueIn_append : dueIn form verdicts (first ++ second)
    = dueIn form verdicts first ++ dueIn form verdicts second :=
  List.flatMap_append

theorem signalsIn_cons (o : Occurrence κ) :
    signalsIn form (o :: first) = signalsIn form [o] ++ signalsIn form first := by
  rw [← List.singleton_append, signalsIn_append]

theorem dueIn_cons (o : Occurrence κ) :
    dueIn form verdicts (o :: first) = dueIn form verdicts [o] ++ dueIn form verdicts first := by
  rw [← List.singleton_append, dueIn_append]

theorem signalsIn_of_form_ne (h : ∀ o ∈ first, o.form ≠ form) : signalsIn form first = [] := by
  refine List.filterMap_eq_nil_iff.2 fun o ho => ?_
  split
  · exact if_neg fun hsignal => h _ ho hsignal.1
  · rfl

theorem dueIn_eq_nil
    (h : ∀ o ∈ first, (∀ listener state, o ≠ .notified form listener state)
      ∧ ∀ after state, o ≠ .followed form after state) : dueIn form verdicts first = [] := by
  refine List.flatMap_eq_nil_iff.2 fun o ho => ?_
  split
  · next other state =>
    refine if_neg ?_
    rintro rfl
    exact (h _ ho).1 _ state rfl
  · next other after state =>
    refine if_neg ?_
    rintro rfl
    exact (h _ ho).2 _ state rfl
  · rfl

theorem dueIn_followed (after : Option (After κ)) (state : Data) :
    dueIn form verdicts [.followed form after state]
      = (after.map (·.due verdicts state)).getD [] := by
  cases after <;> simp [dueIn]

/-- Nothing is due for what happens amid a dispatch. -/
theorem Interlude.nothing_due (h : Interlude form s first) : dueIn form verdicts first = [] := by
  refine dueIn_eq_nil fun o ho => ⟨?_, ?_⟩
  · rintro listener state rfl
    exact h _ ho rfl
  · rintro after state rfl
    exact h _ ho rfl

/-- The form announces as often as it is among those who are called. -/
theorem dueIn_heardEntries {state : Data} {heard : List (Listener κ × List (Occurrence κ))}
    (h : ∀ call ∈ heard, Interlude form s call.2) :
    dueIn form verdicts (heardEntries form state heard)
      = heard.flatMap fun call => match call.1 with
        | .announces => [(.external .change, .state state)]
        | .host _ _ => [] := by
  induction heard with
  | nil => rfl
  | cons call rest ih =>
    have hrest := ih fun other hother => h other (by simp [hother])
    have hentries : heardEntries form state (call :: rest)
        = .notified form call.1 state :: (call.2 ++ heardEntries form state rest) := rfl
    rw [hentries, dueIn_cons, dueIn_append, (h call (by simp)).nothing_due, hrest, List.flatMap_cons]
    cases call.1 <;> simp [dueIn]

/-- What is due for the entries of a round that succeeded. -/
theorem Round.Lawful.due_of_ok {r : Round κ} {l : Landing κ} (h : r.Lawful form s)
    (hl : r.result = .ok l) : dueIn form verdicts (r.occurrences form)
      = dueIn form verdicts (heardEntries form l.state l.heard) ++ r.due verdicts := by
  have hafterwards := (h.landing l hl).afterwards
  rw [occurrences_of_ok hl, ← List.singleton_append]
  simp only [dueIn_append, h.asked.nothing_due, hafterwards.nothing_due, dueIn_followed,
    List.append_nil]
  cases hafter : r.submission.after <;> simp [dueIn, Round.due, hl, hafter]

/-- Nothing is due for a round that failed. -/
theorem Round.Lawful.due_of_error {r : Round κ} {e : Fault} (h : r.Lawful form s)
    (he : r.result = .error e) : dueIn form verdicts (r.occurrences form) = [] := by
  rw [Round.occurrences, he, dueIn_cons, dueIn_append, h.asked.nothing_due]
  rfl

/-- What is due for the entries of a round that announces its state once, and first. -/
theorem Round.Lawful.due_eq_signals {r : Round κ} (h : r.Lawful form s)
    (hannounced : ∀ l, r.result = .ok l → ∃ entries calls, l.heard = (.announces, entries) :: calls
      ∧ .announces ∉ calls.map Prod.fst) :
    dueIn form verdicts (r.occurrences form) = r.signals verdicts := by
  cases hresult : r.result with
  | error e =>
    rw [h.due_of_error hresult, Round.signals, hresult]
  | ok l =>
    obtain ⟨entries, calls, hheard, hothers⟩ := hannounced l hresult
    have hnone : calls.flatMap (fun call => match call.1 with
        | .announces => [(Event.external .change, Payload.state l.state)]
        | .host _ _ => []) = [] := by
      refine List.flatMap_eq_nil_iff.2 fun call hcall => ?_
      split
      · next hself => exact absurd (hself ▸ List.mem_map_of_mem hcall) hothers
      · rfl
    rw [h.due_of_ok hresult, dueIn_heardEntries (h.landing l hresult).heard, hheard, List.flatMap_cons,
      hnone, Round.signals, hresult]
    rfl

end Entries

/-- What a handle has to emit are reports. -/
theorem After.reports_of_due {after : After κ} {verdicts : Bool} {state : Data}
    {event : Event × Payload} (h : event ∈ after.due verdicts state) : event.1.Reports = true := by
  have hverdict : ∀ name errors, (verdictEvent name errors).1.Reports = true := by
    intro name errors
    cases errors <;> rfl
  unfold due at h
  split at h
  · cases h
  · next signal payload hevent =>
    rcases List.mem_cons.1 h with rfl | h
    · cases after <;> cases hevent <;> rfl
    · obtain ⟨verdict, -, rfl⟩ := Option.map_eq_some_iff.1 (Option.mem_toList.1 h)
      exact hverdict ..

/-! ## Reticent host code -/

/-- Does not emit events by which the form and its handles report. -/
def Call.Reticent (form : FormId) : Call σ κ → Prop
  | .emit other event _ => other = form → event.Reports = false
  | _ => True

theorem Program.emit_reticent {event : Event} (h : event.Reports = false) (payload : Payload) :
    (emit form event payload : Program σ κ Nat).Uses (Call.Reticent form) :=
  (uses_call (c := .emit form event payload)).2 fun _ => h

namespace Connection

/-- What a connection emits is no report. -/
theorem not_reports_target {event : Event} {connection : Connection}
    (h : of? event = some connection) : connection.target.Reports = false := by
  revert h
  rcases event with event | event <;> cases event <;> rintro ⟨⟩ <;> rfl

end Connection

/-- A form whose connections stand behind their own events. -/
structure Standing (form : FormId) (w : World σ κ) (live : LiveForm κ) : Prop where
  found : w.form? form = some live
  placed : live.channels.Placed

/-- Between two worlds, the form went on as it was, and exactly the given reports were emitted. -/
structure Signals (form : FormId) (w : World σ κ) (live : LiveForm κ)
    (events : List (Event × Payload)) (w' : World σ κ) (live' : LiveForm κ) : Prop where
  standing : Standing form w' live'
  dispatching : live'.store.dispatching = live.store.dispatching
  profile : live'.profile = live.profile
  wrote : ∃ entries, w.Wrote entries w' ∧ signalsIn form entries = events

namespace Signals

variable {w v w' : World σ κ} {live between live' : LiveForm κ}
  {first second events : List (Event × Payload)} {entries : List (Occurrence κ)}

theorem nil (h : Standing form w live) : Signals form w live [] w live :=
  ⟨h, rfl, rfl, [], World.wrote_nil.2 rfl, rfl⟩

theorem append (h₁ : Signals form w live first v between)
    (h₂ : Signals form v between second w' live') :
    Signals form w live (first ++ second) w' live' := by
  obtain ⟨before, hwrote, rfl⟩ := h₁.wrote
  obtain ⟨behind, hwrote', rfl⟩ := h₂.wrote
  exact ⟨h₂.standing, h₂.dispatching.trans h₁.dispatching, h₂.profile.trans h₁.profile,
    _, hwrote.append hwrote', signalsIn_append⟩

theorem signalsIn_eq (h : Signals form w live events w' live') (hwrote : w.Wrote entries w') :
    signalsIn form entries = events := by
  obtain ⟨_, hwrote', hevents⟩ := h.wrote
  rw [hwrote.unique hwrote', hevents]

end Signals

/-- Progress of a form: what is due is signalled. -/
def reporting (form : FormId) : Progress σ κ form where
  rel w w' := ∀ live, Standing form w live → ∃ entries live', w.Wrote entries w'
    ∧ Signals form w live (dueIn form live.profile.settings.fieldValidity entries) w' live'
  refl w live hlive := ⟨[], live, World.wrote_nil.2 rfl, .nil hlive⟩
  trans := by
    intro u v w h₁ h₂ live hlive
    obtain ⟨first, between, hwrote, hfirst⟩ := h₁ live hlive
    obtain ⟨second, live', hwrote', hsecond⟩ := h₂ between hfirst.standing
    rw [hfirst.profile] at hsecond
    refine ⟨first ++ second, live', hwrote.append hwrote', ?_⟩
    rw [dueIn_append]
    exact hfirst.append hsecond
  frame := by
    intro w w' entries hwrote hother hsame live hlive
    have hnone : dueIn form live.profile.settings.fieldValidity entries = [] :=
      dueIn_eq_nil fun o ho => ⟨fun _ _ heq => hother o ho (by rw [heq]; rfl),
        fun _ _ heq => hother o ho (by rw [heq]; rfl)⟩
    refine ⟨entries, live, hwrote, ⟨hsame live hlive.found, hlive.placed⟩, rfl, rfl, entries, hwrote,
      ?_⟩
    rw [hnone, signalsIn_of_form_ne hother]
  absent hnone _ hlive := nomatch hnone.symm.trans hlive.found

/-- Progress amid a dispatch: no report is emitted. -/
def silent (form : FormId) : Progress σ κ form where
  rel w w' := ∀ live, Standing form w live → live.store.dispatching = true →
    ∃ live', Signals form w live [] w' live'
  refl w live hlive _ := ⟨live, .nil hlive⟩
  trans := by
    intro u v w h₁ h₂ live hlive hbusy
    obtain ⟨between, hfirst⟩ := h₁ live hlive hbusy
    obtain ⟨live', hsecond⟩ := h₂ between hfirst.standing (hfirst.dispatching.trans hbusy)
    exact ⟨live', hfirst.append hsecond⟩
  frame := by
    intro w w' entries hwrote hother hsame live hlive _
    exact ⟨live, ⟨hsame live hlive.found, hlive.placed⟩, rfl, rfl, entries, hwrote,
      signalsIn_of_form_ne hother⟩
  absent hnone _ hlive := nomatch hnone.symm.trans hlive.found

namespace Run

variable {host : Host σ κ} {fuel : Nat} {exec : {α : Type} → Program σ κ α → Run σ κ α}

/-- What signals what is due, and is an interlude, signals nothing. -/
theorem Keeps.silent {m : Run σ κ α} (hsignals : Keeps (reporting form) m)
    (hamid : Keeps (amid form) m) : Keeps (silent form) m := by
  intro w a w' hstep live hlive hbusy
  obtain ⟨entries, live', hwrote, hdue⟩ := hsignals hstep live hlive
  obtain ⟨during, _, hpasses⟩ := hamid hstep live hlive.found hbusy
  rw [hwrote.unique hpasses.wrote, hpasses.interlude.nothing_due] at hdue
  exact ⟨live', hdue⟩

/-! ## Steps that signal nothing -/

theorem note_reporting {o : Occurrence κ} (hsignals : signalsIn form [o] = [])
    (hdue : ∀ verdicts, dueIn form verdicts [o] = []) :
    Keeps (reporting form) (note o : Run σ κ Unit) := by
  intro w _ w' hstep live hlive
  rw [note_eq_ok.1 hstep]
  refine ⟨[o], live, w.wrote_note o, ⟨hlive.found, hlive.placed⟩, rfl, rfl, [o], w.wrote_note o, ?_⟩
  rw [hsignals, hdue]

theorem note_silent {o : Occurrence κ} (hsignals : signalsIn form [o] = []) :
    Keeps (silent form) (note o : Run σ κ Unit) := by
  intro w _ w' hstep live hlive _
  rw [note_eq_ok.1 hstep]
  exact ⟨live, ⟨hlive.found, hlive.placed⟩, rfl, rfl, [o], w.wrote_note o, hsignals⟩

theorem changeStore_reporting {f : Store κ → α × Store κ}
    (h : ∀ s : Store κ, (f s).2.dispatching = s.dispatching) :
    Keeps (reporting form) (changeStore form f : Run σ κ α) := by
  intro w a w' hstep live hlive
  rw [changeStore_of hlive.found] at hstep
  cases hstep
  exact ⟨[], _, World.wrote_nil.2 rfl, ⟨World.form?_setForm_self hlive.found _, hlive.placed⟩,
    h live.store, rfl, [], World.wrote_nil.2 rfl, rfl⟩

theorem changeChannels_reporting {f : Channels κ → α × Channels κ}
    (h : ∀ b : Channels κ, b.Placed → (f b).2.Placed) :
    Keeps (reporting form) (changeChannels form f : Run σ κ α) := by
  intro w a w' hstep live hlive
  rw [changeChannels_of hlive.found] at hstep
  cases hstep
  exact ⟨[], _, World.wrote_nil.2 rfl,
    ⟨World.form?_setForm_self hlive.found _, h _ hlive.placed⟩, rfl, rfl,
    [], World.wrote_nil.2 rfl, rfl⟩

/-! ## Emissions -/

/-- The connection of an event emits no report. -/
theorem connect_placed_keeps {P : Progress σ κ form} {event : Event} {connection : Connection}
    {payload : Payload}
    (hemit : ∀ target : Event, target.Reports = false →
      Keeps P (exec (Program.emit form target payload)))
    (hqueue : ∀ f : Channels κ → Bool × Channels κ, (∀ b, ∃ a q, (f b).2 = b.setQueue a q) →
      Keeps P (changeChannels form f))
    (hof : Connection.of? event = some connection) :
    Keeps P (connect exec form payload connection) :=
  connect_keeps payload (hemit _ (Connection.not_reports_target hof)) fun f queue _ hf =>
    hqueue f fun b => ⟨queue, hf b⟩

theorem setQueue_reporting {f : Channels κ → Bool × Channels κ}
    (h : ∀ b, ∃ a q, (f b).2 = b.setQueue a q) :
    Keeps (reporting form) (changeChannels form f : Run σ κ Bool) := by
  refine changeChannels_reporting fun b hb => ?_
  obtain ⟨a, q, hq⟩ := h b
  rw [hq]
  exact hb.setQueue a q

section Emissions

variable {event : Event} {payload : Payload} (hhost : host.Uses (Call.Reticent form))

include hhost

/-- The emission of an event that is no report signals what its handlers signal. -/
theorem emit_reporting (hexec : ∀ {α : Type} (p : Program σ κ α), p.Uses (Call.Reticent form) →
    Keeps (reporting form) (exec p)) (hevent : event.Reports = false) :
    Keeps (reporting form) (emit host exec form event payload) := by
  intro w calls w' hstep live hlive
  obtain ⟨v, hcalls, rfl, rfl⟩ := (emit_eq_ok hlive.found).1 hstep
  have hbegin : Keeps (reporting form) (note (.emitted form event payload) : Run σ κ Unit) :=
    note_reporting (by simp [signalsIn, hevent]) fun _ => rfl
  have hdeliver : Keeps (reporting form) ((live.channels.handlers event).forM fun entry => do
      note (.delivered form event entry.1 entry.2 payload)
      deliver host exec form payload entry.2) :=
    deliverAll_placed_keeps hlive.placed
      (fun _ => connect_placed_keeps
        (fun _ htarget => hexec _ (Program.emit_reticent htarget payload))
        fun _ => setQueue_reporting)
      (fun _ => hexec _ (hhost.handle ..)) fun _ _ => note_reporting rfl fun _ => rfl
  have hend : Keeps (reporting form) (note (.completed form event (live.channels.handlers event).length)
      : Run σ κ Unit) := note_reporting rfl fun _ => rfl
  exact (reporting form).trans (hbegin (note_ok _))
    ((reporting form).trans (hdeliver hcalls) (hend (note_ok _))) live hlive

variable {w w' : World σ κ} {live : LiveForm κ} {state : Data}
  (hexec : ∀ {α : Type} (p : Program σ κ α), p.Uses (Call.Reticent form) →
    Keeps (reporting form) (p.run host fuel))

omit hhost in
include hexec in
/-- Reticent programs that run amid a dispatch signal nothing. -/
theorem run_silent (p : Program σ κ α) (hp : p.Uses (Call.Reticent form)) :
    Keeps (silent form) (p.run host fuel) :=
  (hexec p hp).silent (Program.run_passes host fuel p)

include hexec

/-- The emission of a report amid a dispatch is that report, and no other. -/
theorem emit_signals {calls : Nat} (hlive : Standing form w live)
    (hbusy : live.store.dispatching = true) (hevent : event.Reports = true)
    (h : emit host (Program.run host fuel) form event payload w = .ok (calls, w')) :
    ∃ live', Signals form w live [(event, payload)] w' live' := by
  obtain ⟨v, hcalls, rfl, rfl⟩ := (emit_eq_ok hlive.found).1 h
  have hbegun : Signals form w live [(event, payload)] (w.note (.emitted form event payload)) live :=
    ⟨⟨hlive.found, hlive.placed⟩, rfl, rfl, _, w.wrote_note _, by simp [signalsIn, hevent]⟩
  have hdeliver : Keeps (silent form) ((live.channels.handlers event).forM fun entry => do
      note (.delivered form event entry.1 entry.2 payload)
      deliver host (Program.run host fuel) form payload entry.2) :=
    deliverAll_placed_keeps hlive.placed
      (fun _ => connect_placed_keeps
        (fun _ htarget => run_silent hexec _ (Program.emit_reticent htarget payload))
        fun f hf => (setQueue_reporting hf).silent (changeChannels_amid f))
      (fun _ => run_silent hexec _ (hhost.handle ..)) fun _ _ => note_silent rfl
  have hend : Keeps (silent form) (note (.completed form event (live.channels.handlers event).length)
      : Run σ κ Unit) := note_silent rfl
  obtain ⟨live', hrest⟩ :=
    (silent form).trans (hdeliver hcalls) (hend (note_ok _)) live hbegun.standing hbusy
  exact ⟨live', hbegun.append hrest⟩

end Emissions

/-! ## Reports -/

section Reports

variable {w w' : World σ κ} {live : LiveForm κ} {state : Data}
  (hhost : host.Uses (Call.Reticent form))
  (hless : ∀ less ≤ fuel, ∀ {α : Type} (p : Program σ κ α), p.Uses (Call.Reticent form) →
    Keeps (reporting form) (p.run host less))

include hhost hless

/-- A program that emits a report amid a dispatch emits that report. -/
theorem run_emit_signals {event : Event} {payload : Payload} {calls : Nat}
    (hlive : Standing form w live) (hbusy : live.store.dispatching = true)
    (hevent : event.Reports = true)
    (h : (Program.emit form event payload).run host fuel w = .ok (calls, w')) :
    ∃ live', Signals form w live [(event, payload)] w' live' := by
  cases fuel with
  | zero => exact absurd h Program.run_zero_ne_ok
  | succ fuel =>
    rw [Program.run_emit] at h
    exact emit_signals hhost (hless fuel (Nat.le_succ _)) hlive hbusy hevent h

/-- The report of a handle amid a dispatch signals what is due, and nothing else. -/
theorem report_signals {after : After κ} (hlive : Standing form w live)
    (hbusy : live.store.dispatching = true) (hhandle : after.OfHandle)
    (h : (Program.report form state after).run host fuel w = .ok ((), w')) :
    ∃ live', Signals form w live (after.due live.profile.settings.fieldValidity state) w' live' := by
  obtain ⟨⟨signal, payload⟩, hevent⟩ := (After.ofHandle_iff state).1 hhandle
  have hdue : ∀ event ∈ after.due live.profile.settings.fieldValidity state,
      event.1.Reports = true := fun _ => After.reports_of_due
  simp only [After.due, hevent] at hdue ⊢
  rw [Program.report_eq hevent, Program.run_bind_eq_ok] at h
  obtain ⟨_, v, hemit, hrest⟩ := h
  obtain ⟨between, hfirst⟩ :=
    run_emit_signals hhost hless hlive hbusy (hdue _ List.mem_cons_self) hemit
  -- a verdict follows if there is one to tell, and if the form reports on validity at all
  cases hverdict : after.verdict? state with
  | none =>
    simp only [hverdict] at hrest
    obtain ⟨-, -, rfl⟩ := Program.run_done.1 hrest
    exact ⟨between, by simpa using hfirst⟩
  | some verdict =>
    simp only [hverdict] at hrest
    cases fuel with
    | zero => exact absurd hrest Program.run_zero_ne_ok
    | succ fuel =>
      obtain ⟨_, _, hprofile, hannounce⟩ := Program.run_bind_eq_ok.1 hrest
      rw [Program.run_profile hfirst.standing.found] at hprofile
      cases hprofile
      rw [hfirst.profile] at hannounce
      cases hreports : live.profile.settings.fieldValidity with
      | false =>
        simp only [hreports, Bool.false_eq_true, if_false] at hannounce
        obtain ⟨-, -, rfl⟩ := Program.run_done.1 hannounce
        exact ⟨between, by simpa using hfirst⟩
      | true =>
        simp only [hreports, if_true] at hannounce
        obtain ⟨_, u, hsecond, hdone⟩ := Program.run_bind_eq_ok.1 hannounce
        obtain ⟨-, -, rfl⟩ := Program.run_done.1 hdone
        obtain ⟨live', hsecond⟩ := run_emit_signals hhost hless hfirst.standing
          (hfirst.dispatching.trans hbusy) (hdue (verdictEvent verdict.1 verdict.2)
            (by simp [hverdict, hreports])) hsecond
        exact ⟨live', hfirst.append hsecond⟩

end Reports

end Run

/-! ## Rounds and dispatches -/

section Dispatches

variable {host : Host σ κ} {fuel : Nat} {w w' : World σ κ} {live live' : LiveForm κ} {state : Data}
  (hhost : host.Uses (Call.Reticent form))
  (hless : ∀ less ≤ fuel, ∀ {α : Type} (p : Program σ κ α), p.Uses (Call.Reticent form) →
    Run.Keeps (reporting form) (p.run host less))

include hhost hless

/-- When the listeners are called, the form signals the state, and nobody else signals anything. -/
theorem Heard.signals {heard : List (Listener κ × List (Occurrence κ))}
    (h : Heard host fuel form state w live heard w' live') (hlive : Standing form w live)
    (hbusy : live.store.dispatching = true) (verdicts : Bool) :
    Standing form w' live' ∧ signalsIn form (heardEntries form state heard)
      = dueIn form verdicts (heardEntries form state heard) := by
  induction h with
  | nil => exact ⟨hlive, rfl⟩
  | @cons w v _ live between _ listener during rest hcall hduring _ ih =>
    have hcalled : ∃ called,
        Signals form (w.note (.notified form listener state)) live
          (dueIn form verdicts [.notified form listener state]) v called := by
      cases listener with
      | announces =>
        obtain ⟨_, _, hemit, hdone⟩ := Program.run_bind_eq_ok.1 hcall
        obtain ⟨-, -, rfl⟩ := Program.run_done.1 hdone
        have hstanding : Standing form (w.note (.notified form .announces state)) live :=
          ⟨hlive.found, hlive.placed⟩
        obtain ⟨called, hsignals⟩ :=
          Run.run_emit_signals hhost hless hstanding hbusy rfl hemit
        exact ⟨called, by simpa [dueIn] using hsignals⟩
      | host id name =>
        exact Run.run_silent (hless fuel (Nat.le_refl _)) _ (hhost.listen ..) hcall live
          ⟨hlive.found, hlive.placed⟩ hbusy
    obtain ⟨called, hsignals⟩ := hcalled
    -- both lemmas speak of the form in the same world
    obtain rfl := Option.some.inj (hsignals.standing.found.symm.trans hduring.found)
    obtain ⟨hlive', hrest⟩ := ih hsignals.standing (hsignals.dispatching.trans hbusy)
    have hentries : heardEntries form state ((listener, during) :: rest)
        = .notified form listener state :: (during ++ heardEntries form state rest) := rfl
    refine ⟨hlive', ?_⟩
    rw [hentries, signalsIn_cons, signalsIn_append, dueIn_cons, dueIn_append,
      hsignals.signalsIn_eq hduring.wrote, hduring.interlude.nothing_due, hrest]
    rfl

/-- What comes after a batch signals what is due. -/
theorem FollowedUp.signals {after : Option (After κ)}
    (h : FollowedUp host fuel form state after w w') (hlive : Standing form w live)
    (hbusy : live.store.dispatching = true) :
    ∃ live', Signals form w live
      ((after.map (·.due live.profile.settings.fieldValidity state)).getD []) w' live' := by
  cases after with
  | none =>
    obtain rfl : w' = w := h
    exact ⟨live, .nil hlive⟩
  | some after =>
    cases after with
    | host name =>
      exact Run.run_silent (hless fuel (Nat.le_refl _)) _ (hhost.follow ..) h live hlive hbusy
    | _ =>
      refine Run.report_signals hhost hless hlive hbusy ?_ (h.report ?_)
      all_goals trivial

/-- A round signals what is due. -/
theorem Round.Ran.signals {r : Round κ} (h : Round.Ran host fuel form w live r w' live')
    (hlive : Standing form w live) (hbusy : live.store.dispatching = true) :
    Standing form w' live' ∧ signalsIn form (r.occurrences form)
      = dueIn form live.profile.settings.fieldValidity (r.occurrences form) := by
  have hcompute : ∀ batch, Run.Keeps (silent form)
      (Run.compute host (Program.run host fuel) form batch) := fun batch =>
    (Run.Keeps.store form).bind fun _ => Run.Keeps.bind (Run.note_silent rfl) fun _ =>
      Run.Keeps.applyM (fun _ _ => Run.run_silent (hless fuel (Nat.le_refl _)) _ (hhost.update ..))
        (fun _ _ => Run.run_silent (hless fuel (Nat.le_refl _)) _ (hhost.errors ..)) _ _
  have hlawful := h.lawful
  cases h with
  | failed hran hasked =>
    obtain ⟨asking, hasking⟩ := hcompute _ hran live hlive hbusy
    obtain rfl := Option.some.inj (hasking.standing.found.symm.trans hasked.found)
    refine ⟨⟨hasking.standing.found, hasking.standing.placed⟩, ?_⟩
    rw [hlawful.due_of_error rfl, occurrences, ← List.cons_append, signalsIn_append,
      hasking.signalsIn_eq hasked.behind]
    rfl
  | @landed _ u _ _ _ hearing live' submission next asked heard afterwards hran hasked hheard _
      hfollow hafterwards =>
    -- nothing while host code is asked, the announcement among the listeners, the report at the end
    obtain ⟨asking, hasking⟩ := hcompute _ hran live hlive hbusy
    obtain rfl := Option.some.inj (hasking.standing.found.symm.trans hasked.found)
    obtain ⟨hhearing, hannounced⟩ := hheard.signals hhost hless
      ⟨World.form?_setForm_self hasking.standing.found _, hasking.standing.placed⟩
      (hasking.dispatching.trans hbusy) live.profile.settings.fieldValidity
    have hstanding : Standing form (u.note (.followed form submission.after next)) hearing :=
      ⟨hhearing.found, hhearing.placed⟩
    obtain ⟨settled, hsignals⟩ := hfollow.signals hhost hless hstanding
      (hheard.alike.dispatching.trans (hasking.dispatching.trans hbusy))
    obtain rfl := Option.some.inj (hsignals.standing.found.symm.trans hafterwards.found)
    have hprofile : hearing.profile = live.profile := hheard.profile.trans hasking.profile
    have hlast := hsignals.signalsIn_eq hafterwards.wrote
    rw [hprofile] at hlast
    refine ⟨hsignals.standing, ?_⟩
    rw [hlawful.due_of_ok rfl, occurrences_of_ok rfl]
    simp only [signalsIn_append, hasking.signalsIn_eq hasked.behind, hannounced, hlast]
    cases hafter : submission.after <;> simp [signalsIn, due, hafter]

/-- The rounds of a dispatch signal what is due, in order. -/
theorem WorkedOff.signals {rounds : List (Round κ)}
    (h : WorkedOff host fuel form w live rounds w' live') (hlive : Standing form w live)
    (hbusy : live.store.dispatching = true) :
    Standing form w' live' ∧ signalsIn form (roundEntries form rounds)
      = dueIn form live.profile.settings.fieldValidity (roundEntries form rounds) := by
  induction h with
  | nil => exact ⟨hlive, rfl⟩
  | @cons w _ _ live _ _ r _ waiting hfound _ hround _ ih =>
    have hwaiting : Standing form (w.setForm form (live.lineUp waiting)) (live.lineUp waiting) :=
      ⟨World.form?_setForm_self hfound _, hlive.placed⟩
    obtain ⟨hbetween, hfirst⟩ := hround.signals hhost hless hwaiting hbusy
    obtain ⟨hlive', hrest⟩ := ih hbetween (hround.dispatching.trans hbusy)
    rw [hround.profile] at hrest
    refine ⟨hlive', ?_⟩
    rw [roundEntries_cons, signalsIn_append, dueIn_append, hrest, hfirst]
    rfl

end Dispatches

/-! ## Whole runs -/

section Runs

variable {host : Host σ κ} {fuel : Nat} (hhost : host.Uses (Call.Reticent form))

include hhost

/-- A batch that is submitted signals what is due, at once or later. -/
theorem Run.submit_reporting
    (hless : ∀ less ≤ fuel, ∀ {α : Type} (p : Program σ κ α), p.Uses (Call.Reticent form) →
      Keeps (reporting form) (p.run host less)) (submission : Submission κ) :
    Keeps (reporting form) (submit host (Program.run host fuel) fuel form submission) := by
  intro w answer w' hstep live hlive
  by_cases hempty : submission.batch = []
  · unfold submit at hstep
    rw [bind_of_ok (store_of hlive.found), if_pos (by simp [hempty])] at hstep
    refine (Keeps.bind (note_reporting rfl fun _ => rfl) fun _ => Keeps.bind ?_ fun _ => Keeps.pure _)
      hstep live hlive
    rcases after : submission.after with _ | report
    · exact Keeps.pure ()
    · obtain ⟨name, rfl⟩ := Submission.after_of_empty hempty after
      exact hless fuel (Nat.le_refl _) _ (hhost.follow ..)
  · by_cases hbusy : live.store.dispatching = true
    · unfold submit at hstep
      rw [bind_of_ok (store_of hlive.found), if_neg (by simpa using hempty), if_pos hbusy] at hstep
      cases hpolicy : live.store.policy with
      | queue =>
        simp only [hpolicy] at hstep
        exact (Keeps.bind (note_reporting rfl fun _ => rfl) fun _ =>
          changeStore_reporting fun _ => rfl) hstep live hlive
      | reject =>
        simp only [hpolicy] at hstep
        exact (Keeps.bind (note_reporting rfl fun _ => rfl) fun _ => Keeps.pure _) hstep live hlive
    · have hrest : live.store.dispatching = false := by simpa using hbusy
      -- the dispatch ends within the submission, with all that it signals
      obtain ⟨first, rest, u, ended, hworked, rfl, -, -, -⟩ :=
        submit_workedOff hlive.found hrest hempty hstep
      obtain ⟨hended, hsignals⟩ := hworked.signals hhost hless
        ⟨World.form?_setForm_self hlive.found _, hlive.placed⟩ rfl
      have hwrote : w.Wrote (roundEntries form (first :: rest)) (u.setForm form (ended.mark false)) := by
        simpa [World.Wrote] using hworked.wrote
      exact ⟨_, ended.mark false, hwrote, ⟨World.form?_setForm_self hended.found _, hended.placed⟩,
        hrest.symm, hworked.profile, _, hwrote, hsignals⟩

/-- Every reticent call on the form signals what is due. -/
theorem Run.perform_reporting
    (hless : ∀ less ≤ fuel, ∀ {α : Type} (p : Program σ κ α), p.Uses (Call.Reticent form) →
      Keeps (reporting form) (p.run host less))
    (c : Call σ κ) (hreticent : c.Reticent form) (hc : c.form? = some form) :
    Keeps (reporting form) (perform host (Program.run host fuel) fuel c) := by
  have hnote : ∀ {o : Occurrence κ}, signalsIn form [o] = [] →
      (∀ verdicts, dueIn form verdicts [o] = []) →
      Keeps (reporting form) (note o : Run σ κ Unit) := note_reporting
  cases c <;> simp only [Call.form?, Option.some.injEq, reduceCtorEq] at hc <;> subst hc
  case look =>
    exact (Keeps.store _).bind fun _ => Keeps.bind (hnote rfl fun _ => rfl) fun _ => Keeps.pure _
  case profile => exact (Keeps.live _).bind fun _ => Keeps.pure _
  case submit submission => exact submit_reporting hhost hless submission
  case subscribe =>
    exact (changeStore_reporting fun _ => rfl).bind fun _ => Keeps.bind (hnote rfl fun _ => rfl)
      fun _ => Keeps.pure _
  case unsubscribe id =>
    exact (changeStore_reporting fun s => (s.unsubscribe_alike id).dispatching).bind fun _ =>
      Keeps.bind (hnote rfl fun _ => rfl) fun _ => Keeps.pure _
  case register event name =>
    exact (changeChannels_reporting fun b hb => hb.register name).bind fun _ =>
      Keeps.bind (hnote rfl fun _ => rfl) fun _ => Keeps.pure _
  case unregister event id =>
    exact (changeChannels_reporting fun b hb => hb.unregister).bind fun _ =>
      Keeps.bind (hnote rfl fun _ => rfl) fun _ => Keeps.pure _
  case emit event payload =>
    exact emit_reporting hhost (hless fuel (Nat.le_refl _)) (hreticent rfl)
  case count | waiting =>
    exact (Keeps.live _).bind fun _ => Keeps.bind (hnote rfl fun _ => rfl) fun _ => Keeps.pure _

/-- Every run of reticent programs signals what is due, in order. -/
theorem Program.run_signals (fuel : Nat) (p : Program σ κ α) (hp : p.Uses (Call.Reticent form)) :
    Run.Keeps (reporting form) (p.run host fuel) := by
  refine Program.keeps hhost (fun c hc => ?_)
    (fun _ hless c hreticent hc => Run.perform_reporting hhost hless c hreticent hc) fuel p hp
  cases c <;> first | trivial | exact fun heq => absurd (congrArg some heq) hc

end Runs

end FormTree
