import FormTree.Proofs.Channel.Wired
import FormTree.Proofs.Execution.Report

/-!
# The queue of invalid names

A name enters the queue of invalid names when its verdict has errors and leaves it when its verdict
has none; nothing else moves names in or out, as long as host code neither signals validity by itself
nor removes handlers of those signals.  Such host code is `Discreet`.

The reports of a dispatch come one after the other, because whatever is submitted meanwhile waits.
So for every run of discreet programs the queue afterwards is the queue before, with the verdicts of
the reports in the journal settled in their order (`run_settles`).
-/

namespace FormTree

variable {σ κ α : Type} {form : FormId}

/-! ## Verdicts in the journal -/

/-- The verdicts that the handles of a form reported, in order. -/
def verdictsIn (form : FormId) (occurrences : List (Occurrence κ)) : List (String × List String) :=
  occurrences.filterMap fun
    | .followed other (some after) state => if other = form then after.verdict? state else none
    | _ => none

@[simp] theorem verdictsIn_append (first second : List (Occurrence κ)) :
    verdictsIn form (first ++ second) = verdictsIn form first ++ verdictsIn form second :=
  List.filterMap_append

theorem verdictsIn_followed (after : Option (After κ)) (state : Data) :
    verdictsIn form [.followed form after state] = (after.bind (·.verdict? state)).toList := by
  cases after with
  | none => rfl
  | some after =>
    simp only [verdictsIn, List.filterMap_cons, List.filterMap_nil, if_true, Option.bind_some]
    cases after.verdict? state <;> rfl

theorem verdictsIn_of_form_ne {occurrences : List (Occurrence κ)}
    (h : ∀ o ∈ occurrences, o.form ≠ form) : verdictsIn form occurrences = [] := by
  refine List.filterMap_eq_nil_iff.2 fun o ho => ?_
  split
  · exact if_neg (h _ ho)
  · rfl

/-- No verdict is reported amid a dispatch. -/
theorem Interlude.no_verdict {s : Store κ} {during : List (Occurrence κ)}
    (h : Interlude form s during) : verdictsIn form during = [] := by
  refine List.filterMap_eq_nil_iff.2 fun o ho => ?_
  split
  · next other after state => exact if_neg (h _ ho)
  · rfl

/-- A round has one verdict at most. -/
theorem Round.Lawful.verdicts {s : Store κ} {r : Round κ} (h : r.Lawful form s) :
    verdictsIn form (r.occurrences form)
      = match r.result with
        | .error _ => []
        | .ok l => (r.submission.after.bind (·.verdict? l.state)).toList := by
  have hasked := h.asked.no_verdict
  obtain ⟨submission, against, asked, result⟩ := r
  cases result with
  | error e =>
    rw [occurrences, ← List.singleton_append, verdictsIn_append, verdictsIn_append, hasked]
    rfl
  | ok l =>
    obtain ⟨-, -, hheard, hafterwards⟩ := h.landing l rfl
    have hcalls : verdictsIn form (heardEntries form l.state l.heard) = [] := by
      refine List.filterMap_eq_nil_iff.2 fun o ho => ?_
      obtain ⟨call, hcall, ho⟩ := List.mem_flatMap.1 ho
      rcases List.mem_cons.1 ho with rfl | ho
      · rfl
      · exact List.filterMap_eq_nil_iff.1 (hheard call hcall).no_verdict o ho
    rw [occurrences_of_ok rfl, ← List.singleton_append]
    simp only [verdictsIn_append, hasked, hcalls, hafterwards.no_verdict, verdictsIn_followed,
      List.append_nil]
    rfl

/-! ## Discreet host code -/

/-- Neither signals the validity of fields of the form nor removes handlers of these signals. -/
def Call.Discreet (form : FormId) : Call σ κ → Prop
  | .emit other event _ | .unregister other event _ => other = form → ¬ event.IsValidity
  | _ => True

theorem Program.emit_discreet {event : Event} (h : ¬ event.IsValidity) (other : FormId)
    (payload : Payload) : (emit other event payload : Program σ κ Nat).Uses (Call.Discreet form) :=
  (uses_call (c := .emit other event payload)).2 fun _ => h

/-- A form that is wired and reports verdicts. -/
structure Watched (form : FormId) (w : World σ κ) (live : LiveForm κ) : Prop where
  found : w.form? form = some live
  wired : live.channels.Wired
  reports : live.profile.settings.fieldValidity = true

theorem Watched.note {w : World σ κ} {live : LiveForm κ} (h : Watched form w live)
    (o : Occurrence κ) : Watched form (w.note o) live := ⟨h.found, h.wired, h.reports⟩

/-- Progress of a form that is watched: its queue of invalid names has settled the verdicts in the
journal. -/
def settling (form : FormId) : Progress σ κ form where
  rel w w' := ∀ live, Watched form w live → ∃ entries live', w.Wrote entries w'
    ∧ Watched form w' live' ∧ live'.store.dispatching = live.store.dispatching
    ∧ live'.channels.invalid = (verdictsIn form entries).foldl IdQueue.settle live.channels.invalid
  refl w live hlive := ⟨[], live, World.wrote_nil.2 rfl, hlive, rfl, rfl⟩
  trans := by
    intro u v w h₁ h₂ live hlive
    obtain ⟨first, between, hwrote, hbetween, hsame, hfirst⟩ := h₁ live hlive
    obtain ⟨second, live', hwrote', hlive', hsame', hsecond⟩ := h₂ between hbetween
    refine ⟨first ++ second, live', hwrote.append hwrote', hlive', hsame'.trans hsame, ?_⟩
    rw [hsecond, hfirst, verdictsIn_append, List.foldl_append]
  frame := by
    intro w w' entries hwrote hother hsame live hlive
    exact ⟨entries, live, hwrote, ⟨hsame live hlive.found, hlive.wired, hlive.reports⟩, rfl,
      by rw [verdictsIn_of_form_ne hother]; rfl⟩
  absent hnone _ hlive := nomatch hnone.symm.trans hlive.found

/-- Progress of a watched form amid a dispatch: its queue of invalid names stays as it is. -/
def still (form : FormId) : Progress σ κ form where
  rel w w' := ∀ live, Watched form w live → live.store.dispatching = true →
    ∃ live', Watched form w' live' ∧ live'.store.dispatching = true
      ∧ live'.channels.invalid = live.channels.invalid
  refl w live hlive hbusy := ⟨live, hlive, hbusy, rfl⟩
  trans := by
    intro u v w h₁ h₂ live hlive hbusy
    obtain ⟨between, hbetween, hbusy, hfirst⟩ := h₁ live hlive hbusy
    obtain ⟨live', hlive', hbusy, hsecond⟩ := h₂ between hbetween hbusy
    exact ⟨live', hlive', hbusy, hsecond.trans hfirst⟩
  frame := by
    intro w w' entries _ _ hsame live hlive hbusy
    exact ⟨live, ⟨hsame live hlive.found, hlive.wired, hlive.reports⟩, hbusy, rfl⟩
  absent hnone _ hlive := nomatch hnone.symm.trans hlive.found

namespace Run

/-- What settles the queue and is an interlude leaves the queue as it is. -/
theorem Keeps.still {m : Run σ κ α} (hsettles : Keeps (settling form) m)
    (hamid : Keeps (amid form) m) : Keeps (still form) m := by
  intro w a w' hstep live hlive hbusy
  obtain ⟨entries, live', hwrote, hlive', hsame, hqueue⟩ := hsettles hstep live hlive
  obtain ⟨during, _, hpasses⟩ := hamid hstep live hlive.found hbusy
  rw [hwrote.unique hpasses.wrote, hpasses.interlude.no_verdict] at hqueue
  exact ⟨live', hlive', hsame.trans hbusy, hqueue⟩

/-! ## Steps that settle nothing -/

variable {host : Host σ κ} {fuel : Nat} {exec : {α : Type} → Program σ κ α → Run σ κ α}

theorem note_settling {o : Occurrence κ} (h : verdictsIn form [o] = []) :
    Keeps (settling form) (note o : Run σ κ Unit) := by
  intro w _ w' hstep live hlive
  rw [note_eq_ok.1 hstep]
  exact ⟨[o], live, w.wrote_note o, hlive.note o, rfl, by rw [h]; rfl⟩

theorem changeStore_settling {f : Store κ → α × Store κ}
    (h : ∀ s : Store κ, (f s).2.dispatching = s.dispatching) :
    Keeps (settling form) (changeStore form f : Run σ κ α) := by
  intro w a w' hstep live hlive
  rw [changeStore_of hlive.found] at hstep
  cases hstep
  exact ⟨[], _, World.wrote_nil.2 rfl,
    ⟨World.form?_setForm_self hlive.found _, hlive.wired, hlive.reports⟩, h live.store, rfl⟩

theorem changeChannels_settling {f : Channels κ → α × Channels κ}
    (h : ∀ b : Channels κ, b.Wired → (f b).2.Wired ∧ (f b).2.invalid = b.invalid) :
    Keeps (settling form) (changeChannels form f : Run σ κ α) := by
  intro w a w' hstep live hlive
  rw [changeChannels_of hlive.found] at hstep
  cases hstep
  obtain ⟨hwired, hinvalid⟩ := h live.channels hlive.wired
  exact ⟨[], _, World.wrote_nil.2 rfl,
    ⟨World.form?_setForm_self hlive.found _, hwired, hlive.reports⟩, rfl, hinvalid⟩

theorem note_still (o : Occurrence κ) : Keeps (still form) (note o : Run σ κ Unit) := by
  intro w _ w' hstep live hlive hbusy
  rw [note_eq_ok.1 hstep]
  exact ⟨live, hlive.note o, hbusy, rfl⟩

/-! ## Emissions -/

section Connections

variable {P : Progress σ κ form} {payload : Payload}
  (hemit : ∀ event : Event, ¬ event.IsValidity → ¬ event.TellsValidity →
    Keeps P (exec (Program.emit form event payload)))
  (hbusy : ∀ f : Channels κ → Bool × Channels κ, (∀ b, ∃ q, (f b).2 = b.setQueue .busy q) →
    Keeps P (changeChannels form f))

include hemit hbusy

/-- A connection of an event that is no validity signal does not touch the queue of invalid names. -/
theorem connect_plain_keeps {event : Event} {connection : Connection} (hevent : ¬ event.IsValidity)
    (hof : Connection.of? event = some connection) :
    Keeps P (connect exec form payload connection) := by
  refine connect_keeps payload (hemit _ (Connection.not_isValidity_target hof)
    (Connection.not_tellsValidity_target hof hevent)) fun f queue hqueue hf => hbusy f ?_
  cases queue with
  | invalid => exact absurd hqueue (Connection.queue?_ne_invalid hof hevent)
  | busy => exact hf

/-- A progress about wired forms is kept by the emission of an event that is no validity signal, if
its handlers keep it. -/
theorem emit_plain_keeps {event : Event} (hevent : ¬ event.IsValidity)
    (hwired : ∀ {w w'}, (∀ live, w.form? form = some live → live.channels.Wired → P.rel w w') →
      P.rel w w')
    (hhandle : ∀ name, Keeps P (exec (host.handle name form payload)))
    (hbegin : Keeps P (note (.emitted form event payload)))
    (hcall : ∀ id handler, Keeps P (note (.delivered form event id handler payload)))
    (hend : ∀ calls, Keeps P (note (.completed form event calls))) :
    Keeps P (emit host exec form event payload) := by
  intro w calls w' hstep
  refine hwired fun live hlive hlivewired => ?_
  obtain ⟨v, hcalls, rfl, rfl⟩ := (emit_eq_ok hlive).1 hstep
  have hdeliver : Keeps P ((live.channels.handlers event).forM fun entry => do
      note (.delivered form event entry.1 entry.2 payload)
      deliver host exec form payload entry.2) :=
    deliverAll_placed_keeps hlivewired.own (fun _ => connect_plain_keeps hemit hbusy hevent) hhandle
      hcall
  exact P.trans (hbegin (note_ok _)) (P.trans (hdeliver hcalls) (hend _ (note_ok _)))

end Connections

section Emissions

variable (hhost : host.Uses (Call.Discreet form))
  (hexec : ∀ {α : Type} (p : Program σ κ α), p.Uses (Call.Discreet form) →
    Keeps (settling form) (exec p))

include hexec

theorem emit_call_settling {event : Event} (hevent : ¬ event.IsValidity) (payload : Payload) :
    Keeps (settling form) (exec (Program.emit form event payload)) :=
  hexec _ (Program.emit_discreet hevent form payload)

include hhost

/-- The emission of an event that is no validity signal settles what its handlers settle. -/
theorem emit_settling {event : Event} (hevent : ¬ event.IsValidity) (payload : Payload) :
    Keeps (settling form) (emit host exec form event payload) := by
  refine emit_plain_keeps (fun _ hevent _ => emit_call_settling hexec hevent payload)
    (fun f hf => changeChannels_settling fun b hb => ?_) hevent
    (fun h live hlive => h live hlive.found hlive.wired live hlive)
    (fun name => hexec _ (hhost.handle ..)) (note_settling rfl) (fun _ _ => note_settling rfl)
    fun _ => note_settling rfl
  obtain ⟨q, hq⟩ := hf b
  rw [hq]
  exact ⟨hb.setQueue _ _, rfl⟩

end Emissions

/-! ## The emission of a verdict -/

section Verdicts

variable {w w' : World σ κ} {live : LiveForm κ} {name : String} {errors : List String}
  (hhost : host.Uses (Call.Discreet form))
  (hexec : ∀ {α : Type} (p : Program σ κ α), p.Uses (Call.Discreet form) →
    Keeps (settling form) (p.run host fuel))

include hexec

/-- Discreet programs that run amid a dispatch leave the queue of invalid names as it is. -/
theorem run_still (p : Program σ κ α) (hp : p.Uses (Call.Discreet form)) :
    Keeps (still form) (p.run host fuel) :=
  (hexec p hp).still (Program.run_passes host fuel p)

/-- The connection of a validity signal settles the verdict. -/
theorem connect_verdict {connection : Connection} {value : Option Json}
    (hlive : Watched form w live) (hbusy : live.store.dispatching = true)
    (hof : Connection.of? (.internal (verdictSignal errors)) = some connection)
    (h : connect (Program.run host fuel) form (.field name value) connection w = .ok ((), w')) :
    ∃ live', Watched form w' live' ∧ live'.store.dispatching = true
      ∧ live'.channels.invalid = live.channels.invalid.settle (name, errors) := by
  -- the name moves first, and what the host hears of it afterwards moves no name
  have hmoves : ∀ (f : Channels κ → Bool × Channels κ) e,
      (f live.channels).2
        = live.channels.setQueue .invalid (live.channels.invalid.settle (name, errors)) →
      (do
        if ← changeChannels form f then
          let _ ← Program.run host fuel (Program.emit form (.external e) (.field name value)))
        w = .ok ((), w') →
      ∃ live', Watched form w' live' ∧ live'.store.dispatching = true
        ∧ live'.channels.invalid = live.channels.invalid.settle (name, errors) := by
    intro f e hf h
    rw [bind_of_ok (changeChannels_of hlive.found f), hf] at h
    have hmoved : Watched form (w.setForm form _) { live with
        channels := live.channels.setQueue .invalid (live.channels.invalid.settle (name, errors)) } :=
      ⟨World.form?_setForm_self hlive.found _, hlive.wired.setQueue .invalid _, hlive.reports⟩
    split at h
    · obtain ⟨_, _, hemit, hdone⟩ := bind_eq_ok.1 h
      rw [pure_of_ok hdone]
      have hstill : Keeps (still form)
          (Program.run host fuel (Program.emit form (.external e) (.field name value))) :=
        (emit_call_settling hexec (by rintro (h | h) <;> cases h) _).still
          (Program.run_passes host fuel _)
      exact hstill hemit _ hmoved hbusy
    · rw [pure_of_ok h]
      exact ⟨_, hmoved, hbusy, rfl⟩
  cases errors with
  | nil =>
    cases hof
    exact hmoves _ _ rfl h
  | cons _ _ =>
    cases hof
    exact hmoves _ _ rfl h

include hhost

/-- When a verdict is signalled amid a dispatch, the queue of invalid names settles it. -/
theorem emit_verdict {value : Option Json} {calls : Nat} (hlive : Watched form w live)
    (hbusy : live.store.dispatching = true)
    (h : emit host (Program.run host fuel) form (.internal (verdictSignal errors))
      (.field name value) w = .ok (calls, w')) :
    ∃ live', Watched form w' live' ∧ live'.store.dispatching = true
      ∧ live'.channels.invalid = live.channels.invalid.settle (name, errors) := by
  obtain ⟨v, hcalls, rfl, rfl⟩ := (emit_eq_ok hlive.found).1 h
  have hvalidity : (Event.internal (verdictSignal errors)).IsValidity := by
    cases errors <;> simp [verdictSignal, Event.IsValidity]
  obtain ⟨id, connection, hosts, hof, hlist, hhosts⟩ := hlive.wired.front _ hvalidity
  rw [hlist] at hcalls
  obtain ⟨_, u, hfirst, hrest⟩ := bind_eq_ok.1 hcalls
  obtain ⟨_, _, hnote, hconnect⟩ := bind_eq_ok.1 hfirst
  rw [note_eq_ok.1 hnote] at hconnect
  obtain ⟨settled, hsettled, hbusy, hqueue⟩ :=
    connect_verdict hexec ((hlive.note _).note _) hbusy hof hconnect
  have hhear : ∀ entry ∈ hosts, Keeps (still form) (do
      note (.delivered form (.internal (verdictSignal errors)) entry.1 entry.2 (.field name value))
      deliver host (Program.run host fuel) form (.field name value) entry.2) := by
    intro entry hentry
    obtain ⟨callback, hcallback⟩ := hhosts entry hentry
    rw [hcallback]
    exact Keeps.bind (note_still _) fun _ => run_still hexec _ (hhost.handle ..)
  have hend : ∀ calls, (still form).rel v
      (v.note (.completed form (.internal (verdictSignal errors)) calls)) :=
    fun _ => note_still _ (note_ok _)
  obtain ⟨live', hlive', hbusy, hsame⟩ :=
    (still form).trans (Keeps.forM hhear hrest) (hend _) settled hsettled hbusy
  exact ⟨live', hlive', hbusy, hsame.trans hqueue⟩

end Verdicts

/-! ## Rounds and dispatches -/

section Rounds

variable {w w' : World σ κ} {live live' : LiveForm κ} {state : Data}
  (hhost : host.Uses (Call.Discreet form))
  (hless : ∀ less ≤ fuel, ∀ {α : Type} (p : Program σ κ α), p.Uses (Call.Discreet form) →
    Keeps (settling form) (p.run host less))

include hhost hless

/-- The report of a handle amid a dispatch settles its verdict and no other. -/
theorem report_settles {after : After κ} {signal : Signal} {payload : Payload}
    (hlive : Watched form w live) (hbusy : live.store.dispatching = true)
    (hevent : after.event? state = some (signal, payload))
    (h : (Program.report form state after).run host fuel w = .ok ((), w')) :
    ∃ live', Watched form w' live' ∧ live'.store.dispatching = true
      ∧ live'.channels.invalid
        = (after.verdict? state).toList.foldl IdQueue.settle live.channels.invalid := by
  rw [Program.report_eq hevent, Program.run_bind_eq_ok] at h
  obtain ⟨_, v, hemit, hrest⟩ := h
  -- the change comes first, and it is no validity signal
  have hsignal : ¬ (Event.internal signal).IsValidity := by
    cases after <;> cases hevent <;> decide
  obtain ⟨between, hbetween, hbusy, hsame⟩ :=
    ((emit_call_settling (hless fuel (Nat.le_refl _)) hsignal payload).still
      (Program.run_passes host fuel _)) hemit live hlive hbusy
  rw [← hsame]
  cases hverdict : after.verdict? state with
  | none =>
    simp only [hverdict] at hrest
    obtain ⟨-, -, rfl⟩ := Program.run_done.1 hrest
    exact ⟨between, hbetween, hbusy, rfl⟩
  | some verdict =>
    simp only [hverdict] at hrest
    cases fuel with
    | zero => exact absurd hrest Program.run_zero_ne_ok
    | succ fuel =>
      obtain ⟨_, _, hprofile, hannounce⟩ := Program.run_bind_eq_ok.1 hrest
      rw [Program.run_profile hbetween.found] at hprofile
      cases hprofile
      rw [if_pos hbetween.reports] at hannounce
      obtain ⟨_, u, hverdict, hdone⟩ := Program.run_bind_eq_ok.1 hannounce
      obtain ⟨-, -, rfl⟩ := Program.run_done.1 hdone
      rw [Program.run_emit] at hverdict
      exact emit_verdict hhost (hless fuel (Nat.le_succ _)) hbetween hbusy hverdict

/-- What comes after a batch settles its verdict, if it has one. -/
theorem follow_settles {after : Option (After κ)} (hlive : Watched form w live)
    (hbusy : live.store.dispatching = true)
    (h : follow host (Program.run host fuel) form state after w = .ok ((), w')) :
    ∃ live', Watched form w' live' ∧ live'.store.dispatching = true
      ∧ live'.channels.invalid
        = (after.bind (·.verdict? state)).toList.foldl IdQueue.settle live.channels.invalid := by
  cases after with
  | none =>
    rw [pure_of_ok h]
    exact ⟨live, hlive, hbusy, rfl⟩
  | some after =>
    cases hevent : after.event? state with
    | none =>
      rw [Option.bind_some, After.verdict?_eq_none hevent]
      cases after with
      | host name =>
        exact run_still (hless fuel (Nat.le_refl _)) _ (hhost.follow ..) h live hlive hbusy
      | _ => cases hevent
    | some event =>
      have hreport : (Program.report form state after).run host fuel w = .ok ((), w') := by
        cases after with
        | host _ => cases hevent
        | _ => exact h
      exact report_settles hhost hless hlive hbusy hevent hreport

end Rounds

end Run

section Dispatches

variable {host : Host σ κ} {fuel : Nat} {w w' : World σ κ} {live live' : LiveForm κ}
  (hhost : host.Uses (Call.Discreet form))
  (hless : ∀ less ≤ fuel, ∀ {α : Type} (p : Program σ κ α), p.Uses (Call.Discreet form) →
    Run.Keeps (settling form) (p.run host less))

include hhost hless

/-- Listeners that are called settle nothing. -/
theorem Heard.queue_eq {state : Data} {heard : List (Listener κ × List (Occurrence κ))}
    (h : Heard host fuel form state w live heard w' live') (hlive : Watched form w live)
    (hbusy : live.store.dispatching = true) :
    Watched form w' live' ∧ live'.store.dispatching = true
      ∧ live'.channels.invalid = live.channels.invalid := by
  induction h with
  | nil => exact ⟨hlive, hbusy, rfl⟩
  | @cons w _ _ live _ _ listener _ _ hcall hduring _ ih =>
    have hlistener : (listener.program host form state).Uses (Call.Discreet form) := by
      cases listener with
      | announces =>
        refine Program.announce_uses fun _ => ?_
        rintro (h | h) <;> cases h
      | host _ name => exact hhost.listen ..
    obtain ⟨between, hbetween, hbusy', hsame⟩ :=
      Run.run_still (hless fuel (Nat.le_refl _)) _ hlistener hcall live (hlive.note _) hbusy
    -- both lemmas speak of the form in the same world
    obtain rfl := Option.some.inj (hbetween.found.symm.trans hduring.found)
    obtain ⟨hlive', hbusy', hqueue⟩ := ih hbetween hbusy'
    exact ⟨hlive', hbusy', hqueue.trans hsame⟩

/-- A round settles the verdict that it reports. -/
theorem Round.Ran.settles {r : Round κ} (h : Round.Ran host fuel form w live r w' live')
    (hlive : Watched form w live) (hbusy : live.store.dispatching = true) :
    Watched form w' live' ∧ live'.channels.invalid
      = (verdictsIn form (r.occurrences form)).foldl IdQueue.settle live.channels.invalid := by
  have hcompute : ∀ batch, Run.Keeps (still form)
      (Run.compute host (Program.run host fuel) form batch) := fun batch =>
    (Run.Keeps.store form).bind fun _ => Run.Keeps.bind (Run.note_still _) fun _ =>
      Run.Keeps.applyM (fun _ _ => Run.run_still (hless fuel (Nat.le_refl _)) _ (hhost.update ..))
        (fun _ _ => Run.run_still (hless fuel (Nat.le_refl _)) _ (hhost.errors ..)) _ _
  rw [h.lawful.verdicts]
  cases h with
  | failed hran hasked =>
    obtain ⟨asking, hasking, -, hsame⟩ := hcompute _ hran live hlive hbusy
    obtain rfl := Option.some.inj (hasking.found.symm.trans hasked.found)
    exact ⟨hasking.note _, hsame⟩
  | @landed _ u _ _ _ hearing live' submission next _ _ _ hran hasked hheard _ hfollow hafterwards =>
    obtain ⟨asking, hasking, hbusy, hsame⟩ := hcompute _ hran live hlive hbusy
    obtain rfl := Option.some.inj (hasking.found.symm.trans hasked.found)
    obtain ⟨hhearing, hbusy, hqueue⟩ := hheard.queue_eq hhost hless
      ⟨World.form?_setForm_self hasking.found _, hasking.wired, hasking.reports⟩ hbusy
    obtain ⟨settled, hsettled, -, hverdict⟩ :=
      Run.follow_settles hhost hless (hhearing.note _) hbusy (Run.follow_eq_ok.2 hfollow)
    obtain rfl := Option.some.inj (hsettled.found.symm.trans hafterwards.found)
    rw [hqueue, hsame] at hverdict
    exact ⟨hsettled, hverdict⟩

/-- The rounds of a dispatch settle the verdicts that they report, in their order. -/
theorem WorkedOff.settles {rounds : List (Round κ)}
    (h : WorkedOff host fuel form w live rounds w' live') (hlive : Watched form w live)
    (hbusy : live.store.dispatching = true) :
    Watched form w' live' ∧ live'.channels.invalid
      = (verdictsIn form (roundEntries form rounds)).foldl IdQueue.settle live.channels.invalid := by
  induction h with
  | nil => exact ⟨hlive, rfl⟩
  | @cons w _ _ live _ _ r _ waiting hfound _ hround _ ih =>
    have hwaiting : Watched form (w.setForm form (live.lineUp waiting)) (live.lineUp waiting) :=
      ⟨World.form?_setForm_self hfound _, hlive.wired, hlive.reports⟩
    obtain ⟨hbetween, hfirst⟩ := hround.settles hhost hless hwaiting hbusy
    obtain ⟨hlive', hrest⟩ := ih hbetween (hround.dispatching.trans hbusy)
    refine ⟨hlive', ?_⟩
    rw [hrest, hfirst, roundEntries_cons, verdictsIn_append, List.foldl_append]
    rfl

end Dispatches

/-! ## Whole runs -/

section Runs

variable {host : Host σ κ} {fuel : Nat} (hhost : host.Uses (Call.Discreet form))

include hhost

/-- A batch that is submitted settles what its dispatch reports, at once or later. -/
theorem Run.submit_settling
    (hless : ∀ less ≤ fuel, ∀ {α : Type} (p : Program σ κ α), p.Uses (Call.Discreet form) →
      Keeps (settling form) (p.run host less)) (submission : Submission κ) :
    Keeps (settling form) (submit host (Program.run host fuel) fuel form submission) := by
  intro w answer w' hstep live hlive
  by_cases hempty : submission.batch = []
  · unfold submit at hstep
    rw [bind_of_ok (store_of hlive.found), if_pos (by simp [hempty])] at hstep
    have hskipped : verdictsIn form [.skipped form submission.after live.store.state] = [] := rfl
    refine (Keeps.bind (note_settling hskipped) fun _ => Keeps.bind ?_ fun _ => Keeps.pure _) hstep
      live hlive
    rcases after : submission.after with _ | report
    · exact Keeps.pure ()
    · obtain ⟨name, rfl⟩ := Submission.after_of_empty hempty after
      exact hless fuel (Nat.le_refl _) _ (hhost.follow ..)
  · by_cases hbusy : live.store.dispatching = true
    · unfold submit at hstep
      rw [bind_of_ok (store_of hlive.found), if_neg (by simpa using hempty), if_pos hbusy] at hstep
      cases hpolicy : live.store.policy with
      | queue =>
        simp only [hpolicy] at hstep
        exact (Keeps.bind (note_settling rfl) fun _ => changeStore_settling fun _ => rfl) hstep
          live hlive
      | reject =>
        simp only [hpolicy] at hstep
        exact (Keeps.bind (note_settling rfl) fun _ => Keeps.pure _) hstep live hlive
    · have hrest : live.store.dispatching = false := by simpa using hbusy
      obtain ⟨first, rest, u, ended, hworked, rfl, -, -, -⟩ :=
        submit_workedOff hlive.found hrest hempty hstep
      -- the mark of the dispatch concerns the store only, so the queue is that of the drained form
      obtain ⟨hended, hqueue⟩ := hworked.settles hhost hless
        ⟨World.form?_setForm_self hlive.found _, hlive.wired, hlive.reports⟩ rfl
      refine ⟨roundEntries form (first :: rest), ended.mark false,
        by simpa [World.Wrote] using hworked.wrote,
        ⟨World.form?_setForm_self hended.found _, hended.wired, hended.reports⟩, hrest.symm, hqueue⟩

/-- Every discreet call on the form settles the verdicts that it has reported. -/
theorem Run.perform_settling
    (hless : ∀ less ≤ fuel, ∀ {α : Type} (p : Program σ κ α), p.Uses (Call.Discreet form) →
      Keeps (settling form) (p.run host less))
    (c : Call σ κ) (hdiscreet : c.Discreet form) (hc : c.form? = some form) :
    Keeps (settling form) (perform host (Program.run host fuel) fuel c) := by
  cases c <;> simp only [Call.form?, Option.some.injEq, reduceCtorEq] at hc <;> subst hc
  case look =>
    exact (Keeps.store _).bind fun _ => Keeps.bind (note_settling rfl) fun _ => Keeps.pure _
  case profile => exact (Keeps.live _).bind fun _ => Keeps.pure _
  case submit submission => exact submit_settling hhost hless submission
  case subscribe =>
    exact (changeStore_settling fun _ => rfl).bind fun _ => Keeps.bind (note_settling rfl)
      fun _ => Keeps.pure _
  case unsubscribe id =>
    exact (changeStore_settling fun s => (s.unsubscribe_alike id).dispatching).bind fun _ =>
      Keeps.bind (note_settling rfl) fun _ => Keeps.pure _
  case register event name =>
    refine (changeChannels_settling fun b hb => ⟨hb.register name, ?_⟩).bind fun _ =>
      Keeps.bind (note_settling rfl) fun _ => Keeps.pure _
    cases event <;> rfl
  case unregister event id =>
    refine (changeChannels_settling fun b hb => ⟨hb.unregister (hdiscreet rfl), ?_⟩).bind fun _ =>
      Keeps.bind (note_settling rfl) fun _ => Keeps.pure _
    cases event <;> rfl
  case emit event payload =>
    exact emit_settling hhost (hless fuel (Nat.le_refl _)) (hdiscreet rfl) payload
  case count | waiting =>
    exact (Keeps.live _).bind fun _ => Keeps.bind (note_settling rfl) fun _ => Keeps.pure _

/-- Every run of discreet programs settles the verdicts that are reported in it, in their order. -/
theorem Program.run_settles (fuel : Nat) (p : Program σ κ α) (hp : p.Uses (Call.Discreet form)) :
    Run.Keeps (settling form) (p.run host fuel) := by
  refine Program.keeps hhost (fun c hc => ?_)
    (fun _ hless c hdiscreet hc => Run.perform_settling hhost hless c hdiscreet hc) fuel p hp
  cases c <;> first | trivial | exact fun heq => absurd (congrArg some heq) hc

end Runs

end FormTree
