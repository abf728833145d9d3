import FormTree.Proofs.Execution.Stretch

/-!
# How runs of a form at rest unfold

A run that finds a form at rest does one of three things to it at a time.  It does something that
neither the journal nor the store shows; or there is a single quiet occurrence, which changes the
listeners at most; or a batch is submitted, and a whole dispatch runs.  `Unfolds` records these parts
with all that is known of each, and `Program.run_unfolds` finds them in every run.

What is said of the stretches of runs is shown by induction over `Unfolds`, and the calls that a
program can make are gone through here only.  If all batches that host code submits to the form are
of some sort, then so are the batches of all rounds (`Program.run_permitted`).
-/

namespace FormTree

variable {σ κ α : Type}

/-! ## What is seen of a store -/

/-- What a store shows at one moment: its state, and the version that goes with it. -/
structure Snapshot where
  state : Data
  version : Nat

/-- What a store shows. -/
def Store.snapshot (s : Store κ) : Snapshot := ⟨s.state, s.version⟩

theorem Store.unsubscribe_pending (s : Store κ) (id : ListenerId) :
    (s.unsubscribe id).2.pending = s.pending := by
  unfold unsubscribe
  split <;> rfl

/-- Whoever looks at the form, or is passed a state of it, gets the state of the snapshot, and the
version as well where a version is to be seen. -/
def Occurrence.Shows (form : FormId) (shot : Snapshot) : Occurrence κ → Prop
  | .looked other view => other = form → view.state = shot.state ∧ view.version = shot.version
  | .notified other _ state | .followed other _ state | .skipped other _ state =>
    other = form → state = shot.state
  | _ => True

namespace Occurrence

variable {form : FormId} {s : Store κ} {shot : Snapshot} {o : Occurrence κ}

theorem shows_of_form_ne (h : o.form ≠ form) : o.Shows form shot := by
  cases o <;> simp_all [Shows, Occurrence.form]

theorem shows_of_emission (h : o.OfEmission) : o.Shows form shot := by
  cases o <;> trivial

/-- What is quiet changes the listeners at most. -/
theorem Quiet.hear (h : o.Quiet form) :
    (s.hear form o).Alike s ∧ (s.hear form o).pending = s.pending := by
  by_cases hform : o.form = form
  · cases o <;> simp only [Occurrence.form] at hform <;> subst hform
    case subscribed => simp only [Store.hear, if_true]; exact ⟨⟨rfl, rfl, rfl, rfl, rfl⟩, rfl⟩
    case unsubscribed =>
      simp only [Store.hear, if_true]
      exact ⟨s.unsubscribe_alike _, s.unsubscribe_pending _⟩
    case queued => exact absurd rfl h
    case applied => exact absurd rfl h
    all_goals exact ⟨.refl s, rfl⟩
  · rw [Store.hear_of_form_ne hform]
    exact ⟨.refl s, rfl⟩

end Occurrence

/-- A batch that is submitted to the form is a permitted one. -/
def Call.Submits (form : FormId) (permitted : Submission κ → Prop) : Call σ κ → Prop
  | .submit other submission => other = form → permitted submission
  | _ => True

/-! ## The parts of a run -/

/-- From one world to another, with a form at rest in both, a run went through stretches of the form,
each of them one of the things that can happen to a form at rest.  What is submitted to the form at
rest is permitted. -/
inductive Unfolds (host : Host σ κ) (form : FormId) (permitted : Submission κ → Prop) :
    World σ κ → LiveForm κ → List (Stretch κ) → World σ κ → LiveForm κ → Prop
  /-- Nothing that the journal has, and nothing that the store or the profile shows. -/
  | silent {w w' live live'} (hrest : live.store.dispatching = false) (hwrote : w.Wrote [] w')
      (hfound : w'.form? form = some live') (hprofile : live'.profile = live.profile)
      (hstore : live'.store = live.store) : Unfolds host form permitted w live [] w' live'
  /-- A single occurrence, which shows the store as it is. -/
  | quiet {w w' live live' o} (hquiet : o.Quiet form) (hshows : o.Shows form live.store.snapshot)
      (hrest : live.store.dispatching = false) (hwrote : w.Wrote [o] w')
      (hfound : w'.form? form = some live') (hprofile : live'.profile = live.profile)
      (hstore : live'.store = live.store.hear form o) :
      Unfolds host form permitted w live [.quiet o] w' live'
  /-- A dispatch, which works off everything if its first batch succeeds, and ends there if not. -/
  | dispatch {w u live ended fuel submission first rest} (hpermitted : permitted submission)
      (hworked : WorkedOff host fuel form (w.setForm form (live.takeUp submission))
        (live.takeUp submission) (first :: rest) u ended)
      (hnone : first.landed = true → ended.store.pending = [])
      (hlone : first.landed = false → rest = []) :
      Unfolds host form permitted w live [.dispatch (first :: rest)] (u.setForm form (ended.mark false))
        (ended.mark false)
  | append {w v w' live between live' first second}
      (hfirst : Unfolds host form permitted w live first v between)
      (hsecond : Unfolds host form permitted v between second w' live') :
      Unfolds host form permitted w live (first ++ second) w' live'

namespace Unfolds

variable {host : Host σ κ} {form : FormId} {permitted : Submission κ → Prop} {w w' : World σ κ}
  {live live' : LiveForm κ} {stretches : List (Stretch κ)}

/-- What a run unfolds to is a course of it. -/
theorem course (h : Unfolds host form permitted w live stretches w' live') :
    Course host form w live stretches w' live' := by
  induction h with
  | silent hrest hwrote hfound hprofile hstore => exact .silent hrest hwrote hfound hprofile hstore
  | quiet hquiet _ hrest hwrote hfound hprofile hstore =>
    exact .of_one hquiet hrest hwrote hfound hprofile (hstore ▸ hquiet.hear.1)
  | dispatch _ hworked _ _ => exact .of_workedOff hworked
  | append _ _ ihfirst ihsecond => exact ihfirst.append ihsecond

/-- What happens to other forms is quiet, one occurrence after the other. -/
theorem of_other {entries : List (Occurrence κ)} (hwrote : w.Wrote entries w')
    (hother : ∀ o ∈ entries, o.form ≠ form) (hlive : w.form? form = some live)
    (hfound : w'.form? form = some live) (hrest : live.store.dispatching = false) :
    Unfolds host form permitted w live (entries.map .quiet) w' live := by
  induction entries generalizing w with
  | nil => exact .silent hrest hwrote hfound rfl rfl
  | cons o rest ih =>
    have ho : o.form ≠ form := hother o (by simp)
    have hone : Unfolds host form permitted w live [.quiet o] (w.note o) live :=
      .quiet (Occurrence.quiet_of_form_ne ho) (Occurrence.shows_of_form_ne ho) hrest
        (w.wrote_note o) hlive rfl (Store.hear_of_form_ne ho).symm
    refine hone.append (ih (w := w.note o) ?_ (fun other h => hother other (by simp [h])) hlive)
    simpa [World.Wrote] using hwrote

end Unfolds

/-- Progress of a form at rest: whatever is done unfolds to stretches of it. -/
def unfolding (host : Host σ κ) (form : FormId) (permitted : Submission κ → Prop) :
    Progress σ κ form where
  rel w w' := ∀ live, w.form? form = some live → live.store.dispatching = false →
    ∃ stretches live', Unfolds host form permitted w live stretches w' live'
  refl w live hlive hrest := ⟨[], live, .silent hrest (World.wrote_nil.2 rfl) hlive rfl rfl⟩
  trans := by
    intro u v w h₁ h₂ live hlive hrest
    obtain ⟨first, between, hfirst⟩ := h₁ live hlive hrest
    obtain ⟨second, live', hsecond⟩ := h₂ between hfirst.course.found hfirst.course.atRest
    exact ⟨first ++ second, live', hfirst.append hsecond⟩
  frame := by
    intro w w' entries hwrote hother hsame live hlive hrest
    exact ⟨_, live, .of_other hwrote hother hlive (hsame live hlive) hrest⟩
  absent hnone _ hlive _ := by simp [hnone] at hlive

/-! ## Calls on a form at rest -/

namespace Run

variable {host : Host σ κ} {fuel : Nat} {form : FormId} {permitted : Submission κ → Prop}

/-- An entry that shows no store, and of which the store makes nothing. -/
theorem note_unfolds {o : Occurrence κ} (hquiet : o.Quiet form)
    (hshows : ∀ shot, o.Shows form shot) (hhear : ∀ s : Store κ, s.hear form o = s) :
    Keeps (unfolding host form permitted) (note o : Run σ κ Unit) := by
  intro w _ w' hstep live hlive hrest
  rw [note_eq_ok.1 hstep]
  exact ⟨_, live, .quiet hquiet (hshows _) hrest (w.wrote_note o) hlive rfl (hhear _).symm⟩

theorem changeChannels_unfolds (f : Channels κ → α × Channels κ) :
    Keeps (unfolding host form permitted) (changeChannels form f : Run σ κ α) := by
  intro w a w' hstep live hlive hrest
  rw [changeChannels_of hlive] at hstep
  cases hstep
  exact ⟨[], _, .silent hrest (World.wrote_nil.2 rfl) (World.form?_setForm_self hlive _) rfl rfl⟩

/-- The listeners are changed, and the journal says in which way. -/
theorem changeStore_note_unfolds {f : Store κ → α × Store κ} {o : α → Occurrence κ}
    (hquiet : ∀ a, (o a).Quiet form) (hshows : ∀ a shot, (o a).Shows form shot)
    (hhear : ∀ s : Store κ, s.hear form (o (f s).1) = (f s).2) :
    Keeps (unfolding host form permitted)
      (do let a ← changeStore form f; note (o a); return a : Run σ κ α) := by
  intro w a w' hstep live hlive hrest
  rw [bind_of_ok (changeStore_of hlive f), bind_of_ok (note_ok _)] at hstep
  rw [pure_of_ok hstep]
  exact ⟨_, _, .quiet (hquiet (f live.store).1) (hshows _ _) hrest (by simp [World.Wrote])
    (World.form?_setForm_self hlive _) rfl (hhear live.store).symm⟩

/-- A batch that is submitted to a form at rest is dispatched, unless it is empty. -/
theorem submit_unfolds (hhost : host.Uses (Call.Submits form permitted))
    (hexec : ∀ {α : Type} (p : Program σ κ α), p.Uses (Call.Submits form permitted) →
      Keeps (unfolding host form permitted) (p.run host fuel))
    {submission : Submission κ} (hpermitted : permitted submission) :
    Keeps (unfolding host form permitted) (submit host (Program.run host fuel) fuel form submission) := by
  intro w answer w' hstep live hlive hrest
  by_cases hempty : submission.batch = []
  · unfold submit at hstep
    rw [bind_of_ok (store_of hlive), if_pos (by simp [hempty]), bind_of_ok (note_ok _)] at hstep
    have hafter : ∀ report ∈ submission.after, ∃ name, report = .host name :=
      fun _ h => Submission.after_of_empty hempty h
    have hfollow : Keeps (unfolding host form permitted)
        (follow host (Program.run host fuel) form live.store.state submission.after) := by
      rcases after : submission.after with _ | report
      · exact Keeps.pure ()
      · obtain ⟨name, rfl⟩ := hafter report after
        exact hexec _ (hhost.follow ..)
    have hskip : Unfolds host form permitted w live _
        (w.note (.skipped form submission.after live.store.state)) live :=
      .quiet (o := .skipped ..) (fun _ => hafter) (fun _ => rfl) hrest rfl hlive rfl rfl
    obtain ⟨stretches, live', hunfolds⟩ :=
      (hfollow.bind fun _ => Keeps.pure _) hstep live hlive hrest
    exact ⟨_, live', hskip.append hunfolds⟩
  · obtain ⟨first, rest, u, ended, hworked, rfl, -, hnone, hlone⟩ :=
      submit_workedOff hlive hrest hempty hstep
    exact ⟨_, _, .dispatch hpermitted hworked hnone hlone⟩

/-- Every call on the form at rest unfolds, if the host code that it runs does. -/
theorem perform_unfolds (hhost : host.Uses (Call.Submits form permitted))
    (hexec : ∀ {α : Type} (p : Program σ κ α), p.Uses (Call.Submits form permitted) →
      Keeps (unfolding host form permitted) (p.run host fuel))
    (c : Call σ κ) (hsubmits : c.Submits form permitted) (hc : c.form? = some form) :
    Keeps (unfolding host form permitted) (perform host (Program.run host fuel) fuel c) := by
  cases c <;> simp only [Call.form?, Option.some.injEq, reduceCtorEq] at hc <;> subst hc
  case look =>
    intro w view w' hstep live hlive hrest
    rw [perform_look hlive] at hstep
    cases hstep
    exact ⟨_, live, .quiet (o := .looked ..) trivial (fun _ => ⟨rfl, rfl⟩) hrest rfl hlive rfl rfl⟩
  case profile => exact (Keeps.live _).bind fun _ => Keeps.pure _
  case submit submission => exact submit_unfolds hhost hexec (hsubmits rfl)
  case subscribe =>
    exact changeStore_note_unfolds (o := fun id => .subscribed _ id _) (fun _ => trivial)
      (fun _ _ => trivial) fun s => by simp [Store.hear]
  case unsubscribe id =>
    exact changeStore_note_unfolds (o := fun found => .unsubscribed _ id found) (fun _ => trivial)
      (fun _ _ => trivial) fun s => by simp [Store.hear]
  case register =>
    exact (changeChannels_unfolds _).bind fun id => Keeps.bind
      (note_unfolds (o := .registered _ _ id _) trivial (fun _ => trivial) fun _ => rfl)
      fun _ => Keeps.pure _
  case unregister =>
    exact (changeChannels_unfolds _).bind fun found => Keeps.bind
      (note_unfolds (o := .removed _ _ _ found) trivial (fun _ => trivial) fun _ => rfl)
      fun _ => Keeps.pure _
  case emit event payload =>
    exact emit_keeps (fun _ _ => hexec _ (Program.uses_call.2 trivial))
      (fun _ _ => hexec _ (hhost.handle ..)) (fun f _ => changeChannels_unfolds f)
      (fun _ _ h => note_unfolds (Occurrence.quiet_of_emission h)
        (fun _ => Occurrence.shows_of_emission h) fun _ => Store.hear_of_emission h) event payload
  case count =>
    exact (Keeps.live _).bind fun _ => Keeps.bind
      (note_unfolds (o := .polled ..) trivial (fun _ => trivial) fun _ => rfl) fun _ => Keeps.pure _
  case waiting =>
    exact (Keeps.live _).bind fun _ => Keeps.bind
      (note_unfolds (o := .counted ..) trivial (fun _ => trivial) fun _ => rfl) fun _ => Keeps.pure _

end Run

section Runs

variable {host : Host σ κ} {fuel : Nat} {form : FormId} {permitted : Submission κ → Prop}

theorem Call.submits_of_form_ne {c : Call σ κ} (hc : c.form? ≠ some form) :
    c.Submits form permitted := by
  cases c <;> first | trivial | exact fun heq => absurd (congrArg some heq) hc

/-- Every run of permitted submissions that finds a form at rest unfolds to stretches of it. -/
theorem Program.run_unfolds_permitted (hhost : host.Uses (Call.Submits form permitted)) (fuel : Nat)
    (p : Program σ κ α) (hp : p.Uses (Call.Submits form permitted)) :
    Run.Keeps (unfolding host form permitted) (p.run host fuel) :=
  Program.keeps hhost (fun _ => Call.submits_of_form_ne) (fun _ hless c hsubmits hc =>
    Run.perform_unfolds hhost (fun p hp => hless _ (Nat.le_refl _) p hp) c hsubmits hc) fuel p hp

theorem Call.submits_true (c : Call σ κ) : c.Submits form fun _ => True := by
  cases c <;> first | trivial | exact fun _ => trivial

/-- Every run that finds a form at rest unfolds to stretches of it. -/
theorem Program.run_unfolds (host : Host σ κ) (fuel : Nat) (p : Program σ κ α) :
    Run.Keeps (unfolding host form fun _ => True) (p.run host fuel) :=
  run_unfolds_permitted (host.uses_true.mono fun c _ => c.submits_true) fuel p
    (p.uses_true.mono fun c _ => c.submits_true)

/-! ## What is submitted -/

/-- Progress of a form: what is put behind the batches that wait is permitted. -/
def queueing (form : FormId) (permitted : Submission κ → Prop) : Progress σ κ form where
  rel w w' := ∀ live, w.form? form = some live → ∃ entries live', w.Wrote entries w'
    ∧ w'.form? form = some live' ∧ ∀ submission ∈ queuedIn form entries, permitted submission
  refl w live hlive := ⟨[], live, World.wrote_nil.2 rfl, hlive, by simp [queuedIn]⟩
  trans := by
    intro u v w h₁ h₂ live hlive
    obtain ⟨first, between, hwrote, hbetween, hfirst⟩ := h₁ live hlive
    obtain ⟨second, live', hwrote', hlive', hsecond⟩ := h₂ between hbetween
    refine ⟨first ++ second, live', hwrote.append hwrote', hlive', fun submission hmem => ?_⟩
    rw [queuedIn_append] at hmem
    exact (List.mem_append.1 hmem).elim (hfirst submission) (hsecond submission)
  frame entries hwrote hother hsame live hlive := by
    refine ⟨entries, live, hwrote, hsame live hlive, fun submission hmem => ?_⟩
    obtain ⟨o, ho, hqueued⟩ := List.mem_filterMap.1 hmem
    split at hqueued
    · exact absurd (Option.ite_none_right_eq_some.1 hqueued).1 (hother _ ho)
    · cases hqueued
  absent hnone _ hlive := nomatch hnone.symm.trans hlive

theorem Run.note_queueing {o : Occurrence κ}
    (h : ∀ submission, o = .queued form submission → permitted submission) :
    Keeps (queueing form permitted) (note o : Run σ κ Unit) := by
  intro w _ w' hstep live hlive
  rw [note_eq_ok.1 hstep]
  refine ⟨[o], live, w.wrote_note o, hlive, fun submission hmem => ?_⟩
  obtain ⟨other, ho, hqueued⟩ := List.mem_filterMap.1 hmem
  obtain rfl := List.mem_singleton.1 ho
  split at hqueued
  · obtain ⟨rfl, ⟨⟩⟩ := Option.ite_none_right_eq_some.1 hqueued
    exact h _ rfl
  · cases hqueued

theorem Run.changeStore_queueing (f : Store κ → α × Store κ) :
    Keeps (queueing form permitted) (changeStore form f : Run σ κ α) := by
  intro w a w' hstep live hlive
  rw [changeStore_of hlive] at hstep
  cases hstep
  exact ⟨[], _, World.wrote_nil.2 rfl, World.form?_setForm_self hlive _, by simp [queuedIn]⟩

theorem Run.changeChannels_queueing (f : Channels κ → α × Channels κ) :
    Keeps (queueing form permitted) (changeChannels form f : Run σ κ α) := by
  intro w a w' hstep live hlive
  rw [changeChannels_of hlive] at hstep
  cases hstep
  exact ⟨[], _, World.wrote_nil.2 rfl, World.form?_setForm_self hlive _, by simp [queuedIn]⟩

/-- Whatever is put behind the batches that wait was submitted. -/
theorem Program.run_queueing (hhost : host.Uses (Call.Submits form permitted)) (fuel : Nat)
    (p : Program σ κ α) (hp : p.Uses (Call.Submits form permitted)) :
    Run.Keeps (queueing form permitted) (p.run host fuel) := by
  refine Program.keeps hhost (fun _ => Call.submits_of_form_ne) (fun fuel hless c hsubmits hc => ?_)
    fuel p hp
  refine Run.perform_on_keeps hhost (fun p hp => hless fuel (Nat.le_refl _) p hp) trivial
    (fun _ _ => trivial) Run.changeStore_queueing Run.changeChannels_queueing c hc fun o _ ho => ?_
  refine Run.note_queueing fun queued hqueued => ?_
  rw [ho queued hqueued] at hsubmits
  exact hsubmits rfl

/-- If everything that was queued is permitted, then every round is of a permitted batch. -/
theorem Unfolds.all_permitted {w w' : World σ κ} {live live' : LiveForm κ}
    {stretches : List (Stretch κ)} (h : Unfolds host form permitted w live stretches w' live')
    (hpending : ∀ submission ∈ live.store.pending, permitted submission)
    (hqueued : ∀ submission ∈ queuedIn form (stretchEntries form stretches), permitted submission) :
    (∀ r ∈ stretchRounds stretches, permitted r.submission)
      ∧ ∀ submission ∈ live'.store.pending, permitted submission := by
  induction h with
  | silent _ _ _ _ hstore =>
    rw [hstore]
    exact ⟨by simp [stretchRounds], hpending⟩
  | quiet hquiet _ _ _ _ _ hstore =>
    rw [hstore, hquiet.hear.2]
    exact ⟨by simp [stretchRounds, Stretch.rounds], hpending⟩
  | @dispatch _ _ live ended _ submission first rest hpermitted hworked _ _ =>
    -- what was worked off and what is left is what was submitted, waited or was queued
    have hall : ∀ other ∈ (first :: rest).map Round.submission ++ ended.store.pending,
        permitted other := by
      intro other hmem
      rw [hworked.order, List.mem_append] at hmem
      rcases hmem with hmem | hmem
      · rcases List.mem_cons.1 hmem with rfl | hmem
        · exact hpermitted
        · exact hpending other hmem
      · exact hqueued other (by simpa [stretchEntries, Stretch.occurrences] using hmem)
    refine ⟨fun r hr => ?_, fun other hmem => hall other (List.mem_append_right _ hmem)⟩
    have hround : r ∈ first :: rest := by simpa [stretchRounds, Stretch.rounds] using hr
    exact hall _ (List.mem_append_left _ (List.mem_map_of_mem hround))
  | append hfirst _ ihfirst ihsecond =>
    rw [stretchEntries, List.flatMap_append, queuedIn_append] at hqueued
    obtain ⟨hrounds, hbetween⟩ :=
      ihfirst hpending fun other hmem => hqueued other (List.mem_append_left _ hmem)
    obtain ⟨hrounds', hlast⟩ :=
      ihsecond hbetween fun other hmem => hqueued other (List.mem_append_right _ hmem)
    refine ⟨fun r hr => ?_, hlast⟩
    rw [stretchRounds, List.flatMap_append] at hr
    exact (List.mem_append.1 hr).elim (hrounds r) (hrounds' r)

/-- Every run of permitted submissions, on a form at rest where what waits is permitted, unfolds to
rounds of permitted batches. -/
theorem Program.run_permitted (hhost : host.Uses (Call.Submits form permitted)) {p : Program σ κ α}
    (hp : p.Uses (Call.Submits form permitted)) {a : α} {w w' : World σ κ} {live : LiveForm κ}
    (hlive : w.form? form = some live) (hrest : live.store.dispatching = false)
    (hpending : ∀ submission ∈ live.store.pending, permitted submission)
    (hrun : p.run host fuel w = .ok (a, w')) :
    ∃ stretches live', Unfolds host form permitted w live stretches w' live'
      ∧ ∀ r ∈ stretchRounds stretches, permitted r.submission := by
  obtain ⟨stretches, live', h⟩ := run_unfolds_permitted hhost fuel p hp hrun live hlive hrest
  obtain ⟨entries, _, hwrote, -, hqueued⟩ := run_queueing hhost fuel p hp hrun live hlive
  rw [hwrote.unique h.course.wrote] at hqueued
  exact ⟨stretches, live', h, (h.all_permitted hpending hqueued).1⟩

end Runs

end FormTree
