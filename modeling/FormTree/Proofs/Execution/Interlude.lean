import FormTree.Proofs.Execution.Progress

/-!
# Amid a dispatch

While a batch of a form is being dispatched, host code runs at many points: an update or a validator
is asked, a listener or a handler is called, or host code follows up on the batch.  Whatever programs
it runs, it can subscribe and unsubscribe listeners and put batches behind those that wait, and that
is all that it can do to the store.  The state and the version stay, and nothing is applied.

`Store.replay` recovers a store from the journal, `Interlude` says which entries can stand in the
journal between two steps of a dispatch, and `run_passes` says that every run amid a dispatch is an
interlude after which the store is the one that the journal tells of.
-/

namespace FormTree

variable {σ κ α : Type} {form : FormId} {s t : Store κ}

/-! ## Stores and their journal -/

namespace Store

/-- What a store makes of an occurrence. -/
def hear (form : FormId) (s : Store κ) : Occurrence κ → Store κ
  | .subscribed other _ name => if other = form then (s.subscribe name).2 else s
  | .unsubscribed other id _ => if other = form then (s.unsubscribe id).2 else s
  | .queued other submission => if other = form then s.enqueue submission else s
  | .applied other _ next => if other = form then s.advance next else s
  | _ => s

/-- What a store makes of occurrences, the oldest first. -/
def replay (form : FormId) (s : Store κ) (occurrences : List (Occurrence κ)) : Store κ :=
  occurrences.foldl (hear form) s

@[simp] theorem replay_nil : s.replay form [] = s := rfl

@[simp] theorem replay_cons (o : Occurrence κ) (rest : List (Occurrence κ)) :
    s.replay form (o :: rest) = (s.hear form o).replay form rest := rfl

@[simp] theorem replay_append (first second : List (Occurrence κ)) :
    s.replay form (first ++ second) = (s.replay form first).replay form second :=
  List.foldl_append ..

/-- A store makes nothing of what happens to other forms. -/
theorem hear_of_form_ne {o : Occurrence κ} (h : o.form ≠ form) : s.hear form o = s := by
  cases o <;> simp_all [hear, Occurrence.form]

theorem hear_of_emission {o : Occurrence κ} (h : o.OfEmission) : s.hear form o = s := by
  cases o <;> first | rfl | exact h.elim

end Store

/-! ## Who is registered -/

/-- The listeners that are registered after an occurrence, given those before it: a listener that is
subscribed comes last, and one that is found and taken off is gone. -/
def Occurrence.registers (form : FormId) (before : List (ListenerId × κ)) :
    Occurrence κ → List (ListenerId × κ)
  | .subscribed other id name => if other = form then before ++ [(id, name)] else before
  | .unsubscribed other id found =>
    if other = form ∧ found then before.filter (·.1 != id) else before
  | _ => before

/-- The listeners that are registered after occurrences, the oldest first. -/
def registeredAfter (form : FormId) (before : List (ListenerId × κ))
    (occurrences : List (Occurrence κ)) : List (ListenerId × κ) :=
  occurrences.foldl (Occurrence.registers form) before

section Registered

variable {before : List (ListenerId × κ)} {first second : List (Occurrence κ)}

@[simp] theorem registeredAfter_nil : registeredAfter form before [] = before := rfl

@[simp] theorem registeredAfter_cons (o : Occurrence κ) :
    registeredAfter form before (o :: first)
      = registeredAfter form (o.registers form before) first := rfl

@[simp] theorem registeredAfter_append : registeredAfter form before (first ++ second)
    = registeredAfter form (registeredAfter form before first) second :=
  List.foldl_append ..

theorem Occurrence.registers_of_form_ne {o : Occurrence κ} (h : o.form ≠ form) :
    o.registers form before = before := by
  cases o <;> simp_all [registers, Occurrence.form]

theorem Occurrence.registers_of_emission {o : Occurrence κ} (h : o.OfEmission) :
    o.registers form before = before := by
  cases o <;> first | rfl | exact h.elim

theorem registeredAfter_of_form_ne (h : ∀ o ∈ first, o.form ≠ form) :
    registeredAfter form before first = before := by
  induction first with
  | nil => rfl
  | cons o rest ih =>
    rw [registeredAfter_cons, Occurrence.registers_of_form_ne (h o (by simp))]
    exact ih fun other hother => h other (by simp [hother])

end Registered

namespace Store

theorem advance_listeners (s : Store κ) (next : Data) : (s.advance next).listeners = s.listeners :=
  rfl

theorem unsubscribe_listeners (s : Store κ) (id : ListenerId) :
    (s.unsubscribe id).2.listeners
      = (Occurrence.unsubscribed form id (s.unsubscribe id).1 : Occurrence κ).registers form
        s.listeners := by
  unfold unsubscribe
  split <;> simp [Occurrence.registers]

/-- Two stores that differ at most in their listeners and in the batches that wait. -/
structure Alike (s t : Store κ) : Prop where
  state : s.state = t.state
  version : s.version = t.version
  policy : s.policy = t.policy
  announces : s.announces = t.announces
  dispatching : s.dispatching = t.dispatching

theorem Alike.refl (s : Store κ) : s.Alike s := ⟨rfl, rfl, rfl, rfl, rfl⟩

theorem Alike.trans {u : Store κ} (h₁ : s.Alike t) (h₂ : t.Alike u) : s.Alike u :=
  ⟨h₁.state.trans h₂.state, h₁.version.trans h₂.version, h₁.policy.trans h₂.policy,
    h₁.announces.trans h₂.announces, h₁.dispatching.trans h₂.dispatching⟩

theorem unsubscribe_alike (s : Store κ) (id : ListenerId) : (s.unsubscribe id).2.Alike s := by
  unfold unsubscribe
  split <;> exact ⟨rfl, rfl, rfl, rfl, rfl⟩

end Store

/-- Nothing but host code can come after an empty batch. -/
theorem Submission.after_of_empty {submission : Submission κ} (h : submission.batch = [])
    {report : After κ} (hreport : submission.after = some report) : ∃ name, report = .host name := by
  have hsuits := submission.suits report hreport
  cases report with
  | host name => exact ⟨name, rfl⟩
  | _ => simp [After.Suits, h] at hsuits

/-! ## Interludes -/

/-- What can happen while a batch of the form is being dispatched, given the store of the form:
anything to other forms, but no other dispatch of this form; who looks sees the state and version of
the store; and a batch that is submitted is queued or rejected as the policy says, unless it is
empty. -/
def Occurrence.Amid (form : FormId) (s : Store κ) : Occurrence κ → Prop
  | .created other _ _ | .began other _ _ | .applied other _ _ | .failed other _
  | .notified other _ _ | .followed other _ _ => other ≠ form
  | .queued other submission =>
    other = form → s.policy = .queue ∧ s.dispatching = true ∧ submission.batch ≠ []
  | .rejected other submission =>
    other = form → s.policy = .reject ∧ s.dispatching = true ∧ submission.batch ≠ []
  | .looked other view => other = form → view.state = s.state ∧ view.version = s.version
  | .skipped other after state =>
    other = form → state = s.state ∧ ∀ report ∈ after, ∃ name, report = .host name
  | _ => True

/-- Only what can happen amid a dispatch of the form. -/
def Interlude (form : FormId) (s : Store κ) (occurrences : List (Occurrence κ)) : Prop :=
  ∀ o ∈ occurrences, o.Amid form s

namespace Occurrence

variable {o : Occurrence κ}

theorem amid_congr (h : s.Alike t) : o.Amid form s ↔ o.Amid form t := by
  cases o <;> simp only [Amid, h.state, h.version, h.policy, h.dispatching]

theorem amid_of_form_ne (h : o.form ≠ form) : o.Amid form s := by
  cases o <;> simp_all [Amid, Occurrence.form]

theorem amid_of_emission (h : o.OfEmission) : o.Amid form s := by
  cases o <;> trivial

/-- What happens amid a dispatch does not touch the state or the version. -/
theorem Amid.alike (h : o.Amid form s) : (s.hear form o).Alike s := by
  cases o <;> simp only [Store.hear] <;> first | exact .refl s | split
  case subscribed.isTrue => exact ⟨rfl, rfl, rfl, rfl, rfl⟩
  case unsubscribed.isTrue => exact s.unsubscribe_alike _
  case queued.isTrue => exact ⟨rfl, rfl, rfl, rfl, rfl⟩
  case applied.isTrue hform => exact absurd hform h
  all_goals exact .refl s

end Occurrence

namespace Interlude

variable {first second : List (Occurrence κ)}

theorem nil : Interlude form s [] := by simp [Interlude]

/-- An interlude leaves the state and the version of the store as they are. -/
theorem alike (h : Interlude form s first) : (s.replay form first).Alike s := by
  induction first generalizing s with
  | nil => exact .refl s
  | cons o rest ih =>
    have ho := (h o (by simp)).alike
    refine (ih fun other hother => ?_).trans ho
    exact (Occurrence.amid_congr ho).2 (h other (by simp [hother]))

theorem congr (h : s.Alike t) : Interlude form s first ↔ Interlude form t first :=
  forall_congr' fun _ => forall_congr' fun _ => Occurrence.amid_congr h

theorem append (h₁ : Interlude form s first) (h₂ : Interlude form (s.replay form first) second) :
    Interlude form s (first ++ second) := by
  intro o ho
  rcases List.mem_append.1 ho with ho | ho
  · exact h₁ o ho
  · exact (congr h₁.alike).1 h₂ o ho

end Interlude

/-- Between two worlds there was an interlude of the form, and the store and the profile of the form
are what the journal makes of them.  Registered are, in this order, the listeners from before and
those that the journal has as subscribed, without those that it has as taken off. -/
structure Passes (form : FormId) (w : World σ κ) (live : LiveForm κ)
    (during : List (Occurrence κ)) (w' : World σ κ) (live' : LiveForm κ) : Prop where
  wrote : w.Wrote during w'
  found : w'.form? form = some live'
  profile : live'.profile = live.profile
  store : live'.store = live.store.replay form during
  listeners : live'.store.listeners = registeredAfter form live.store.listeners during
  interlude : Interlude form live.store during

namespace Passes

variable {w v w' : World σ κ} {live between live' : LiveForm κ}
  {first second : List (Occurrence κ)}

theorem alike (h : Passes form w live first w' live') : live'.store.Alike live.store := by
  rw [h.store]
  exact h.interlude.alike

theorem append (h₁ : Passes form w live first v between)
    (h₂ : Passes form v between second w' live') : Passes form w live (first ++ second) w' live' where
  wrote := h₁.wrote.append h₂.wrote
  found := h₂.found
  profile := h₂.profile.trans h₁.profile
  store := by rw [Store.replay_append, ← h₁.store, h₂.store]
  listeners := by rw [registeredAfter_append, ← h₁.listeners, h₂.listeners]
  interlude := h₁.interlude.append (h₁.store ▸ h₂.interlude)

theorem nil (hlive : w.form? form = some live) : Passes form w live [] w live :=
  ⟨World.wrote_nil.2 rfl, hlive, rfl, rfl, rfl, Interlude.nil⟩

/-- A single occurrence that the store has heard of. -/
theorem of_one {o : Occurrence κ} (ho : o.Amid form live.store)
    (hwrote : w.Wrote [o] w') (hfound : w'.form? form = some live')
    (hprofile : live'.profile = live.profile)
    (hstore : live'.store = live.store.hear form o)
    (hlisteners : live'.store.listeners = o.registers form live.store.listeners) :
    Passes form w live [o] w' live' :=
  ⟨hwrote, hfound, hprofile, hstore, hlisteners, by simpa [Interlude] using ho⟩

/-- The beginning or the completion of an emission, or a call of a handler. -/
theorem of_emission {o : Occurrence κ} (h : o.OfEmission) (hlive : w.form? form = some live) :
    Passes form w live [o] (w.note o) live :=
  .of_one (Occurrence.amid_of_emission h) (w.wrote_note o) hlive rfl
    (Store.hear_of_emission h).symm (Occurrence.registers_of_emission h).symm

end Passes

/-- Progress amid a dispatch: whatever is done is an interlude. -/
def amid (form : FormId) : Progress σ κ form where
  rel w w' := ∀ live, w.form? form = some live → live.store.dispatching = true →
    ∃ during live', Passes form w live during w' live'
  refl w live hlive _ := ⟨[], live, .nil hlive⟩
  trans := by
    intro u v w h₁ h₂ live hlive hbusy
    obtain ⟨first, between, hfirst⟩ := h₁ live hlive hbusy
    obtain ⟨second, live', hsecond⟩ :=
      h₂ between hfirst.found (hfirst.alike.dispatching.trans hbusy)
    exact ⟨first ++ second, live', hfirst.append hsecond⟩
  frame := by
    intro w w' entries hwrote hother hsame live hlive _
    refine ⟨entries, live, hwrote, hsame live hlive, rfl, ?_,
      (registeredAfter_of_form_ne hother).symm, fun o ho =>
        Occurrence.amid_of_form_ne (hother o ho)⟩
    -- the store makes nothing of entries about other forms
    symm
    induction entries generalizing w with
    | nil => rfl
    | cons o rest ih =>
      rw [Store.replay_cons, Store.hear_of_form_ne (hother o (by simp))]
      refine ih (w := w.note o) ?_ (fun other h => hother other (by simp [h])) hsame hlive
      simpa [World.Wrote] using hwrote
  absent hnone _ hlive _ := by simp [hnone] at hlive

/-! ## Calls on the form itself -/

namespace Run

variable {host : Host σ κ} {exec : {α : Type} → Program σ κ α → Run σ κ α} {fuel : Nat}

theorem note_amid {o : Occurrence κ} (h : o.OfEmission) :
    Keeps (amid form) (note o : Run σ κ Unit) := by
  intro w _ w' hstep live hlive _
  rw [note_eq_ok.1 hstep]
  exact ⟨[o], live, .of_emission h hlive⟩

theorem changeChannels_amid (f : Channels κ → α × Channels κ) :
    Keeps (amid form) (changeChannels form f : Run σ κ α) := by
  intro w a w' hstep live hlive _
  rw [changeChannels_of hlive] at hstep
  cases hstep
  exact ⟨[], _, by simp, World.form?_setForm_self hlive _, rfl, rfl, rfl, Interlude.nil⟩

/-- The channels are changed, and the journal says in which way. -/
theorem changeChannels_note_amid {f : Channels κ → α × Channels κ} {o : α → Occurrence κ}
    (h : ∀ (s : Store κ) a, (o a).Amid form s ∧ s.hear form (o a) = s
      ∧ (o a).registers form s.listeners = s.listeners) :
    Keeps (amid form) (do let a ← changeChannels form f; note (o a); return a : Run σ κ α) := by
  refine (changeChannels_amid f).bind fun a => Keeps.bind ?_ fun _ => Keeps.pure a
  intro w _ w' hstep live hlive _
  rw [note_eq_ok.1 hstep]
  exact ⟨_, live, .of_one (h live.store a).1 (w.wrote_note _) hlive rfl
    (h live.store a).2.1.symm (h live.store a).2.2.symm⟩

/-- The store is changed, and the journal says in which way. -/
theorem changeStore_note_amid {f : Store κ → α × Store κ} {o : α → Occurrence κ}
    (h : ∀ s : Store κ, (o (f s).1).Amid form s ∧ s.hear form (o (f s).1) = (f s).2
      ∧ (f s).2.listeners = (o (f s).1).registers form s.listeners) :
    Keeps (amid form) (do let a ← changeStore form f; note (o a); return a : Run σ κ α) := by
  intro w a w' hstep live hlive _
  rw [bind_of_ok (changeStore_of hlive f), bind_of_ok (note_ok _)] at hstep
  rw [pure_of_ok hstep]
  exact ⟨_, _, .of_one (h live.store).1 (by simp [World.Wrote])
    (World.form?_setForm_self hlive _) rfl (h live.store).2.1.symm (h live.store).2.2⟩

/-- A batch that is submitted amid a dispatch is queued or rejected, unless it is empty. -/
theorem submit_amid (hexec : ∀ {α : Type} (p : Program σ κ α), Keeps (amid form) (exec p))
    (submission : Submission κ) :
    Keeps (amid form) (submit host exec fuel form submission) := by
  intro w answer w' hstep live hlive hbusy
  unfold submit at hstep
  rw [bind_of_ok (store_of hlive)] at hstep
  by_cases hempty : submission.batch = []
  · rw [if_pos (by simp [hempty]), bind_of_ok (note_ok _)] at hstep
    -- an empty batch does not wait, and what comes after it is host code at once
    have hafter : ∀ report ∈ submission.after, ∃ name, report = .host name :=
      fun _ h => Submission.after_of_empty hempty h
    have hone : Passes form w live _ (w.note (.skipped form submission.after live.store.state))
        live := .of_one (o := .skipped ..) (fun _ => ⟨rfl, hafter⟩) rfl hlive rfl rfl rfl
    have hrest : Keeps (amid form) (follow host exec form live.store.state submission.after) := by
      rcases after : submission.after with _ | report
      · exact Keeps.pure ()
      · obtain ⟨name, rfl⟩ := hafter report after
        exact hexec _
    obtain ⟨during, live', hpasses⟩ := (hrest.bind fun _ => Keeps.pure _) hstep live hlive hbusy
    exact ⟨_, live', hone.append hpasses⟩
  · rw [if_neg (by simpa using hempty), if_pos hbusy] at hstep
    cases hpolicy : live.store.policy with
    | queue =>
      simp only [hpolicy] at hstep
      rw [bind_of_ok (note_ok _), changeStore_of (by exact hlive)] at hstep
      cases hstep
      exact ⟨_, _, .of_one (o := .queued form submission) (fun _ => ⟨hpolicy, hbusy, hempty⟩)
        rfl (World.form?_setForm_self hlive _) rfl (by simp [Store.hear]) rfl⟩
    | reject =>
      simp only [hpolicy] at hstep
      rw [bind_of_ok (note_ok _)] at hstep
      rw [pure_of_ok hstep]
      exact ⟨_, _, .of_one (o := .rejected form submission)
        (fun _ => ⟨hpolicy, hbusy, hempty⟩) rfl hlive rfl rfl rfl⟩

/-- Every call on the form is an interlude amid a dispatch, if the host code that it runs is. -/
theorem perform_amid (hexec : ∀ {α : Type} (p : Program σ κ α), Keeps (amid form) (exec p))
    (c : Call σ κ) (hc : c.form? = some form) : Keeps (amid form) (perform host exec fuel c) := by
  cases c <;> simp only [Call.form?, Option.some.injEq, reduceCtorEq] at hc <;> subst hc
  case look =>
    intro w view w' hstep live hlive _
    rw [perform_look hlive] at hstep
    cases hstep
    exact ⟨_, live, .of_one (o := .looked _ live.store.view) (fun _ => ⟨rfl, rfl⟩)
      rfl hlive rfl rfl rfl⟩
  case profile => exact (Keeps.live _).bind fun _ => Keeps.pure _
  case submit submission => exact submit_amid hexec submission
  case subscribe =>
    exact changeStore_note_amid (o := fun id => .subscribed _ id _)
      fun s => ⟨trivial, by simp [Store.hear], by simp [Store.subscribe, Occurrence.registers]⟩
  case unsubscribe =>
    exact changeStore_note_amid (o := fun found => .unsubscribed _ _ found)
      fun s => ⟨trivial, by simp [Store.hear], s.unsubscribe_listeners _⟩
  case register =>
    exact changeChannels_note_amid (o := fun id => .registered _ _ id _)
      fun _ _ => ⟨trivial, rfl, rfl⟩
  case unregister =>
    exact changeChannels_note_amid (o := fun found => .removed _ _ _ found)
      fun _ _ => ⟨trivial, rfl, rfl⟩
  case emit event payload =>
    exact emit_keeps (fun _ _ => hexec _) (fun _ _ => hexec _) (fun f _ => changeChannels_amid f)
      (fun _ _ => note_amid) event payload
  case count event =>
    intro w _ w' hstep live hlive _
    rw [perform_count hlive] at hstep
    cases hstep
    exact ⟨_, live, .of_one (o := .polled ..) trivial rfl hlive rfl rfl rfl⟩
  case waiting queue =>
    intro w _ w' hstep live hlive _
    rw [perform_waiting hlive] at hstep
    cases hstep
    exact ⟨_, live, .of_one (o := .counted ..) trivial rfl hlive rfl rfl rfl⟩

end Run

/-- Whatever programs run while a batch of a form is being dispatched, what they do is an interlude
of that form. -/
theorem Program.run_passes (host : Host σ κ) (fuel : Nat) (p : Program σ κ α) :
    Run.Keeps (amid form) (p.run host fuel) :=
  Program.keeps host.uses_true (fun _ _ => trivial)
    (fun _ hless c _ hc => Run.perform_amid (fun p => hless _ (Nat.le_refl _) p p.uses_true) c hc)
    fuel p p.uses_true

/-! ## Progress that is made amid a dispatch -/

/-- The progress of a form that is being dispatched and goes on to be. -/
def Progress.during (P : Progress σ κ form) : Progress σ κ form where
  rel w w' := ∀ live, w.form? form = some live → live.store.dispatching = true →
    P.rel w w' ∧ ∃ live', w'.form? form = some live' ∧ live'.store.dispatching = true
  refl w live hlive hbusy := ⟨P.refl w, live, hlive, hbusy⟩
  trans := by
    intro u v w h₁ h₂ live hlive hbusy
    obtain ⟨hfirst, between, hbetween, hbusy'⟩ := h₁ live hlive hbusy
    obtain ⟨hsecond, hlast⟩ := h₂ between hbetween hbusy'
    exact ⟨P.trans hfirst hsecond, hlast⟩
  frame entries hwrote hother hsame live hlive hbusy :=
    ⟨P.frame entries hwrote hother hsame, live, hsame live hlive, hbusy⟩
  absent hnone _ hlive := nomatch hnone.symm.trans hlive

namespace Run

variable {P : Progress σ κ form} {host : Host σ κ} {exec : {α : Type} → Program σ κ α → Run σ κ α}
  {fuel : Nat}

/-- What is an interlude amid a dispatch does not end it. -/
theorem Keeps.during {m : Run σ κ α} (hkeeps : Keeps P m) (hamid : Keeps (amid form) m) :
    Keeps P.during m := by
  intro w a w' hstep live hlive hbusy
  obtain ⟨_, live', hpasses⟩ := hamid hstep live hlive hbusy
  exact ⟨hkeeps hstep, live', hpasses.found, hpasses.alike.dispatching.trans hbusy⟩

theorem note_during {o : Occurrence κ} (hkeeps : Keeps P (note o)) : Keeps P.during (note o) := by
  intro w _ w' hstep live hlive hbusy
  refine ⟨hkeeps hstep, live, ?_, hbusy⟩
  rw [note_eq_ok.1 hstep]
  exact hlive

theorem changeStore_during {f : Store κ → α × Store κ} (hkeeps : Keeps P (changeStore form f))
    (hf : ∀ s, (f s).2.dispatching = s.dispatching) : Keeps P.during (changeStore form f) := by
  intro w a w' hstep live hlive hbusy
  refine ⟨hkeeps hstep, { live with store := (f live.store).2 }, ?_, (hf live.store).trans hbusy⟩
  rw [changeStore_of hlive] at hstep
  cases hstep
  exact World.form?_setForm_self hlive _

/-- A submission keeps what every batch of its dispatch keeps while it is applied. -/
theorem submit_keeps_during (submission : Submission κ)
    (hnote : ∀ o : Occurrence κ, o.OfBatch → Keeps P (note o))
    (hstore : ∀ {α : Type} (f : Store κ → α × Store κ), Keeps P (changeStore form f))
    (hfollow : ∀ name state, Keeps P (exec (host.follow name form state)))
    (happly : ∀ submission, Keeps P.during (apply host exec form submission)) :
    Keeps P (submit host exec fuel form submission) := by
  intro w answer w' hstep
  cases hlive : w.form? form with
  | none => exact P.absent hlive
  | some live =>
    unfold submit at hstep
    rw [bind_of_ok (store_of hlive)] at hstep
    split at hstep
    · next hempty =>
      refine (Keeps.bind (hnote (.skipped ..) trivial) fun _ =>
        Keeps.bind ?_ fun _ => Keeps.pure _) hstep
      rcases hafter : submission.after with _ | report
      · exact Keeps.pure ()
      · obtain ⟨name, rfl⟩ := Submission.after_of_empty (List.isEmpty_iff.1 hempty) hafter
        exact hfollow name _
    · split at hstep
      · cases hpolicy : live.store.policy with
        | queue =>
          simp only [hpolicy] at hstep
          exact (Keeps.bind (hnote (.queued ..) trivial) fun _ => hstore _) hstep
        | reject =>
          simp only [hpolicy] at hstep
          exact (Keeps.bind (hnote (.rejected ..) trivial) fun _ => Keeps.pure _) hstep
      -- from here to the end of the drain the form is busy, so batches keep what is kept amid dispatches
      · have hdrain : Keeps P.during (drain host exec form fuel) :=
          drain_keeps happly (fun _ => changeStore_during (hstore _) fun _ => rfl) fuel
        obtain ⟨_, u, hmark, hstep⟩ := bind_eq_ok.1 hstep
        obtain ⟨result, v, hfirst, hstep⟩ := bind_eq_ok.1 hstep
        have hbegin := hstore _ hmark
        rw [setDispatching, changeStore_of hlive] at hmark
        cases hmark
        obtain ⟨happlied, between, hbetween, hbusy⟩ :=
          happly submission hfirst _ (World.form?_setForm_self hlive _) rfl
        refine P.trans hbegin (P.trans happlied ?_)
        cases result with
        | error e => exact ((hstore _).bind fun _ => Keeps.pure _) hstep
        | ok _ =>
          obtain ⟨_, u, hrest, hstep⟩ := bind_eq_ok.1 hstep
          obtain ⟨hdrained, -⟩ := hdrain hrest between hbetween hbusy
          exact P.trans hdrained (((hstore _).bind fun _ => Keeps.pure _) hstep)

end Run

end FormTree
