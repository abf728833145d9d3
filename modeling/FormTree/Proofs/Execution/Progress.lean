import FormTree.Proofs.Channel.Wired
import FormTree.Proofs.Execution.Steps

/-!
# Progress of a form

Much of what is said about runs has one shape: from the world before a step to the world after it, a
certain relation holds about one form.  A `Progress` is such a relation, closed under doing nothing
and doing one thing after another, which whatever leaves the form alone satisfies.

`Program.keeps` is the induction that all statements about whole runs go through.  Because host code
can call back, it goes over the fuel and, for each amount of fuel, over the program.  What is left to
show of a progress is that it is kept by the calls on its own form.  The induction can be restricted
to host code whose calls satisfy a condition; `Program.Uses` says that all calls of a program do.
-/

namespace FormTree

variable {σ κ α β : Type}

/-! ## Calls and what they are about -/

/-- The form that an occurrence is about. -/
def Occurrence.form : Occurrence κ → FormId
  | .created form _ _ | .began form _ _ | .applied form _ _ | .failed form _ | .queued form _
  | .rejected form _ | .subscribed form _ _ | .unsubscribed form _ _ | .notified form _ _
  | .followed form _ _ | .skipped form _ _ | .looked form _ | .registered form _ _ _
  | .removed form _ _ _ | .emitted form _ _ | .delivered form _ _ _ _ | .completed form _ _
  | .counted form _ _ | .polled form _ _ => form

/-- Whether an occurrence belongs to the emission of an event. -/
def Occurrence.OfEmission : Occurrence κ → Prop
  | .emitted .. | .delivered .. | .completed .. => True
  | _ => False

/-- Whether an occurrence belongs to the submission of a batch. -/
def Occurrence.OfBatch : Occurrence κ → Prop
  | .began .. | .applied .. | .failed .. | .queued .. | .rejected .. | .notified .. | .followed ..
  | .skipped .. => True
  | _ => False

/-- Whether an occurrence belongs to the round of a batch that is applied. -/
def Occurrence.OfRound : Occurrence κ → Prop
  | .began .. | .applied .. | .failed .. | .notified .. | .followed .. => True
  | _ => False

theorem Occurrence.OfBatch.not_ofEmission {o : Occurrence κ} (h : o.OfBatch) : ¬ o.OfEmission := by
  cases o <;> simp_all [OfBatch, OfEmission]

/-- The form that a call is about, if it is about one that exists. -/
def Call.form? : Call σ κ → Option FormId
  | .memory | .setMemory _ | .create _ _ _ => none
  | .look form | .profile form | .submit form _ | .subscribe form _ | .unsubscribe form _
  | .register form _ _ | .unregister form _ _ | .emit form _ _ | .count form _
  | .waiting form _ => some form

/-- Every call of a program satisfies a condition, whatever the earlier calls are answered. -/
def Program.Uses (allowed : Call σ κ → Prop) : Program σ κ α → Prop
  | .done _ => True
  | .ask c next => allowed c ∧ ∀ reply, (next reply).Uses allowed

/-- Every call of every callback satisfies a condition. -/
structure Host.Uses (host : Host σ κ) (allowed : Call σ κ → Prop) : Prop where
  update : ∀ name previous, (host.update name previous).Uses allowed
  errors : ∀ name value, (host.errors name value).Uses allowed
  listen : ∀ name form state, (host.listen name form state).Uses allowed
  handle : ∀ name form payload, (host.handle name form payload).Uses allowed
  follow : ∀ name form state, (host.follow name form state).Uses allowed

variable {form : FormId}

namespace Program

variable {allowed : Call σ κ → Prop}

theorem Uses.bind {p : Program σ κ α} {f : α → Program σ κ β} (hp : p.Uses allowed)
    (hf : ∀ a, (f a).Uses allowed) : (p >>= f).Uses allowed := by
  change (p.andThen f).Uses allowed
  induction p with
  | done a => exact hf a
  | ask c next ih => exact ⟨hp.1, fun reply => ih reply (hp.2 reply)⟩

theorem uses_call {c : Call σ κ} : (call c).Uses allowed ↔ allowed c :=
  ⟨And.left, fun h => ⟨h, fun _ => trivial⟩⟩

theorem uses_pure (a : α) : (pure a : Program σ κ α).Uses allowed := trivial

/-- A program whose calls satisfy a condition satisfies every weaker one. -/
theorem Uses.mono {weaker : Call σ κ → Prop} {p : Program σ κ α} (hp : p.Uses allowed)
    (h : ∀ c, allowed c → weaker c) : p.Uses weaker := by
  induction p with
  | done _ => trivial
  | ask c _ ih => exact ⟨h c hp.1, fun reply => ih reply (hp.2 reply)⟩

/-- A condition that everything satisfies restricts nothing. -/
theorem uses_true (p : Program σ κ α) : p.Uses fun _ => True := by
  induction p with
  | done _ => trivial
  | ask _ _ ih => exact ⟨trivial, ih⟩

theorem announce_uses {state : Data}
    (h : allowed (.emit form (.external .change) (.state state))) :
    (announce form state).Uses allowed :=
  (uses_call.2 h).bind fun _ => uses_pure ()

theorem announceValidity_uses {namePath : String} {errors : List String}
    (hprofile : allowed (.profile form)) (h : ∀ event payload, allowed (.emit form event payload)) :
    (announceValidity form namePath errors).Uses allowed := by
  refine Uses.bind (uses_call.2 hprofile) fun profile => ?_
  split
  · exact (uses_call.2 (h _ _)).bind fun _ => uses_pure ()
  · exact uses_pure ()

/-- The reports of a handle ask for the profile of the form and emit events. -/
theorem report_uses {state : Data} {after : After κ} (hprofile : allowed (.profile form))
    (h : ∀ event payload, allowed (.emit form event payload)) :
    (report form state after).Uses allowed := by
  have hchange : ∀ namePath value validated errors,
      (reportChange (κ := κ) (σ := σ) form namePath value validated errors).Uses allowed := by
    intro namePath value validated errors
    refine (uses_call.2 (h _ _)).bind fun _ => ?_
    split
    · exact announceValidity_uses hprofile h
    · exact uses_pure ()
  cases after with
  | host _ => exact uses_pure ()
  | fieldEdited _ _ _ => exact hchange ..
  | fieldRemoved _ => exact (uses_call.2 (h _ _)).bind fun _ => announceValidity_uses hprofile h
  | itemsChanged _ _ _ _ => exact hchange ..

end Program

theorem Host.Uses.mono {host : Host σ κ} {allowed weaker : Call σ κ → Prop}
    (hhost : host.Uses allowed) (h : ∀ c, allowed c → weaker c) : host.Uses weaker where
  update name previous := (hhost.update name previous).mono h
  errors name value := (hhost.errors name value).mono h
  listen name form state := (hhost.listen name form state).mono h
  handle name form payload := (hhost.handle name form payload).mono h
  follow name form state := (hhost.follow name form state).mono h

theorem Host.uses_true (host : Host σ κ) : host.Uses fun _ => True where
  update _ _ := Program.uses_true _
  errors _ _ := Program.uses_true _
  listen _ _ _ := Program.uses_true _
  handle _ _ _ := Program.uses_true _
  follow _ _ _ := Program.uses_true _

/-! ## Progress -/

/-- A relation between the worlds before and after a part of a run, about one form. -/
structure Progress (σ κ : Type) (form : FormId) where
  rel : World σ κ → World σ κ → Prop
  refl : ∀ w, rel w w
  trans : ∀ {u v w}, rel u v → rel v w → rel u w
  /-- What leaves the form alone, and writes about other forms only, is progress. -/
  frame : ∀ {w w'} (entries : List (Occurrence κ)), w.Wrote entries w' →
    (∀ o ∈ entries, o.form ≠ form) →
    (∀ live, w.form? form = some live → w'.form? form = some live) → rel w w'
  /-- Nothing is said about the time before the form exists. -/
  absent : ∀ {w w'}, w.form? form = none → rel w w'

namespace Run

/-- Whenever the step returns, it has made progress. -/
def Keeps (P : Progress σ κ form) (m : Run σ κ α) : Prop :=
  ∀ ⦃w a w'⦄, m w = .ok (a, w') → P.rel w w'

variable {P : Progress σ κ form}

namespace Keeps

theorem pure (a : α) : Keeps P (pure a : Run σ κ α) := by
  intro w b w' h
  rw [(pure_eq_ok.1 h).2]
  exact P.refl w'

theorem halt (reason : Halt) : Keeps P (halt reason : Run σ κ α) :=
  fun _ _ _ h => absurd h halt_ne_ok

theorem bind {m : Run σ κ α} {f : α → Run σ κ β} (hm : Keeps P m) (hf : ∀ a, Keeps P (f a)) :
    Keeps P (m >>= f) := by
  intro w b w' h
  obtain ⟨a, v, hfirst, hsecond⟩ := bind_eq_ok.1 h
  exact P.trans (hm hfirst) (hf a hsecond)

theorem map {m : Run σ κ α} {f : α → β} (hm : Keeps P m) : Keeps P (f <$> m) := by
  intro w b w' h
  obtain ⟨a, hstep, _⟩ := map_eq_ok.1 h
  exact hm hstep

theorem forM {f : α → Run σ κ Unit} {items : List α} (hf : ∀ item ∈ items, Keeps P (f item)) :
    Keeps P (items.forM f) := by
  induction items with
  | nil => exact pure ()
  | cons item rest ih =>
    exact (hf item (by simp)).bind fun _ => ih fun other h => hf other (by simp [h])

/-- A step that leaves the world as it is keeps everything. -/
theorem of_same {m : Run σ κ α} (h : ∀ ⦃w a w'⦄, m w = .ok (a, w') → w' = w) : Keeps P m := by
  intro w a w' hstep
  rw [h hstep]
  exact P.refl w

theorem get : Keeps P (get : Run σ κ (World σ κ)) := of_same fun _ _ _ h => (get_eq_ok.1 h).2

theorem live (other : FormId) : Keeps P (Run.live other) := of_same fun _ _ _ h => (live_eq_ok.1 h).2

theorem store (other : FormId) : Keeps P (Run.store other) :=
  of_same fun _ _ _ h => (store_eq_ok.1 h).2

theorem note {o : Occurrence κ} (h : o.form ≠ form) : Keeps P (note o) := by
  intro w _ w' hstep
  rw [note_eq_ok.1 hstep]
  exact P.frame [o] (w.wrote_note o) (by simpa using h) fun _ hlive => hlive

theorem changeStore {other : FormId} {f : Store κ → α × Store κ} (hne : other ≠ form) :
    Keeps P (changeStore other f) := by
  intro w _ w' hstep
  obtain ⟨_, _, _, rfl⟩ := changeStore_eq_ok.1 hstep
  refine P.frame [] (by simp) (by simp) fun live hlive => ?_
  rwa [World.form?_setForm_ne hne]

theorem changeChannels {other : FormId} {f : Channels κ → α × Channels κ} (hne : other ≠ form) :
    Keeps P (changeChannels other f) := by
  intro w _ w' hstep
  obtain ⟨_, _, _, rfl⟩ := changeChannels_eq_ok.1 hstep
  refine P.frame [] (by simp) (by simp) fun live hlive => ?_
  rwa [World.form?_setForm_ne hne]

/-- The actions of a batch keep what the host code that they ask keeps. -/
theorem applyM {update : κ → Data → Run σ κ Data} {errors : κ → Json → Run σ κ (List String)}
    (hupdate : ∀ name previous, Keeps P (update name previous))
    (herrors : ∀ name value, Keeps P (errors name value)) (state : Data) (batch : Batch κ) :
    Keeps P (Batch.applyM update errors state batch) := by
  induction batch generalizing state with
  | nil => exact pure _
  | cons action rest ih =>
    have hplan : Keeps P ((action.plan state).run update errors) := by
      cases action.plan state with
      | settled result => exact pure _
      | asksUpdate name previous resume => exact (hupdate name previous).map
      | asksErrors validator value resume => exact (herrors validator value).map
    refine hplan.bind fun result => ?_
    cases result with
    | error e => exact pure _
    | ok next => exact ih next

end Keeps

/-! ## What a form does with an event -/

section Events

variable {host : Host σ κ} {exec : {α : Type} → Program σ κ α → Run σ κ α} {other : FormId}

/-- A connection keeps what the event that it emits and the changes of its queue keep. -/
theorem connect_keeps (payload : Payload) {connection : Connection}
    (hemit : Keeps P (exec (Program.emit other connection.target payload)))
    (hqueue : ∀ f : Channels κ → Bool × Channels κ, ∀ queue ∈ connection.queue?,
      (∀ b, ∃ q, (f b).2 = b.setQueue queue q) → Keeps P (changeChannels other f)) :
    Keeps P (connect exec other payload connection) := by
  have hchange : ∀ f : Channels κ → Bool × Channels κ, Keeps P (changeChannels other f) →
      Keeps P (do
        if ← changeChannels other f then
          let _ ← exec (Program.emit other connection.target payload)) := by
    intro f hf
    refine hf.bind fun changed => ?_
    split
    · exact hemit.bind fun _ => Keeps.pure ()
    · exact Keeps.pure ()
  cases connection with
  | relays target => exact hemit.bind fun _ => Keeps.pure ()
  | enters queue =>
    simp only [connect]
    split
    · exact Keeps.pure ()
    · exact hchange _ (hqueue _ queue rfl fun b => ⟨_, rfl⟩)
  | leaves queue =>
    simp only [connect]
    split
    · exact Keeps.pure ()
    · exact hchange _ (hqueue _ queue rfl fun b => ⟨_, rfl⟩)

/-- Where connections stand behind their own events, the handlers of an event keep what that of its
connection, those of host code and the journal entries about the calls keep. -/
theorem deliverAll_placed_keeps {event : Event} {payload : Payload} {b : Channels κ}
    (hplaced : b.Placed)
    (hconnect : ∀ connection, Connection.of? event = some connection →
      Keeps P (connect exec other payload connection))
    (hhandle : ∀ name, Keeps P (exec (host.handle name other payload)))
    (hcall : ∀ id handler, Keeps P (note (.delivered other event id handler payload))) :
    Keeps P ((b.handlers event).forM fun entry => do
      note (.delivered other event entry.1 entry.2 payload)
      deliver host exec other payload entry.2) := by
  refine Keeps.forM fun entry hentry => (hcall entry.1 entry.2).bind fun _ => ?_
  cases hhandler : entry.2 with
  | host name => exact hhandle name
  | connection connection => exact hconnect connection (hplaced event entry hentry _ hhandler)

variable (hemit : ∀ event payload, Keeps P (exec (Program.emit other event payload)))
  (hhandle : ∀ name payload, Keeps P (exec (host.handle name other payload)))
  (hqueue : ∀ f : Channels κ → Bool × Channels κ, (∀ b, ∃ a q, (f b).2 = b.setQueue a q) →
    Keeps P (changeChannels other f))

include hemit hhandle hqueue

theorem deliver_keeps (payload : Payload) (handler : Handler κ) :
    Keeps P (deliver host exec other payload handler) := by
  cases handler with
  | host name => exact hhandle name payload
  | connection connection =>
    exact connect_keeps payload (hemit _ payload) fun f queue _ hf => hqueue f fun b => ⟨queue, hf b⟩

variable (hnote : ∀ o : Occurrence κ, o.form = other → o.OfEmission → Keeps P (note o))

include hnote

theorem deliverAll_keeps (event : Event) (payload : Payload)
    (handlers : List (HandlerId × Handler κ)) :
    Keeps P (handlers.forM fun entry => do
      note (.delivered other event entry.1 entry.2 payload)
      deliver host exec other payload entry.2) :=
  Keeps.forM fun entry _ => Keeps.bind (hnote _ rfl trivial) fun _ =>
    deliver_keeps hemit hhandle hqueue payload entry.2

/-- An emission keeps what its journal entries, the queues and the handlers keep. -/
theorem emit_keeps (event : Event) (payload : Payload) :
    Keeps P (emit host exec other event payload) :=
  Keeps.bind (hnote _ rfl trivial) fun _ => (Keeps.live other).bind fun _ =>
    Keeps.bind (deliverAll_keeps hemit hhandle hqueue hnote event payload _) fun _ =>
      Keeps.bind (hnote _ rfl trivial) fun _ => Keeps.pure _

end Events

/-! ## What a form does with a batch -/

section Batches

variable {host : Host σ κ} {exec : {α : Type} → Program σ κ α → Run σ κ α} {other : FormId}

section Rounds

variable (hnote : ∀ o : Occurrence κ, o.form = other → o.OfRound → Keeps P (note o))

include hnote

theorem compute_keeps (hupdate : ∀ name previous, Keeps P (exec (host.update name previous)))
    (herrors : ∀ name value, Keeps P (exec (host.errors name value))) (batch : Batch κ) :
    Keeps P (compute host exec other batch) :=
  (Keeps.store other).bind fun _ => Keeps.bind (hnote _ rfl trivial) fun _ =>
    Keeps.applyM hupdate herrors _ _

/-- The application of a batch keeps what its reduction, the swap of the state, the calls of
listeners and what comes after it keep. -/
theorem apply_keeps {submission : Submission κ}
    (hcompute : Keeps P (compute host exec other submission.batch))
    (hswap : ∀ next, Keeps P (changeStore other fun s => (s.audience, s.advance next)))
    (hnotify : ∀ next listener, Keeps P (notify host exec other next listener))
    (hfollow : ∀ next, Keeps P (do
      note (.followed other submission.after next)
      follow host exec other next submission.after)) :
    Keeps P (apply host exec other submission) := by
  refine hcompute.bind fun result => ?_
  cases result with
  | error e => exact Keeps.bind (hnote _ rfl trivial) fun _ => Keeps.pure _
  | ok next =>
    refine (hswap next).bind fun audience => (Keeps.store other).bind fun s => ?_
    refine Keeps.bind (hnote _ rfl trivial) fun _ => (Keeps.forM fun listener _ => ?_).bind fun _ => ?_
    · exact Keeps.bind (hnote _ rfl trivial) fun _ => hnotify next listener
    · have hlast := (hfollow next).bind fun _ => Keeps.pure (Except.ok () : Except Fault Unit)
      rwa [bind_assoc] at hlast

end Rounds

theorem drain_keeps (happly : ∀ submission, Keeps P (apply host exec other submission))
    (hpop : ∀ rest, Keeps P (changeStore other fun s => ((), { s with pending := rest })))
    (fuel : Nat) : Keeps P (drain host exec other fuel) := by
  induction fuel with
  | zero =>
    refine (Keeps.store other).bind fun s => ?_
    cases s.pending with
    | nil => exact Keeps.pure ()
    | cons _ _ => exact Keeps.halt _
  | succ fuel ih =>
    refine (Keeps.store other).bind fun s => ?_
    cases s.pending with
    | nil => exact Keeps.pure ()
    | cons submission rest => exact (hpop rest).bind fun _ => (happly submission).bind fun _ => ih

section Submissions

variable {fuel : Nat} {allowed : Call σ κ → Prop} (hhost : host.Uses allowed)
  (hexec : ∀ {α : Type} (p : Program σ κ α), p.Uses allowed → Keeps P (exec p))
  (hprofile : allowed (.profile other))
  (hemits : ∀ event payload, allowed (.emit other event payload))

include hhost hexec hemits

theorem notify_keeps (state : Data) (listener : Listener κ) :
    Keeps P (notify host exec other state listener) := by
  cases listener with
  | announces => exact hexec _ (Program.announce_uses (hemits _ _))
  | host _ name => exact hexec _ (hhost.listen ..)

include hprofile

theorem follow_keeps (state : Data) (after : Option (After κ)) :
    Keeps P (follow host exec other state after) := by
  have hreport : ∀ after, Keeps P (exec (Program.report other state after)) := fun _ =>
    hexec _ (Program.report_uses hprofile hemits)
  rcases after with _ | name | _ | _ | _
  · exact Keeps.pure ()
  · exact hexec _ (hhost.follow ..)
  · exact hreport _
  · exact hreport _
  · exact hreport _

/-- A submission keeps what the changes of the store, their journal entries and the programs keep
that it runs. -/
theorem submit_keeps (submission : Submission κ)
    (hnote : ∀ o : Occurrence κ, o.form = other → o.OfBatch →
      (∀ queued, o = .queued other queued → queued = submission) → Keeps P (note o))
    (hstore : ∀ {α : Type} (f : Store κ → α × Store κ), Keeps P (changeStore other f)) :
    Keeps P (submit host exec fuel other submission) := by
  have hround : ∀ o : Occurrence κ, o.form = other → o.OfRound → Keeps P (note o) := by
    intro o hform ho
    cases o <;> first | exact ho.elim | exact hnote _ hform trivial (by simp)
  have happly : ∀ submission, Keeps P (apply host exec other submission) := fun submission =>
    apply_keeps hround (compute_keeps hround (fun _ _ => hexec _ (hhost.update ..))
      (fun _ _ => hexec _ (hhost.errors ..)) _) (fun _ => hstore _)
      (notify_keeps hhost hexec hemits) fun next => Keeps.bind (hround _ rfl trivial) fun _ =>
        follow_keeps hhost hexec hprofile hemits next submission.after
  -- as the code branches: an empty batch, a form that is being dispatched, and one at rest
  refine (Keeps.store other).bind fun s => ?_
  split
  · refine Keeps.bind (hnote _ rfl trivial (by simp)) fun _ => ?_
    exact (follow_keeps hhost hexec hprofile hemits s.state submission.after).bind
      fun _ => Keeps.pure _
  · split
    · cases s.policy with
      | queue =>
        refine Keeps.bind (hnote _ rfl trivial ?_) fun _ => hstore _
        rintro _ ⟨⟩
        rfl
      | reject =>
        exact Keeps.bind (hnote _ rfl trivial (by simp)) fun _ => Keeps.pure _
    · refine (hstore _).bind fun _ => ?_
      refine (happly submission).bind fun result => ?_
      cases result with
      | error e => exact (hstore _).bind fun _ => Keeps.pure _
      | ok _ =>
        exact (drain_keeps happly (fun _ => hstore _) fuel).bind fun _ =>
          (hstore _).bind fun _ => Keeps.pure _

end Submissions

end Batches

/-! ## Calls on a form -/

section Calls

variable {host : Host σ κ} {exec : {α : Type} → Program σ κ α → Run σ κ α} {fuel : Nat}
  {allowed : Call σ κ → Prop} {other : FormId} (hhost : host.Uses allowed)
  (hexec : ∀ {α : Type} (p : Program σ κ α), p.Uses allowed → Keeps P (exec p))

include hhost hexec

/-- Calls on a form keep what the changes of its store and channels, the journal entries about it
and the programs keep that they run. -/
theorem perform_on_keeps (hprofile : allowed (.profile other))
    (hemits : ∀ event payload, allowed (.emit other event payload))
    (hstore : ∀ {α : Type} (f : Store κ → α × Store κ), Keeps P (changeStore other f))
    (hchannels : ∀ {α : Type} (f : Channels κ → α × Channels κ), Keeps P (changeChannels other f))
    (c : Call σ κ) (hc : c.form? = some other)
    (hnote : ∀ o : Occurrence κ, o.form = other →
      (∀ queued, o = .queued other queued → c = .submit other queued) → Keeps P (note o)) :
    Keeps P (perform host exec fuel c) := by
  cases c with
  | memory | setMemory _ | create _ _ _ => cases hc
  | look form =>
    cases hc
    exact (Keeps.store other).bind fun _ =>
      Keeps.bind (hnote _ rfl (by simp)) fun _ => Keeps.pure _
  | profile form => exact (Keeps.live _).bind fun _ => Keeps.pure _
  | count form event | waiting form queue =>
    cases hc
    exact (Keeps.live _).bind fun _ =>
      Keeps.bind (hnote _ rfl (by simp)) fun _ => Keeps.pure _
  | submit form submission =>
    cases hc
    exact submit_keeps hhost hexec hprofile hemits submission
      (fun o ho _ hqueued => hnote o ho fun queued h => hqueued queued h ▸ rfl) hstore
  | subscribe form name | unsubscribe form id =>
    cases hc
    exact (hstore _).bind fun _ =>
      Keeps.bind (hnote _ rfl (by simp)) fun _ => Keeps.pure _
  | register form event name | unregister form event id =>
    cases hc
    exact (hchannels _).bind fun _ =>
      Keeps.bind (hnote _ rfl (by simp)) fun _ => Keeps.pure _
  | emit form event payload =>
    cases hc
    refine emit_keeps (fun event payload => hexec _ (Program.uses_call.2 (hemits event payload)))
      (fun _ _ => hexec _ (hhost.handle ..)) (fun f _ => hchannels f) (fun o ho hemission => ?_)
      event payload
    refine hnote o ho ?_
    rintro _ rfl
    exact hemission.elim

/-- Calls on other forms, and calls that are not about a form, keep what the programs keep that they
run. -/
theorem perform_keeps (hfree : ∀ c : Call σ κ, c.form? ≠ some form → allowed c) (c : Call σ κ)
    (hc : c.form? ≠ some form) : Keeps P (perform host exec fuel c) := by
  cases hother : c.form? with
  | some other =>
    have hne : other ≠ form := fun heq => hc (heq ▸ hother)
    have hallowed : ∀ c : Call σ κ, c.form? = some other → allowed c := fun c hc =>
      hfree c (by simpa [hc] using hne)
    exact perform_on_keeps hhost hexec (hallowed _ rfl) (fun _ _ => hallowed _ rfl)
      (fun _ => Keeps.changeStore hne) (fun _ => Keeps.changeChannels hne) c hother
      fun o ho _ => Keeps.note (ho ▸ hne)
  | none =>
    cases c with
    | memory => exact Keeps.get.bind fun _ => Keeps.pure _
    | setMemory memory =>
      intro w _ w' h
      rw [modify_eq_ok.1 h]
      exact P.frame [] (by simp) (by simp) fun _ hlive => hlive
    | create profile handlers initial =>
      intro w id w' h
      rw [perform_create] at h
      cases h
      -- the new form takes an id that no form has, so a form that exists is another one
      cases hform : w.form? form with
      | none => exact P.absent hform
      | some live =>
        refine P.frame [_] rfl (List.forall_mem_singleton.2 ?_) fun _ hlive => ?_
        · rintro rfl
          simp [Occurrence.form, World.form?] at hform
        · exact World.form?_push hlive _
    | _ => cases hother

end Calls

end Run

/-! ## Whole runs -/

namespace Program

variable {P : Progress σ κ form} {host : Host σ κ} {allowed : Call σ κ → Prop}

/-- A program keeps what its calls keep. -/
theorem interpret_keeps {perform : (c : Call σ κ) → Run σ κ c.Reply}
    (hperform : ∀ c, allowed c → Run.Keeps P (perform c)) (p : Program σ κ α)
    (hp : p.Uses allowed) : Run.Keeps P (p.interpret perform) := by
  induction p with
  | done a => exact Run.Keeps.pure a
  | ask c next ih => exact (hperform c hp.1).bind fun reply => ih reply (hp.2 reply)

/-- Every run of allowed calls keeps a progress about a form that the allowed calls on that form
keep, granted that all runs with less fuel keep it. -/
theorem keeps (hhost : host.Uses allowed)
    (hfree : ∀ c : Call σ κ, c.form? ≠ some form → allowed c)
    (hown : ∀ fuel,
      (∀ less ≤ fuel, ∀ {α : Type} (p : Program σ κ α), p.Uses allowed →
        Run.Keeps P (p.run host less)) →
      ∀ c, allowed c → c.form? = some form → Run.Keeps P (Run.perform host (run host fuel) fuel c))
    (fuel : Nat) (p : Program σ κ α) (hp : p.Uses allowed) : Run.Keeps P (p.run host fuel) := by
  -- all smaller amounts of fuel, since a call may be taken apart more than one call deep
  induction fuel using Nat.strongRecOn generalizing α with
  | ind fuel ih =>
    cases fuel with
    | zero => exact Run.Keeps.halt _
    | succ fuel =>
      have hless : ∀ less ≤ fuel, ∀ {α : Type} (p : Program σ κ α), p.Uses allowed →
          Run.Keeps P (p.run host less) :=
        fun less hle _ p hp => ih less (Nat.lt_succ_of_le hle) p hp
      refine interpret_keeps (fun c hc => ?_) p hp
      by_cases hform : c.form? = some form
      · exact hown fuel hless c hc hform
      · exact Run.perform_keeps hhost (fun p hp => hless fuel (Nat.le_refl _) p hp) hfree c hform

end Program

/-! ## The journal grows -/

/-- Progress of a form that exists: it goes on to exist, set up as it was, and the journal gets further
entries. -/
def growing (form : FormId) : Progress σ κ form where
  rel w w' := ∀ live, w.form? form = some live → ∃ entries live', w.Wrote entries w'
    ∧ w'.form? form = some live' ∧ live'.profile = live.profile
  refl w live hlive := ⟨[], live, World.wrote_nil.2 rfl, hlive, rfl⟩
  trans := by
    intro u v w h₁ h₂ live hlive
    obtain ⟨first, between, hwrote, hbetween, hprofile⟩ := h₁ live hlive
    obtain ⟨second, live', hwrote', hlive', hprofile'⟩ := h₂ between hbetween
    exact ⟨first ++ second, live', hwrote.append hwrote', hlive', hprofile'.trans hprofile⟩
  frame entries hwrote _ hsame live hlive := ⟨entries, live, hwrote, hsame live hlive, rfl⟩
  absent hnone _ hlive := nomatch hnone.symm.trans hlive

namespace Run

theorem note_growing (o : Occurrence κ) : Keeps (growing form) (note o : Run σ κ Unit) := by
  intro w _ w' hstep live hlive
  rw [note_eq_ok.1 hstep]
  exact ⟨[o], live, w.wrote_note o, hlive, rfl⟩

theorem changeStore_growing (f : Store κ → α × Store κ) :
    Keeps (growing form) (changeStore form f : Run σ κ α) := by
  intro w a w' hstep live hlive
  rw [changeStore_of hlive] at hstep
  cases hstep
  exact ⟨[], _, World.wrote_nil.2 rfl, World.form?_setForm_self hlive _, rfl⟩

theorem changeChannels_growing (f : Channels κ → α × Channels κ) :
    Keeps (growing form) (changeChannels form f : Run σ κ α) := by
  intro w a w' hstep live hlive
  rw [changeChannels_of hlive] at hstep
  cases hstep
  exact ⟨[], _, World.wrote_nil.2 rfl, World.form?_setForm_self hlive _, rfl⟩

end Run

/-- Whatever runs, a form that exists goes on to exist, and the journal grows. -/
theorem Program.run_growing (form : FormId) (host : Host σ κ) (fuel : Nat) (p : Program σ κ α) :
    Run.Keeps (growing form) (p.run host fuel) :=
  Program.keeps host.uses_true (fun _ _ => trivial) (fun fuel hless c _ hc =>
    Run.perform_on_keeps host.uses_true (fun p hp => hless fuel (Nat.le_refl _) p hp) trivial
      (fun _ _ => trivial) Run.changeStore_growing Run.changeChannels_growing c hc
      fun o _ _ => Run.note_growing o) fuel p p.uses_true

end FormTree
