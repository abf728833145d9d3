import FormTree.Proofs.Execution.Interlude

/-!
# Rounds

A round is what happens for one batch of a dispatch: it is reduced against the current state, and if
that succeeds, the new state is swapped in, everybody in the audience is called, and what comes after
the batch is done.  Host code runs in between, and each time an interlude is all that it amounts to.

`Round` has a round as the journal tells it, and `Round.Ran` says that it ran from one world to
another.  `apply_ran` takes every application of a batch apart into such a round, and
`Round.Ran.applies` puts it together again.  What the store makes of a round follows from that
(`Round.Ran.store`), and that the round was `Round.Lawful`: it used the state it was given, raised the
version by one, and called who was in the audience at the swap.
-/

namespace FormTree

variable {σ κ α : Type}

/-! ## Rounds in the journal -/

/-- What follows the swap of a new state. -/
structure Landing (κ : Type) where
  version : Nat
  state : Data
  /-- Who was called, in order, and what happened during each call. -/
  heard : List (Listener κ × List (Occurrence κ))
  /-- What happened while the batch was followed up. -/
  afterwards : List (Occurrence κ)

/-- The round of one batch. -/
structure Round (κ : Type) where
  submission : Submission κ
  /-- The state that the batch was reduced against. -/
  against : Data
  /-- What happened while host code was asked for updates and errors. -/
  asked : List (Occurrence κ)
  result : Except Fault (Landing κ)

/-- The journal entries of listeners that are called with a state. -/
def heardEntries (form : FormId) (state : Data)
    (heard : List (Listener κ × List (Occurrence κ))) : List (Occurrence κ) :=
  heard.flatMap fun call => .notified form call.1 state :: call.2

/-- The journal entries of what follows the swap of a new state. -/
def Landing.occurrences (form : FormId) (after : Option (After κ)) (l : Landing κ) :
    List (Occurrence κ) :=
  .applied form l.version l.state ::
    (heardEntries form l.state l.heard ++ .followed form after l.state :: l.afterwards)

/-- The journal entries of a round. -/
def Round.occurrences (form : FormId) (r : Round κ) : List (Occurrence κ) :=
  .began form r.submission.batch r.against :: (r.asked ++
    match r.result with
    | .error e => [.failed form e]
    | .ok landing => landing.occurrences form r.submission.after)

/-- The entries of a round whose batch succeeded, part by part. -/
theorem Round.occurrences_of_ok {form : FormId} {r : Round κ} {l : Landing κ}
    (h : r.result = .ok l) : r.occurrences form
      = (.began form r.submission.batch r.against :: r.asked)
        ++ [.applied form l.version l.state] ++ heardEntries form l.state l.heard
        ++ [.followed form r.submission.after l.state] ++ l.afterwards := by
  simp [occurrences, Landing.occurrences, h]

/-- Whether the batch of a round succeeded. -/
def Round.landed (r : Round κ) : Bool := r.result.toBool

/-- The version that a round led to, if its batch succeeded. -/
def Round.version? (r : Round κ) : Option Nat :=
  match r.result with
  | .error _ => none
  | .ok landing => some landing.version

/-- The state after a round. -/
def Round.stateAfter (state : Data) (r : Round κ) : Data :=
  match r.result with
  | .error _ => state
  | .ok landing => landing.state

/-! ## Rounds that a store allows -/

/-- What follows a swap is right for the store before it: the version is the next one, the audience
at that moment is called, each of it once and in order, and everything in between is an interlude. -/
structure Landing.Lawful (form : FormId) (s : Store κ) (l : Landing κ) : Prop where
  version : l.version = s.version + 1
  audience : l.heard.map Prod.fst = s.audience
  heard : ∀ call ∈ l.heard, Interlude form (s.advance l.state) call.2
  afterwards : Interlude form (s.advance l.state) l.afterwards

/-- A round is right for the store at its beginning: it is reduced against the state of the store,
host code that is asked does nothing but an interlude, and what follows the swap is right for the
store at that moment. -/
structure Round.Lawful (form : FormId) (s : Store κ) (r : Round κ) : Prop where
  against : r.against = s.state
  asked : Interlude form s r.asked
  landing : ∀ l, r.result = .ok l → l.Lawful form (s.replay form r.asked)

/-- What a round makes of the state and the version of a store. -/
def Round.outcome (s : Store κ) (r : Round κ) : Store κ :=
  match r.result with
  | .error _ => s
  | .ok l => s.advance l.state

/-- Listeners that are called do nothing but interludes, so what is left is the same state. -/
theorem heardEntries_alike {form : FormId} {s : Store κ} {state : Data}
    {heard : List (Listener κ × List (Occurrence κ))}
    (h : ∀ call ∈ heard, Interlude form s call.2) :
    (s.replay form (heardEntries form state heard)).Alike s := by
  induction heard generalizing s with
  | nil => exact .refl s
  | cons call rest ih =>
    have hcall := (h call (by simp)).alike
    simp only [heardEntries, List.flatMap_cons, List.cons_append, Store.replay_cons,
      Store.replay_append, Store.hear] at ih ⊢
    refine (ih fun other hother => ?_).trans hcall
    exact (Interlude.congr hcall).2 (h other (by simp [hother]))

theorem Landing.Lawful.alike {form : FormId} {s : Store κ} {l : Landing κ}
    (h : l.Lawful form s) (after : Option (After κ)) :
    (s.replay form (l.occurrences form after)).Alike (s.advance l.state) := by
  have hheard : ((s.advance l.state).replay form (heardEntries form l.state l.heard)).Alike _ :=
    heardEntries_alike h.heard
  have hafterwards := (Interlude.congr hheard).2 h.afterwards
  have hreplay : s.replay form (l.occurrences form after)
      = ((s.advance l.state).replay form (heardEntries form l.state l.heard)).replay form
        l.afterwards := by
    simp [occurrences, Store.hear]
  rw [hreplay]
  exact hafterwards.alike.trans hheard

/-- A round swaps in the new state if it succeeds, and changes nothing if it fails. -/
theorem Round.Lawful.alike {form : FormId} {s : Store κ} {r : Round κ} (h : r.Lawful form s) :
    (s.replay form (r.occurrences form)).Alike (r.outcome s) := by
  obtain ⟨submission, against, asked, result⟩ := r
  cases result with
  | error e =>
    have hreplay : s.replay form (occurrences form ⟨submission, against, asked, .error e⟩)
        = s.replay form asked := by
      simp [occurrences, Store.hear]
    rw [hreplay]
    exact h.asked.alike
  | ok l =>
    have hreplay : s.replay form (occurrences form ⟨submission, against, asked, .ok l⟩)
        = (s.replay form asked).replay form (l.occurrences form submission.after) := by
      simp [occurrences, Store.hear]
    rw [hreplay]
    have hasked := h.asked.alike
    refine ((h.landing l rfl).alike _).trans ?_
    exact ⟨rfl, congrArg (· + 1) hasked.version, hasked.policy, hasked.announces,
      hasked.dispatching⟩

theorem Round.Lawful.state {form : FormId} {s : Store κ} {r : Round κ} (h : r.Lawful form s) :
    (s.replay form (r.occurrences form)).state = r.stateAfter s.state := by
  rw [h.alike.state, outcome, stateAfter]
  cases r.result <;> rfl

theorem Round.Lawful.version {form : FormId} {s : Store κ} {r : Round κ} (h : r.Lawful form s) :
    (s.replay form (r.occurrences form)).version = s.version + r.landed.toNat := by
  rw [h.alike.version, outcome, landed]
  cases r.result <;> rfl

theorem Round.Lawful.policy {form : FormId} {s : Store κ} {r : Round κ} (h : r.Lawful form s) :
    (s.replay form (r.occurrences form)).policy = s.policy := by
  rw [h.alike.policy, outcome]
  cases r.result <;> rfl

/-- No batch is rejected in a round of a store that queues. -/
theorem Round.Lawful.accepts {form : FormId} {s : Store κ} {r : Round κ} (h : r.Lawful form s)
    (hpolicy : s.policy = .queue) (submission : Submission κ) :
    .rejected form submission ∉ r.occurrences form := by
  have hinterlude : ∀ {t : Store κ} {during}, Interlude form t during → t.policy = s.policy →
      .rejected form submission ∉ during := by
    intro t during hduring ht hmem
    have hreject := (hduring _ hmem rfl).1
    rw [ht, hpolicy] at hreject
    cases hreject
  have hasked := hinterlude h.asked rfl
  obtain ⟨submission, against, asked, result⟩ := r
  cases result with
  | error e => simpa [occurrences] using hasked
  | ok l =>
    have hl := h.landing l rfl
    have hafterwards := hinterlude hl.afterwards h.asked.alike.policy
    have hheard := fun call hcall => hinterlude (hl.heard call hcall) h.asked.alike.policy
    simpa [occurrences, Landing.occurrences, heardEntries, hasked, hafterwards] using hheard

/-! ## Rounds that ran -/

/-- What runs when a listener is called with a state: the form emits a change event that carries the
state, and host code listens to it. -/
def Listener.program (host : Host σ κ) (form : FormId) (state : Data) :
    Listener κ → Program σ κ Unit
  | .announces => do let _ ← Program.emit form (.external .change) (.state state)
  | .host _ name => host.listen name form state

/-- What runs after a batch, with the state that the batch led to: host code follows up with the
state, and a handle reports of it. -/
def After.program (host : Host σ κ) (form : FormId) (state : Data) : After κ → Program σ κ Unit
  | .host name => host.follow name form state
  | after => Program.report form state after

section Ran

variable (host : Host σ κ) (fuel : Nat) (form : FormId)

/-- The batch of a round was reduced against the state that the round has, from one world to another:
host code was asked for updates and errors as the batch needs them, which is when the entries of the
round came up, and the result is the one that the round has. -/
def Round.Reduces (r : Round κ) (w w' : World σ κ) : Prop :=
  Batch.applyM (fun name previous => (host.update name previous).run host fuel)
      (fun name value => (host.errors name value).run host fuel) r.against r.submission.batch w
    = .ok (r.result.map Landing.state, w')
  ∧ w.Wrote r.asked w'

/-- Listeners were called with a state one after the other, from one world to another. -/
inductive Heard (state : Data) : World σ κ → LiveForm κ → List (Listener κ × List (Occurrence κ)) →
    World σ κ → LiveForm κ → Prop
  | nil {w live} (hlive : w.form? form = some live) : Heard state w live [] w live
  | cons {w v w' live between live' listener during rest}
      (hcall : (Listener.program host form state listener).run host fuel
        (w.note (.notified form listener state)) = .ok ((), v))
      (hduring : Passes form (w.note (.notified form listener state)) live during v between)
      (hrest : Heard state v between rest w' live') :
      Heard state w live ((listener, during) :: rest) w' live'

/-- What comes after a batch ran with a state, from one world to another; if nothing does, nothing
happened. -/
def FollowedUp (state : Data) (after : Option (After κ)) (w w' : World σ κ) : Prop :=
  match after with
  | none => w' = w
  | some after => (after.program host form state).run host fuel w = .ok ((), w')

/-- The round of a batch ran from one world to another. -/
inductive Round.Ran : World σ κ → LiveForm κ → Round κ → World σ κ → LiveForm κ → Prop
  | failed {w v live live' submission e asked}
      (hcompute : Run.compute host (Program.run host fuel) form submission.batch w
        = .ok (.error e, v))
      (hasked : Passes form (w.note (.began form submission.batch live.store.state)) live asked
        v live') :
      Ran w live ⟨submission, live.store.state, asked, .error e⟩ (v.note (.failed form e)) live'
  | landed {w v u w' live asking hearing live' submission next asked heard afterwards}
      (hcompute : Run.compute host (Program.run host fuel) form submission.batch w
        = .ok (.ok next, v))
      (hasked : Passes form (w.note (.began form submission.batch live.store.state)) live asked
        v asking)
      (hheard : Heard host fuel form next
        ((v.setForm form { asking with store := asking.store.advance next }).note
          (.applied form (asking.store.version + 1) next))
        { asking with store := asking.store.advance next } heard u hearing)
      (haudience : heard.map Prod.fst = asking.store.audience)
      (hfollow : FollowedUp host fuel form next submission.after
        (u.note (.followed form submission.after next)) w')
      (hafterwards : Passes form (u.note (.followed form submission.after next)) hearing afterwards
        w' live') :
      Ran w live ⟨submission, live.store.state, asked,
        .ok ⟨asking.store.version + 1, next, heard, afterwards⟩⟩ w' live'

end Ran

variable {host : Host σ κ} {fuel : Nat} {form : FormId} {w v w' : World σ κ}
  {live live' between : LiveForm κ} {state : Data}
  {heard : List (Listener κ × List (Occurrence κ))} {r : Round κ}

/-- To compute a state is to reduce the batch against the state of the form. -/
theorem Run.compute_eq {batch : Batch κ} (hlive : w.form? form = some live) :
    compute host (Program.run host fuel) form batch w
      = Batch.applyM (fun name previous => (host.update name previous).run host fuel)
        (fun name value => (host.errors name value).run host fuel) live.store.state batch
        (w.note (.began form batch live.store.state)) := by
  rw [compute, bind_of_ok (store_of hlive), bind_of_ok (note_ok _)]

/-! ## What ran, in the journal and the store -/

/-- The store after an entry that it makes nothing of and an interlude. -/
theorem Passes.behind {o : Occurrence κ} {during : List (Occurrence κ)}
    (h : Passes form (w.note o) live during w' live') : w.Wrote (o :: during) w' :=
  (w.wrote_note o).append h.wrote

namespace Heard

theorem found (h : Heard host fuel form state w live heard w' live') :
    w'.form? form = some live' := by
  induction h with
  | nil hlive => exact hlive
  | cons _ _ _ ih => exact ih

theorem wrote (h : Heard host fuel form state w live heard w' live') :
    w.Wrote (heardEntries form state heard) w' := by
  induction h with
  | nil => simp [heardEntries]
  | cons _ hduring _ ih => exact hduring.behind.append ih

theorem profile (h : Heard host fuel form state w live heard w' live') :
    live'.profile = live.profile := by
  induction h with
  | nil => rfl
  | cons _ hduring _ ih => exact ih.trans hduring.profile

theorem store (h : Heard host fuel form state w live heard w' live') :
    live'.store = live.store.replay form (heardEntries form state heard) := by
  induction h with
  | nil => rfl
  | cons _ hduring _ ih =>
    rw [ih, hduring.store]
    simp [heardEntries, Store.hear]

theorem listeners (h : Heard host fuel form state w live heard w' live') :
    live'.store.listeners
      = registeredAfter form live.store.listeners (heardEntries form state heard) := by
  induction h with
  | nil => rfl
  | cons _ hduring _ ih =>
    rw [ih, hduring.listeners]
    simp [heardEntries, Occurrence.registers]

theorem alike (h : Heard host fuel form state w live heard w' live') :
    live'.store.Alike live.store := by
  induction h with
  | nil => exact .refl _
  | cons _ hduring _ ih => exact ih.trans hduring.alike

theorem interlude (h : Heard host fuel form state w live heard w' live') :
    ∀ call ∈ heard, Interlude form live.store call.2 := by
  induction h with
  | nil => simp
  | cons _ hduring _ ih =>
    rintro call (_ | ⟨_, hcall⟩)
    · exact hduring.interlude
    · exact (Interlude.congr hduring.alike).1 (ih call hcall)

end Heard

namespace Round.Ran

theorem found (h : Ran host fuel form w live r w' live') : w'.form? form = some live' := by
  cases h with
  | failed _ hasked => exact hasked.found
  | landed _ _ _ _ _ hafterwards => exact hafterwards.found

theorem profile (h : Ran host fuel form w live r w' live') : live'.profile = live.profile := by
  cases h with
  | failed _ hasked => exact hasked.profile
  | landed _ hasked hheard _ _ hafterwards =>
    exact hafterwards.profile.trans (hheard.profile.trans hasked.profile)

/-- The entries of a round are what the journal gets. -/
theorem wrote (h : Ran host fuel form w live r w' live') :
    w.Wrote (r.occurrences form) w' := by
  cases h with
  | failed _ hasked => exact hasked.behind.append (World.wrote_note _ _)
  | landed _ hasked hheard _ _ hafterwards =>
    have hswap := hheard.wrote.append hafterwards.behind
    exact hasked.behind.append ((World.wrote_note _ _).append hswap)

/-- The store after a round is the one that its entries tell of. -/
theorem store (h : Ran host fuel form w live r w' live') :
    live'.store = live.store.replay form (r.occurrences form) := by
  cases h with
  | failed _ hasked => rw [hasked.store]; simp [occurrences, Store.hear]
  | landed _ hasked hheard _ _ hafterwards =>
    rw [hafterwards.store, hheard.store, hasked.store]
    simp [occurrences, Landing.occurrences, Store.hear]

/-- Registered after a round are those that its entries tell of. -/
theorem listeners (h : Ran host fuel form w live r w' live') :
    live'.store.listeners = registeredAfter form live.store.listeners (r.occurrences form) := by
  cases h with
  | failed _ hasked =>
    rw [hasked.listeners]
    simp [occurrences, Occurrence.registers]
  | landed _ hasked hheard _ _ hafterwards =>
    rw [hafterwards.listeners, hheard.listeners, Store.advance_listeners, hasked.listeners]
    simp [occurrences, Landing.occurrences, Occurrence.registers]

/-- A new state is heard by the form, if it announces states, and then by the listeners that are
registered when the state is swapped in, in the order in which they were subscribed. -/
theorem audience {l : Landing κ} (h : Ran host fuel form w live r w' live')
    (hl : r.result = .ok l) : l.heard.map Prod.fst
      = (if live.store.announces then [.announces] else [])
        ++ (registeredAfter form live.store.listeners r.asked).map fun entry =>
          .host entry.1 entry.2 := by
  cases h with
  | failed _ _ => cases hl
  | landed _ hasked _ haudience _ _ =>
    cases hl
    rw [haudience, Store.audience, hasked.alike.announces, hasked.listeners]

/-- Every round that ran was right for the store at its beginning. -/
theorem lawful (h : Ran host fuel form w live r w' live') : r.Lawful form live.store := by
  cases h with
  | failed _ hasked => exact ⟨rfl, hasked.interlude, fun _ h => nomatch h⟩
  | landed _ hasked hheard haudience _ hafterwards =>
    refine ⟨rfl, hasked.interlude, ?_⟩
    rintro _ ⟨⟩
    rw [← hasked.store]
    exact ⟨rfl, haudience, hheard.interlude,
      (Interlude.congr hheard.alike).1 hafterwards.interlude⟩

/-- The result of a round is what the reduction of its batch gave. -/
theorem computed (h : Ran host fuel form w live r w' live') :
    ∃ v, Run.compute host (Program.run host fuel) form r.submission.batch w
      = .ok (r.result.map Landing.state, v) := by
  cases h with
  | failed hcompute _ => exact ⟨_, hcompute⟩
  | landed hcompute _ _ _ _ _ => exact ⟨_, hcompute⟩

/-- The batch of a round was reduced against what the form had for its state. -/
theorem reduces (h : Ran host fuel form w live r w' live') (hlive : w.form? form = some live) :
    ∃ v, r.Reduces host fuel (w.note (.began form r.submission.batch r.against)) v := by
  cases h with
  | failed hcompute hasked => exact ⟨_, (Run.compute_eq hlive).symm.trans hcompute, hasked.wrote⟩
  | landed hcompute hasked _ _ _ _ =>
    exact ⟨_, (Run.compute_eq hlive).symm.trans hcompute, hasked.wrote⟩

/-- A round is part of a dispatch and does not end it. -/
theorem dispatching (h : Ran host fuel form w live r w' live') :
    live'.store.dispatching = live.store.dispatching := by
  rw [h.store, h.lawful.alike.dispatching, outcome]
  cases r.result <;> rfl

theorem announces (h : Ran host fuel form w live r w' live') :
    live'.store.announces = live.store.announces := by
  rw [h.store, h.lawful.alike.announces, outcome]
  cases r.result <;> rfl

end Round.Ran

/-! ## Applying a batch is a round -/

namespace Run

/-- A listener is called with the state. -/
theorem notify_eq (listener : Listener κ) : notify host (Program.run host fuel) form state listener
    = (listener.program host form state).run host fuel := by
  cases listener <;> rfl

/-- What comes after a batch is run with the state. -/
theorem follow_eq_ok {after : Option (After κ)} :
    follow host (Program.run host fuel) form state after w = .ok ((), w')
      ↔ FollowedUp host fuel form state after w w' := by
  rcases after with _ | _ | _ | _ | _
  · exact ⟨pure_of_ok, fun h => by rw [show w' = w from h]; rfl⟩
  all_goals exact Iff.rfl

/-- Whoever is called amid a dispatch, everybody is heard. -/
theorem forM_heard {audience : List (Listener κ)} (hlive : w.form? form = some live)
    (hbusy : live.store.dispatching = true)
    (h : (audience.forM fun listener => do
      note (.notified form listener state)
      notify host (Program.run host fuel) form state listener) w = .ok ((), w')) :
    ∃ heard live', Heard host fuel form state w live heard w' live'
      ∧ heard.map Prod.fst = audience := by
  induction audience generalizing w live with
  | nil =>
    obtain rfl := pure_of_ok h
    exact ⟨[], live, .nil hlive, rfl⟩
  | cons listener rest ih =>
    obtain ⟨_, v, hfirst, hrest⟩ := bind_eq_ok.1 h
    obtain ⟨_, _, hnote, hcall⟩ := bind_eq_ok.1 hfirst
    rw [note_eq_ok.1 hnote, notify_eq] at hcall
    obtain ⟨during, between, hduring⟩ := Program.run_passes host fuel _ hcall live hlive hbusy
    obtain ⟨heard, live', hheard, haudience⟩ :=
      ih hduring.found (hduring.alike.dispatching.trans hbusy) hrest
    exact ⟨(listener, during) :: heard, live', .cons hcall hduring hheard,
      congrArg (listener :: ·) haudience⟩

theorem follow_amid (after : Option (After κ)) :
    Keeps (amid form) (follow host (Program.run host fuel) form state after) := by
  rcases after with _ | _ | _ | _ | _
  · exact Keeps.pure ()
  all_goals exact Program.run_passes host fuel _

/-- Host code that is asked while a batch is reduced does nothing but an interlude. -/
theorem compute_amid {batch : Batch κ} {result : Except Fault Data}
    (hlive : w.form? form = some live) (hbusy : live.store.dispatching = true)
    (h : compute host (Program.run host fuel) form batch w = .ok (result, w')) :
    ∃ asked live', Passes form (w.note (.began form batch live.store.state)) live asked w' live' := by
  rw [compute_eq hlive] at h
  exact Keeps.applyM (P := amid form) (fun _ _ => Program.run_passes host fuel _)
    (fun _ _ => Program.run_passes host fuel _) _ _ h live hlive hbusy

/-- Whenever a batch is applied amid a dispatch, that is a round of it. -/
theorem apply_ran {submission : Submission κ} {answer : Except Fault Unit}
    (hlive : w.form? form = some live) (hbusy : live.store.dispatching = true)
    (h : apply host (Program.run host fuel) form submission w = .ok (answer, w')) :
    ∃ r live', r.submission = submission ∧ Round.Ran host fuel form w live r w' live'
      ∧ answer = r.result.map fun _ => () := by
  obtain ⟨result, v, hcompute, h⟩ := bind_eq_ok.1 h
  obtain ⟨asked, asking, hasked⟩ := compute_amid hlive hbusy hcompute
  cases result with
  | error e =>
    simp only at h
    rw [bind_of_ok (note_ok _)] at h
    obtain ⟨rfl, rfl⟩ := pure_eq_ok.1 h
    exact ⟨_, asking, rfl, .failed hcompute hasked, rfl⟩
  | ok next =>
    simp only at h
    have hfound := World.form?_setForm_self hasked.found
      { asking with store := asking.store.advance next }
    -- the audience is read off the store that host code has left, before the swap
    rw [bind_of_ok (changeStore_of hasked.found _), bind_of_ok (store_of hfound),
      bind_of_ok (note_ok _)] at h
    obtain ⟨_, u, hcalls, h⟩ := bind_eq_ok.1 h
    have hbusy' : ({ asking with store := asking.store.advance next } : LiveForm κ).store.dispatching
        = true := hasked.alike.dispatching.trans hbusy
    obtain ⟨heard, hearing, hheard, haudience⟩ := forM_heard (by exact hfound) hbusy' hcalls
    rw [bind_of_ok (note_ok _)] at h
    obtain ⟨_, _, hfollow, h⟩ := bind_eq_ok.1 h
    obtain ⟨rfl, rfl⟩ := pure_eq_ok.1 h
    obtain ⟨afterwards, live', hafterwards⟩ := follow_amid submission.after hfollow hearing
      hheard.found (hheard.alike.dispatching.trans hbusy')
    exact ⟨_, live', rfl, .landed hcompute hasked hheard haudience (follow_eq_ok.1 hfollow)
      hafterwards, rfl⟩

end Run

/-- The calls that were heard are what the loop over the audience does. -/
theorem Heard.calls (h : Heard host fuel form state w live heard w' live') :
    ((heard.map Prod.fst).forM fun listener => do
      Run.note (.notified form listener state)
      Run.notify host (Program.run host fuel) form state listener) w = .ok ((), w') := by
  induction h with
  | nil => rfl
  | cons hcall _ _ ih =>
    refine Run.bind_eq_ok.2 ⟨(), _, ?_, ih⟩
    exact Run.bind_eq_ok.2 ⟨(), _, Run.note_ok _, by rwa [Run.notify_eq]⟩

/-- A round that ran is what applying its batch does. -/
theorem Round.Ran.applies (h : Round.Ran host fuel form w live r w' live') :
    Run.apply host (Program.run host fuel) form r.submission w
      = .ok (r.result.map fun _ => (), w') := by
  cases h with
  | failed hcompute _ =>
    unfold Run.apply
    rw [Run.bind_of_ok hcompute]
    rfl
  | @landed _ _ _ _ asking _ _ _ next _ _ _ hcompute hasked hheard haudience hfollow _ =>
    have hfound := World.form?_setForm_self hasked.found
      { asking with store := asking.store.advance next }
    have hcalls := hheard.calls
    rw [haudience] at hcalls
    unfold Run.apply
    rw [Run.bind_of_ok hcompute]
    simp only
    rw [Run.bind_of_ok (Run.changeStore_of hasked.found _), Run.bind_of_ok (Run.store_of hfound),
      Run.bind_of_ok (Run.note_ok _)]
    refine (Run.bind_of_ok hcalls).trans ?_
    rw [Run.bind_of_ok (Run.note_ok _), Run.bind_of_ok (Run.follow_eq_ok.2 hfollow)]
    rfl

end FormTree
