import FormTree.Proofs.Execution.Round

/-!
# Dispatches

A dispatch works off the batches that wait, one round each, until none is left; host code that runs
in its rounds can put further batches behind the others.  The batch that starts a dispatch is the
first of those that wait.

`WorkedOff` chains the rounds of a dispatch from world to world.  Its lemmas say that the journal has
the rounds one after the other, that the rounds are those of the batches in the order in which they
were submitted, and that each of them was right for the store that the rounds before it left behind.
`submit_workedOff` finds these rounds for every batch that is submitted to a form at rest; `Dispatch`
puts everything together.
-/

namespace FormTree

variable {σ κ α : Type}

/-! ## What waits -/

/-- The batches that were queued, in this order. -/
def queuedIn (form : FormId) (occurrences : List (Occurrence κ)) : List (Submission κ) :=
  occurrences.filterMap fun
    | .queued other submission => if other = form then some submission else none
    | _ => none

@[simp] theorem queuedIn_append (form : FormId) (first second : List (Occurrence κ)) :
    queuedIn form (first ++ second) = queuedIn form first ++ queuedIn form second :=
  List.filterMap_append

namespace Store

variable {form : FormId} {s : Store κ}

/-- What is queued goes behind what waits, and nothing else depends on what waits. -/
theorem hear_pending (pending : List (Submission κ)) (o : Occurrence κ) :
    { s with pending := pending }.hear form o
      = { s.hear form o with pending := pending ++ queuedIn form [o] } := by
  cases o <;> simp only [hear, queuedIn, List.filterMap_cons, List.filterMap_nil, List.append_nil]
  case unsubscribed other id _ =>
    by_cases hform : other = form
    · simp only [hform, if_true, unsubscribe]
      split <;> rfl
    · simp [hform]
  all_goals split <;> simp_all [subscribe, enqueue, advance]

theorem replay_pending (pending : List (Submission κ)) (occurrences : List (Occurrence κ)) :
    { s with pending := pending }.replay form occurrences
      = { s.replay form occurrences with pending := pending ++ queuedIn form occurrences } := by
  induction occurrences generalizing s pending with
  | nil => simp [queuedIn]
  | cons o rest ih =>
    rw [replay_cons, hear_pending, ih, List.append_assoc, ← queuedIn_append]
    rfl

/-- All that ever waited. -/
theorem pending_replay (occurrences : List (Occurrence κ)) :
    (s.replay form occurrences).pending = s.pending ++ queuedIn form occurrences :=
  congrArg Store.pending (replay_pending (s := s) s.pending occurrences)

end Store

namespace LiveForm

/-- The form with other batches waiting. -/
def lineUp (live : LiveForm κ) (pending : List (Submission κ)) : LiveForm κ :=
  { live with store := { live.store with pending := pending } }

/-- The form with its store dispatching, or at rest. -/
def mark (live : LiveForm κ) (dispatching : Bool) : LiveForm κ :=
  { live with store := { live.store with dispatching := dispatching } }

/-- The form at the beginning of a dispatch: the batch is the first of those that wait. -/
def takeUp (live : LiveForm κ) (submission : Submission κ) : LiveForm κ :=
  (live.mark true).lineUp (submission :: live.store.pending)

end LiveForm

theorem Landing.Lawful.of_pending {form : FormId} {s : Store κ} {l : Landing κ}
    {pending : List (Submission κ)} (h : l.Lawful form { s with pending := pending }) :
    l.Lawful form s where
  version := h.version
  audience := h.audience
  heard call hcall := (Interlude.congr ⟨rfl, rfl, rfl, rfl, rfl⟩).1 (h.heard call hcall)
  afterwards := (Interlude.congr ⟨rfl, rfl, rfl, rfl, rfl⟩).1 h.afterwards

/-- What is right for a store is right for one that differs in what waits. -/
theorem Round.Lawful.of_pending {form : FormId} {s : Store κ} {r : Round κ}
    {pending : List (Submission κ)} (h : r.Lawful form { s with pending := pending }) :
    r.Lawful form s where
  against := h.against
  asked := (Interlude.congr ⟨rfl, rfl, rfl, rfl, rfl⟩).1 h.asked
  landing l hl := by
    have hlanding := h.landing l hl
    rw [Store.replay_pending] at hlanding
    exact hlanding.of_pending

/-! ## Rounds that follow each other -/

theorem countP_landed_cons (r : Round κ) (rest : List (Round κ)) :
    (r :: rest).countP Round.landed = r.landed.toNat + rest.countP Round.landed := by
  rw [List.countP_cons, Nat.add_comm]
  cases r.landed <;> rfl

/-- Every round starts from the state and the version that the one before it left, and leads to the
next version if it succeeds. -/
def Succession : Data → Nat → List (Round κ) → Prop
  | _, _, [] => True
  | state, version, r :: rest =>
    r.against = state ∧ (∀ l, r.result = .ok l → l.version = version + 1)
      ∧ Succession (r.stateAfter state) (version + r.landed.toNat) rest

namespace Succession

variable {state : Data} {version : Nat} {rounds others : List (Round κ)}

theorem append : Succession state version (rounds ++ others)
    ↔ Succession state version rounds
      ∧ Succession (rounds.foldl Round.stateAfter state) (version + rounds.countP Round.landed)
        others := by
  induction rounds generalizing state version with
  | nil => simp [Succession]
  | cons r rest ih =>
    have hcount : version + (r :: rest).countP Round.landed
        = version + r.landed.toNat + rest.countP Round.landed := by
      rw [countP_landed_cons, Nat.add_assoc]
    simp only [List.cons_append, Succession, ih, List.foldl_cons, hcount, and_assoc]

/-- What a round starts from is what all rounds before it made of the beginning. -/
theorem split {earlier later : List (Round κ)} {r : Round κ}
    (h : Succession state version (earlier ++ r :: later)) :
    r.against = earlier.foldl Round.stateAfter state
      ∧ ∀ l, r.result = .ok l → l.version = version + earlier.countP Round.landed + 1 := by
  obtain ⟨-, hagainst, hversion, -⟩ := append.1 h
  exact ⟨hagainst, hversion⟩

/-- The versions that rounds lead to have no gaps. -/
theorem versions (h : Succession state version rounds) :
    rounds.filterMap Round.version? = List.range' (version + 1) (rounds.countP Round.landed) := by
  induction rounds generalizing state version with
  | nil => rfl
  | cons r rest ih =>
    obtain ⟨-, hversion, hrest⟩ := h
    have hlater := ih hrest
    cases hresult : r.result with
    | error e =>
      have hlanded : r.landed = false := by rw [Round.landed, hresult]; rfl
      simpa [Round.version?, hresult, hlanded] using hlater
    | ok l =>
      have hlanded : r.landed = true := by rw [Round.landed, hresult]; rfl
      simpa [Round.version?, hresult, hlanded, List.range'_succ, hversion l hresult] using hlater

end Succession

/-! ## Working off -/

section Chain

variable (host : Host σ κ) (fuel : Nat) (form : FormId)

/-- Rounds of the batches that waited ran one after the other, from one world to another. -/
inductive WorkedOff : World σ κ → LiveForm κ → List (Round κ) → World σ κ → LiveForm κ → Prop
  | nil {w live} (hlive : w.form? form = some live) : WorkedOff w live [] w live
  | cons {w v w' live between live' r rest waiting} (hlive : w.form? form = some live)
      (hnext : live.store.pending = r.submission :: waiting)
      (hround : Round.Ran host fuel form (w.setForm form (live.lineUp waiting))
        (live.lineUp waiting) r v between)
      (hrest : WorkedOff v between rest w' live') : WorkedOff w live (r :: rest) w' live'

end Chain

variable {host : Host σ κ} {fuel : Nat} {form : FormId} {w v w' : World σ κ}
  {live live' between : LiveForm κ} {rounds : List (Round κ)} {submission : Submission κ}

/-- The journal entries of rounds. -/
def roundEntries (form : FormId) (rounds : List (Round κ)) : List (Occurrence κ) :=
  rounds.flatMap (·.occurrences form)

@[simp] theorem roundEntries_cons (r : Round κ) (rest : List (Round κ)) :
    roundEntries form (r :: rest) = r.occurrences form ++ roundEntries form rest := rfl

namespace WorkedOff

theorem found (h : WorkedOff host fuel form w live rounds w' live') :
    w'.form? form = some live' := by
  induction h with
  | nil hlive => exact hlive
  | cons _ _ _ _ ih => exact ih

theorem wrote (h : WorkedOff host fuel form w live rounds w' live') :
    w.Wrote (roundEntries form rounds) w' := by
  induction h with
  | nil => exact World.wrote_nil.2 rfl
  | cons _ _ hround _ ih => exact hround.wrote.append ih

theorem profile (h : WorkedOff host fuel form w live rounds w' live') :
    live'.profile = live.profile := by
  induction h with
  | nil => rfl
  | cons _ _ hround _ ih => exact ih.trans hround.profile

/-- The store is the one that the journal tells of, except for what waits. -/
theorem store (h : WorkedOff host fuel form w live rounds w' live') :
    live'.store = { live.store.replay form (roundEntries form rounds) with
      pending := live'.store.pending } := by
  induction h with
  | nil => rfl
  | @cons _ _ _ live _ _ r rest waiting _ _ hround _ ih =>
    have hstore := hround.store
    rw [LiveForm.lineUp, Store.replay_pending] at hstore
    rw [ih, hstore, Store.replay_pending, roundEntries_cons, Store.replay_append]

/-- Batches are worked off in the order in which they were put behind the others. -/
theorem order (h : WorkedOff host fuel form w live rounds w' live') :
    rounds.map Round.submission ++ live'.store.pending
      = live.store.pending ++ queuedIn form (roundEntries form rounds) := by
  induction h with
  | nil => simp [roundEntries, queuedIn]
  | @cons _ _ _ live _ _ r rest waiting _ hnext hround _ ih =>
    have hpending := congrArg Store.pending hround.store
    rw [Store.pending_replay] at hpending
    rw [List.map_cons, List.cons_append, ih, hpending, hnext, roundEntries_cons, queuedIn_append,
      List.append_assoc]
    rfl

/-- Every round was right for the store that the rounds before it left behind. -/
theorem lawful (h : WorkedOff host fuel form w live rounds w' live') :
    ∀ earlier r later, rounds = earlier ++ r :: later →
      r.Lawful form (live.store.replay form (roundEntries form earlier)) := by
  induction h with
  | nil => simp
  | @cons _ _ _ live _ _ first rest waiting _ _ hround _ ih =>
    intro earlier r later hsplit
    cases earlier with
    | nil =>
      obtain ⟨rfl, _⟩ := List.cons_eq_cons.1 hsplit
      exact hround.lawful.of_pending
    | cons _ earlier =>
      -- the later rounds are right for the store after the first one, up to what waits
      obtain ⟨rfl, hrest⟩ := List.cons_eq_cons.1 hsplit
      have hstore := hround.store
      rw [LiveForm.lineUp, Store.replay_pending] at hstore
      have hlater := ih earlier r later hrest
      rw [hstore, Store.replay_pending] at hlater
      rw [roundEntries_cons, Store.replay_append]
      exact hlater.of_pending

/-- Registered are in the end those that the journal tells of. -/
theorem listeners (h : WorkedOff host fuel form w live rounds w' live') : live'.store.listeners
    = registeredAfter form live.store.listeners (roundEntries form rounds) := by
  induction h with
  | nil => rfl
  | cons _ _ hround _ ih =>
    rw [ih, hround.listeners, roundEntries_cons, registeredAfter_append]
    rfl

/-- A new state is heard by those who are registered by then, as the journal tells. -/
theorem audience (h : WorkedOff host fuel form w live rounds w' live') :
    ∀ earlier r later l, rounds = earlier ++ r :: later → r.result = .ok l →
      l.heard.map Prod.fst = (if live.store.announces then [.announces] else [])
        ++ (registeredAfter form live.store.listeners (roundEntries form earlier ++ r.asked)).map
          fun entry => .host entry.1 entry.2 := by
  induction h with
  | nil => simp
  | @cons _ _ _ live _ _ first rest waiting _ _ hround _ ih =>
    intro earlier r later l hsplit hl
    cases earlier with
    | nil =>
      obtain ⟨rfl, _⟩ := List.cons_eq_cons.1 hsplit
      exact hround.audience hl
    | cons _ earlier =>
      obtain ⟨rfl, hrest⟩ := List.cons_eq_cons.1 hsplit
      rw [ih earlier r later l hrest hl, hround.announces, hround.listeners, roundEntries_cons,
        List.append_assoc, ← registeredAfter_append]
      rfl

/-- Every round starts from the state and the version that the one before it left. -/
theorem succession (h : WorkedOff host fuel form w live rounds w' live') :
    Succession live.store.state live.store.version rounds := by
  induction h with
  | nil => trivial
  | @cons _ _ _ live _ _ r _ waiting _ _ hround _ ih =>
    have hlawful : r.Lawful form (live.lineUp waiting).store := hround.lawful
    rw [hround.store, hlawful.state, hlawful.version] at ih
    exact ⟨hlawful.against, fun l hl => by
      rw [(hlawful.landing l hl).version, hlawful.asked.alike.version]; rfl, ih⟩

theorem state (h : WorkedOff host fuel form w live rounds w' live') :
    live'.store.state = rounds.foldl Round.stateAfter live.store.state := by
  induction h with
  | nil => rfl
  | cons _ _ hround _ ih => rw [ih, hround.store, hround.lawful.state]; rfl

theorem version (h : WorkedOff host fuel form w live rounds w' live') :
    live'.store.version = live.store.version + rounds.countP Round.landed := by
  induction h with
  | nil => rfl
  | @cons _ _ _ live _ _ r _ waiting _ _ hround _ ih =>
    rw [ih, hround.store, hround.lawful.version, countP_landed_cons, Nat.add_assoc]
    rfl

/-- Every round ran amid the dispatch, with what the form was set up with. -/
theorem ran (h : WorkedOff host fuel form w live rounds w' live') :
    ∀ r ∈ rounds, ∃ v before v' after, Round.Ran host fuel form v before r v' after
      ∧ before.profile = live.profile ∧ before.store.announces = live.store.announces
      ∧ before.store.dispatching = live.store.dispatching := by
  induction h with
  | nil => simp
  | cons _ _ hround _ ih =>
    rintro r (_ | ⟨_, hr⟩)
    · exact ⟨_, _, _, _, hround, rfl, rfl, rfl⟩
    · obtain ⟨v, before, v', after, hran, hprofile, hannounces, hbusy⟩ := ih r hr
      exact ⟨v, before, v', after, hran, hprofile.trans hround.profile,
        hannounces.trans hround.announces, hbusy.trans hround.dispatching⟩

/-- Every batch was reduced against the state that its round has. -/
theorem reduces (h : WorkedOff host fuel form w live rounds w' live') :
    ∀ r ∈ rounds, ∃ v u, r.Reduces host fuel v u := by
  induction h with
  | nil => simp
  | cons hlive _ hround _ ih =>
    rintro r (_ | ⟨_, hr⟩)
    · obtain ⟨u, hreduces⟩ := hround.reduces (World.form?_setForm_self hlive _)
      exact ⟨_, u, hreduces⟩
    · exact ih r hr

theorem announces (h : WorkedOff host fuel form w live rounds w' live') :
    live'.store.announces = live.store.announces := by
  induction h with
  | nil => rfl
  | cons _ _ hround _ ih => exact ih.trans hround.announces

theorem dispatching (h : WorkedOff host fuel form w live rounds w' live') :
    live'.store.dispatching = live.store.dispatching := by
  induction h with
  | nil => rfl
  | cons _ _ hround _ ih => exact ih.trans hround.dispatching

/-- One round more. -/
theorem snoc {r : Round κ} {waiting : List (Submission κ)}
    (h : WorkedOff host fuel form w live rounds v between)
    (hnext : between.store.pending = r.submission :: waiting)
    (hround : Round.Ran host fuel form (v.setForm form (between.lineUp waiting))
      (between.lineUp waiting) r w' live') :
    WorkedOff host fuel form w live (rounds ++ [r]) w' live' := by
  induction h with
  | nil hlive => exact .cons hlive hnext hround (.nil hround.found)
  | cons hlive hfirst hran _ ih => exact .cons hlive hfirst hran (ih hnext hround)

end WorkedOff

theorem accepts_rounds {s : Store κ}
    (h : ∀ earlier r later, rounds = earlier ++ r :: later →
      r.Lawful form (s.replay form (roundEntries form earlier)))
    (hpolicy : s.policy = .queue) (other : Submission κ) :
    .rejected form other ∉ roundEntries form rounds := by
  induction rounds generalizing s with
  | nil => simp [roundEntries]
  | cons r rest ih =>
    have hfirst : r.Lawful form s := h [] r rest rfl
    have hrest := ih (s := s.replay form (r.occurrences form)) (fun earlier other later hsplit => by
      have hother := h (r :: earlier) other later (congrArg (r :: ·) hsplit)
      rwa [roundEntries_cons, Store.replay_append] at hother) (hfirst.policy.trans hpolicy)
    rw [roundEntries_cons, List.mem_append, not_or]
    exact ⟨hfirst.accepts hpolicy other, hrest⟩

/-! ## Submitting to a form at rest -/

namespace Run

variable {answer : Except Fault Outcome} {limit : Nat}

/-- A drain works off everything that waits. -/
theorem drain_workedOff (hlive : w.form? form = some live)
    (hbusy : live.store.dispatching = true)
    (h : drain host (Program.run host fuel) form limit w = .ok ((), w')) :
    ∃ rounds live', WorkedOff host fuel form w live rounds w' live'
      ∧ live'.store.pending = [] := by
  induction limit generalizing w live with
  | zero =>
    unfold drain at h
    rw [bind_of_ok (store_of hlive)] at h
    cases hpending : live.store.pending with
    | nil =>
      simp only [hpending] at h
      obtain rfl := pure_of_ok h
      exact ⟨[], live, .nil hlive, hpending⟩
    | cons submission waiting =>
      simp only [hpending] at h
      exact absurd h halt_ne_ok
  | succ limit ih =>
    unfold drain at h
    rw [bind_of_ok (store_of hlive)] at h
    cases hpending : live.store.pending with
    | nil =>
      simp only [hpending] at h
      obtain rfl := pure_of_ok h
      exact ⟨[], live, .nil hlive, hpending⟩
    | cons submission waiting =>
      simp only [hpending] at h
      rw [bind_of_ok (changeStore_of hlive _)] at h
      obtain ⟨_, v, happly, hdrain⟩ := bind_eq_ok.1 h
      have hpopped := World.form?_setForm_self hlive (live.lineUp waiting)
      obtain ⟨r, between, rfl, hround, _⟩ := apply_ran hpopped hbusy happly
      obtain ⟨rounds, live', hrest, hnone⟩ :=
        ih hround.found (hround.dispatching.trans hbusy) hdrain
      exact ⟨r :: rounds, live', .cons hlive hpending hround hrest, hnone⟩

/-- A batch that is submitted to a form at rest is worked off first, and then, if it succeeded,
everything else. -/
theorem submit_workedOff (hlive : w.form? form = some live)
    (hrest : live.store.dispatching = false) (hbatch : submission.batch ≠ [])
    (h : submit host (Program.run host fuel) limit form submission w = .ok (answer, w')) :
    ∃ first rest u ended,
      WorkedOff host fuel form (w.setForm form (live.takeUp submission)) (live.takeUp submission)
        (first :: rest) u ended
      ∧ w' = u.setForm form (ended.mark false)
      ∧ answer = first.result.map (fun _ => .applied)
      ∧ (first.landed = true → ended.store.pending = [])
      ∧ (first.landed = false → rest = []) := by
  unfold submit at h
  rw [bind_of_ok (store_of hlive), if_neg (by simpa using hbatch), if_neg (by simp [hrest]),
    setDispatching, bind_of_ok (changeStore_of hlive _)] at h
  obtain ⟨result, v, happly, hend⟩ := bind_eq_ok.1 h
  obtain ⟨first, between, rfl, hround, rfl⟩ :=
    apply_ran (World.form?_setForm_self hlive (live.mark true)) rfl happly
  -- the first batch is applied without waiting, as if it had been taken from the front
  have hworked : ∀ {rest u ended}, WorkedOff host fuel form v between rest u ended →
      WorkedOff host fuel form (w.setForm form (live.takeUp first.submission))
        (live.takeUp first.submission) (first :: rest) u ended := by
    refine fun hrest => .cons (World.form?_setForm_self hlive _) rfl ?_ hrest
    rw [World.setForm_setForm]
    exact hround
  cases hfirst : first.result with
  | error e =>
    simp only [hfirst, Except.map] at hend
    rw [setDispatching, bind_of_ok (changeStore_of hround.found _)] at hend
    obtain ⟨rfl, rfl⟩ := pure_eq_ok.1 hend
    exact ⟨first, [], v, between, hworked (.nil hround.found), rfl, by rw [hfirst]; rfl,
      fun hlanded => by simp [Round.landed, hfirst, Except.toBool] at hlanded, fun _ => rfl⟩
  | ok l =>
    simp only [hfirst, Except.map] at hend
    obtain ⟨_, u, hdrain, hend⟩ := bind_eq_ok.1 hend
    obtain ⟨rest, ended, hrest, hnone⟩ :=
      drain_workedOff hround.found hround.dispatching hdrain
    rw [setDispatching, bind_of_ok (changeStore_of hrest.found _)] at hend
    obtain ⟨rfl, rfl⟩ := pure_eq_ok.1 hend
    exact ⟨first, rest, u, ended, hworked hrest, rfl, by rw [hfirst]; rfl, fun _ => hnone,
      fun hlanded => by simp [Round.landed, hfirst, Except.toBool] at hlanded⟩

end Run

/-- A dispatch that the given batch started in the given world, and that came to its end. -/
structure Dispatch (host : Host σ κ) (fuel : Nat) (form : FormId) (submission : Submission κ)
    (w : World σ κ) (live : LiveForm κ) (rounds : List (Round κ)) (w' : World σ κ)
    (live' : LiveForm κ) : Prop where
  /-- The rounds ran one after the other, each from the world that the one before it left.  In each of
  them the listeners, and then what comes after the batch, ran with the state that the batch led to. -/
  ran : ∃ u ended, WorkedOff host fuel form (w.setForm form (live.takeUp submission))
    (live.takeUp submission) rounds u ended ∧ w' = u.setForm form live' ∧ live' = ended.mark false
  /-- The journal has the rounds one after the other, and nothing between them. -/
  wrote : w.Wrote (roundEntries form rounds) w'
  /-- There is one round for each batch: the given one, those that waited, and those that were queued
  meanwhile, in the order in which they were. -/
  order : rounds.map Round.submission
    = submission :: live.store.pending ++ queuedIn form (roundEntries form rounds)
  /-- Every round is reduced against what the rounds before it made of the state. -/
  against : ∀ earlier r later, rounds = earlier ++ r :: later →
    r.against = earlier.foldl Round.stateAfter live.store.state
  /-- What a round leads to is what host code makes of the whole batch, reduced against that state. -/
  reduced : ∀ r ∈ rounds, ∃ v u, r.Reduces host fuel v u
  /-- Every round that succeeds gets the next version. -/
  version : ∀ earlier r later l, rounds = earlier ++ r :: later → r.result = .ok l →
    l.version = live.store.version + earlier.countP Round.landed + 1
  /-- A new state is heard by the form, if it announces states, and by the listeners that are registered
  when the state is swapped in, each of them once: those from before the dispatch and those that the
  journal has as subscribed since, in this order, without those that it has as taken off. -/
  audience : ∀ earlier r later l, rounds = earlier ++ r :: later → r.result = .ok l →
    l.heard.map Prod.fst = (if live.store.announces then [.announces] else [])
      ++ (registeredAfter form live.store.listeners (roundEntries form earlier ++ r.asked)).map
        fun entry => .host entry.1 entry.2
  /-- Every round is right for the store that the rounds before it left behind. -/
  lawful : ∀ earlier r later, rounds = earlier ++ r :: later →
    r.Lawful form ((live.mark true).store.replay form (roundEntries form earlier))
  /-- Every batch that is submitted meanwhile and is not empty is queued. -/
  accepted : ∀ submission, .rejected form submission ∉ roundEntries form rounds
  found : w'.form? form = some live'
  /-- The store is in the end what the journal tells, and at rest with nothing waiting. -/
  store : live'.store = { (live.mark true).store.replay form (roundEntries form rounds) with
    dispatching := false, pending := [] }
  /-- In the end nothing waits, the form is at rest, and the state and the version are what the
  rounds that succeeded made of them. -/
  pending : live'.store.pending = []
  atRest : live'.store.dispatching = false
  state : live'.store.state = rounds.foldl Round.stateAfter live.store.state
  count : live'.store.version = live.store.version + rounds.countP Round.landed

/-- A batch that was submitted to a form at rest and succeeded started a dispatch, which came to its
end. -/
theorem Dispatch.of_submit {answer : Except Fault Outcome} {limit : Nat}
    (hlive : w.form? form = some live) (hpolicy : live.store.policy = .queue)
    (hrest : live.store.dispatching = false) (hbatch : submission.batch ≠ [])
    (hreduces : ∃ next v, Run.compute host (Program.run host fuel) form submission.batch
      (w.setForm form (live.mark true)) = .ok (.ok next, v))
    (hrun : Run.submit host (Program.run host fuel) limit form submission w = .ok (answer, w')) :
    ∃ rounds live', answer = .ok .applied ∧ Dispatch host fuel form submission w live rounds w' live'
      ∧ ∃ first rest, rounds = first :: rest ∧ first.landed = true := by
  obtain ⟨first, rest, u, ended, hworked, rfl, rfl, hnone, -⟩ :=
    Run.submit_workedOff hlive hrest hbatch hrun
  obtain ⟨l, hfirst⟩ : ∃ l, first.result = .ok l := by
    obtain ⟨next, v, hreduces⟩ := hreduces
    cases hworked with
    | cons _ hnext hround _ =>
      obtain ⟨rfl, rfl⟩ := List.cons_eq_cons.1 hnext
      obtain ⟨_, hcomputed⟩ := hround.computed
      rw [World.setForm_setForm] at hcomputed
      have hsame := hcomputed.symm.trans hreduces
      cases hresult : first.result with
      | error e => simp [hresult, Except.map] at hsame
      | ok l => exact ⟨l, rfl⟩
  have hlanded : first.landed = true := by rw [Round.landed, hfirst]; rfl
  have hlawful : ∀ earlier r later, first :: rest = earlier ++ r :: later →
      r.Lawful form ((live.mark true).store.replay form (roundEntries form earlier)) := by
    intro earlier r later hsplit
    have hr := hworked.lawful earlier r later hsplit
    rw [LiveForm.takeUp, LiveForm.lineUp, Store.replay_pending] at hr
    exact hr.of_pending
  refine ⟨first :: rest, ended.mark false, by rw [hfirst]; rfl, ?_, first, rest, rfl, hlanded⟩
  exact {
    ran := ⟨u, ended, hworked, rfl, rfl⟩
    wrote := by simpa [World.Wrote] using hworked.wrote
    order := by
      have horder := hworked.order
      rw [hnone hlanded, List.append_nil] at horder
      exact horder
    against := fun _ _ _ hsplit => (hsplit ▸ hworked.succession).split.1
    reduced := hworked.reduces
    version := fun _ _ _ l hsplit => (hsplit ▸ hworked.succession).split.2 l
    audience := hworked.audience
    lawful := hlawful
    accepted := accepts_rounds hlawful hpolicy
    found := World.form?_setForm_self hworked.found _
    store := by
      have hstore := hworked.store
      rw [LiveForm.takeUp, LiveForm.lineUp, Store.replay_pending, hnone hlanded] at hstore
      rw [LiveForm.mark, hstore]
    pending := hnone hlanded
    atRest := rfl
    state := hworked.state
    count := hworked.version }

end FormTree
