import FormTree.Proofs.Execution.Faults
import FormTree.Proofs.Execution.Snapshots

/-!
# Stores that reject

A store with the reject policy dispatches one batch at a time and lets nothing else in.  Whatever host
code submits during the dispatch is refused on the spot, unless it is empty, and nothing ever waits.
So a batch that is submitted to the form at rest is the only one of its dispatch; it succeeds or
fails on its own, and leaves the form at rest for the next.

`reject_isolates` says what every run comes to, from a world in which the form is at rest and from one
in which it is being dispatched.
-/

namespace FormTree

variable {σ κ α : Type}

/-! ## What is refused -/

/-- Of what belongs to the submission of a batch, there is nothing about the form except that a batch
is refused or that an empty one is passed over. -/
def Occurrence.Refused (form : FormId) (o : Occurrence κ) : Prop :=
  o.OfBatch → o.form = form → (∃ submission : Submission κ, submission.batch ≠ []
    ∧ o = .rejected form submission) ∨ ∃ after state, o = .skipped form after state

/-- Everything that happened while host code ran in a round. -/
def Round.meanwhile (r : Round κ) : List (Occurrence κ) :=
  r.asked ++ match r.result with
    | .error _ => []
    | .ok l => l.heard.flatMap Prod.snd ++ l.afterwards

/-- A batch that was submitted to a form at rest had a dispatch of its own. -/
structure DispatchedAlone (host : Host σ κ) (form : FormId) (submission : Submission κ)
    (w : World σ κ) (live : LiveForm κ) (r : Round κ) (answer : Except Fault Outcome)
    (w' : World σ κ) (live' : LiveForm κ) : Prop where
  /-- There is one round, all of it with the form marked as dispatching, and the mark is taken away
  at its end. -/
  ran : ∃ fuel u ended, Round.Ran host fuel form (w.setForm form (live.mark true)) (live.mark true)
      r u ended
    ∧ w' = u.setForm form live' ∧ live' = ended.mark false
  own : r.submission = submission
  wrote : w.Wrote (r.occurrences form) w'
  consistent : r.Consistent host form live.store.snapshot
  /-- Everything that was submitted meanwhile is refused, and the batch itself is not. -/
  refused : ∀ o ∈ r.meanwhile, o.Refused form
  answered : answer = r.result.map fun _ => .applied
  accepted : answer ≠ .error .reentrantDispatch
  /-- What is left is the reduction of the batch, or what was there before. -/
  applied : ∀ l, r.result = .ok l → live'.store.snapshot = ⟨l.state, live.store.version + 1⟩
  failed : ∀ e, r.result = .error e → live'.store.snapshot = live.store.snapshot
  found : w'.form? form = some live'
  policy : live'.store.policy = .reject
  pending : live'.store.pending = []
  atRest : live'.store.dispatching = false

/-- In every dispatch of a run there is one batch, and all others are refused, so at every moment
nothing waits. -/
structure Isolated (form : FormId) (s : Store κ) (stretches : List (Stretch κ)) : Prop where
  alone : ∀ rounds, .dispatch rounds ∈ stretches →
    ∃ r, rounds = [r] ∧ ∀ o ∈ r.meanwhile, o.Refused form
  pending : ∀ earlier later, stretchEntries form stretches = earlier ++ later →
    (s.replay form earlier).pending = []

variable {host : Host σ κ} {fuel : Nat} {form : FormId} {w w' : World σ κ} {live live' : LiveForm κ}
  {s : Store κ} {r : Round κ} {rounds : List (Round κ)} {submission : Submission κ}

/-! ## Amid a dispatch -/

theorem Occurrence.Amid.refused {o : Occurrence κ} (h : o.Amid form s)
    (hpolicy : s.policy = .reject) : o.Refused form := by
  intro hbatch hform
  cases o with
  | queued other _ => exact absurd ((h hform).1.symm.trans hpolicy) (by simp)
  | rejected other refused => exact .inl ⟨refused, (h hform).2.2, by rw [← hform]; rfl⟩
  | skipped other after state => exact .inr ⟨after, state, by rw [← hform]; rfl⟩
  | began | applied | failed | notified | followed => exact absurd hform h
  | _ => exact hbatch.elim

theorem queuedIn_eq_nil {occurrences : List (Occurrence κ)}
    (h : ∀ submission, .queued form submission ∉ occurrences) : queuedIn form occurrences = [] := by
  refine List.filterMap_eq_nil_iff.2 fun o ho => ?_
  cases o with
  | queued other queued =>
    refine if_neg ?_
    rintro rfl
    exact h queued ho
  | _ => rfl

theorem Occurrence.Refused.ne_queued {o : Occurrence κ} (h : o.Refused form) :
    o ≠ .queued form submission := by
  rintro rfl
  rcases h trivial rfl with ⟨_, -, h⟩ | ⟨_, _, h⟩ <;> cases h

theorem Interlude.refused {during : List (Occurrence κ)} (h : Interlude form s during)
    (hpolicy : s.policy = .reject) : ∀ o ∈ during, o.Refused form :=
  fun o ho => (h o ho).refused hpolicy

namespace Round.Lawful

/-- Whatever is submitted in a round of a store that rejects is refused. -/
theorem refused (h : r.Lawful form s) (hpolicy : s.policy = .reject) :
    ∀ o ∈ r.meanwhile, o.Refused form := by
  have hasked := h.asked.refused hpolicy
  obtain ⟨submission, against, asked, result⟩ := r
  cases result with
  | error e => simpa [meanwhile] using hasked
  | ok l =>
    have hl := h.landing l rfl
    have hswapped : ((s.replay form asked).advance l.state).policy = .reject :=
      h.asked.alike.policy.trans hpolicy
    intro o ho
    simp only [meanwhile, List.mem_append, List.mem_flatMap] at ho
    rcases ho with ho | ⟨call, hcall, ho⟩ | ho
    · exact hasked o ho
    · exact (hl.heard call hcall).refused hswapped o ho
    · exact hl.afterwards.refused hswapped o ho

/-- Nothing is queued in a round of a store that rejects. -/
theorem queuedIn_eq_nil (h : r.Lawful form s) (hpolicy : s.policy = .reject) :
    queuedIn form (r.occurrences form) = [] := by
  have hrefused := h.refused hpolicy
  refine FormTree.queuedIn_eq_nil fun submission hmem => ?_
  -- only host code queues, so it would have been queued meanwhile
  have hmeanwhile : .queued form submission ∈ r.meanwhile := by
    obtain ⟨_, _, asked, result⟩ := r
    cases result with
    | error e => simpa [occurrences, meanwhile] using hmem
    | ok l => simpa [occurrences, meanwhile, Landing.occurrences, heardEntries] using hmem
  exact (hrefused _ hmeanwhile).ne_queued rfl

end Round.Lawful

/-- A batch that is not empty is refused at once while the form is being dispatched, and nothing else
happens. -/
theorem Program.submit_refused (hlive : w.form? form = some live)
    (hbusy : live.store.dispatching = true) (hpolicy : live.store.policy = .reject)
    (hbatch : submission.batch ≠ []) : (submit form submission).run host (fuel + 1) w
      = .ok (.error .reentrantDispatch, w.note (.rejected form submission)) := by
  rw [run_submit, Run.submit, Run.bind_of_ok (Run.store_of hlive), if_neg (by simpa using hbatch),
    if_pos hbusy]
  simp only [hpolicy]
  rw [Run.bind_of_ok (Run.note_ok _)]
  rfl

/-! ## At rest -/

namespace WorkedOff

/-- In a dispatch of a store that rejects everything that is submitted is refused. -/
theorem refused (h : WorkedOff host fuel form w live rounds w' live')
    (hpolicy : live.store.policy = .reject) :
    queuedIn form (roundEntries form rounds) = [] ∧ live'.store.policy = .reject
      ∧ ∀ r ∈ rounds, ∀ o ∈ r.meanwhile, o.Refused form := by
  induction h with
  | nil => exact ⟨rfl, hpolicy, by simp⟩
  | @cons _ _ _ live _ _ r rest waiting _ _ hround _ ih =>
    have hlawful : r.Lawful form (live.lineUp waiting).store := hround.lawful
    have hkept := hlawful.policy.trans hpolicy
    rw [← hround.store] at hkept
    obtain ⟨hqueued, hlast, hrefused⟩ := ih hkept
    refine ⟨?_, hlast, List.forall_mem_cons.2 ⟨hlawful.refused hpolicy, hrefused⟩⟩
    rw [roundEntries_cons, queuedIn_append, hlawful.queuedIn_eq_nil hpolicy, hqueued]
    rfl

/-- If nothing waits, a dispatch of a store that rejects has a single round. -/
theorem single {first : Round κ} {rest : List (Round κ)}
    (h : WorkedOff host fuel form w (live.takeUp submission) (first :: rest) w' live')
    (hpolicy : live.store.policy = .reject) (hnone : live.store.pending = []) :
    first.submission = submission ∧ rest = [] ∧ live'.store.pending = [] := by
  have horder := h.order
  rw [(h.refused hpolicy).1, List.append_nil, List.map_cons, List.cons_append] at horder
  obtain ⟨hfirst, hothers⟩ := List.cons_eq_cons.1 horder
  rw [hnone, List.append_eq_nil_iff, List.map_eq_nil_iff] at hothers
  exact ⟨hfirst, hothers⟩

end WorkedOff

/-- Runs of a form at rest that rejects are isolated, and leave it rejecting with nothing waiting. -/
theorem Unfolds.isolated {permitted : Submission κ → Prop} {stretches : List (Stretch κ)}
    (h : Unfolds host form permitted w live stretches w' live')
    (hpolicy : live.store.policy = .reject) (hnone : live.store.pending = []) :
    Isolated form live.store stretches ∧ live'.store.policy = .reject
      ∧ live'.store.pending = [] := by
  -- the induction is on how the run unfolds, and carries that nothing waits in between
  have hfound : queuedIn form (stretchEntries form stretches) = []
      ∧ (∀ rounds, .dispatch rounds ∈ stretches →
        ∃ r, rounds = [r] ∧ ∀ o ∈ r.meanwhile, o.Refused form)
      ∧ live'.store.policy = .reject ∧ live'.store.pending = [] := by
    induction h with
    | silent _ _ _ _ hstore => exact ⟨rfl, by simp, by rw [hstore, hpolicy], by rw [hstore, hnone]⟩
    | @quiet _ _ _ _ o hquiet _ _ _ _ _ hstore =>
      refine ⟨queuedIn_eq_nil fun submission hmem => ?_, by simp, ?_, ?_⟩
      · obtain rfl : _ = o := by simpa [stretchEntries, Stretch.occurrences] using hmem
        exact hquiet rfl
      · rw [hstore, hquiet.hear.1.policy, hpolicy]
      · rw [hstore, hquiet.hear.2, hnone]
    | @dispatch _ _ _ _ _ _ first _ _ hworked _ _ =>
      obtain ⟨hqueued, hlast, hrefused⟩ := hworked.refused hpolicy
      obtain ⟨-, rfl, hpending⟩ := hworked.single hpolicy hnone
      refine ⟨by simpa [stretchEntries, Stretch.occurrences] using hqueued, ?_, hlast, hpending⟩
      rintro rounds hrounds
      obtain rfl : rounds = [first] := by simpa using hrounds
      exact ⟨first, rfl, hrefused first (by simp)⟩
    | append _ _ ihfirst ihsecond =>
      obtain ⟨hqueued, halone, hpolicy, hnone⟩ := ihfirst hpolicy hnone
      obtain ⟨hqueued', halone', hlast⟩ := ihsecond hpolicy hnone
      refine ⟨?_, fun rounds hrounds => ?_, hlast⟩
      · rw [stretchEntries, List.flatMap_append, queuedIn_append]
        exact List.append_eq_nil_iff.2 ⟨hqueued, hqueued'⟩
      · exact (List.mem_append.1 hrounds).elim (halone rounds) (halone' rounds)
  obtain ⟨hqueued, halone, hlast⟩ := hfound
  refine ⟨⟨halone, fun earlier later hsplit => ?_⟩, hlast⟩
  rw [hsplit, queuedIn_append, List.append_eq_nil_iff] at hqueued
  rw [Store.pending_replay, hnone, hqueued.1]
  rfl

/-- A batch that is submitted to a form at rest that rejects has a dispatch of its own. -/
theorem Program.submit_alone {answer : Except Fault Outcome} (hlive : w.form? form = some live)
    (hrest : live.store.dispatching = false) (hpolicy : live.store.policy = .reject)
    (hnone : live.store.pending = []) (hbatch : submission.batch ≠ [])
    (hrun : (submit form submission).run host fuel w = .ok (answer, w')) :
    ∃ r live', DispatchedAlone host form submission w live r answer w' live' := by
  cases fuel with
  | zero => exact absurd hrun run_zero_ne_ok
  | succ fuel =>
    rw [run_submit] at hrun
    obtain ⟨first, rest, u, ended, hworked, rfl, rfl, -, -⟩ :=
      Run.submit_workedOff hlive hrest hbatch hrun
    obtain ⟨hsubmission, rfl, hpending⟩ := hworked.single hpolicy hnone
    obtain ⟨-, hlast, hrefused⟩ := hworked.refused hpolicy
    have hwrote := hworked.wrote
    cases hworked with
    | cons _ hnext hround hnil =>
      cases hnil
      obtain ⟨-, rfl⟩ := List.cons_eq_cons.1 hnext
      rw [World.setForm_setForm] at hround
      have hround : Round.Ran host fuel form (w.setForm form (live.mark true)) (live.mark true)
        first u ended := hround
      have hsnapshot : ended.store.snapshot = live.store.snapshot.after first := hround.snapshot
      have hconsistent : first.Consistent host form live.store.snapshot :=
        hround.consistent (World.form?_setForm_self hlive _) rfl
      obtain ⟨v, hcomputed⟩ := hround.computed
      refine ⟨first, ended.mark false, {
        ran := ⟨fuel, u, ended, hround, rfl, rfl⟩
        own := hsubmission
        wrote := by simpa [World.Wrote, roundEntries] using hwrote
        consistent := hconsistent
        refused := hrefused first (by simp)
        answered := rfl
        accepted := fun hanswer => ?_
        applied := fun l hl => ?_
        failed := fun e he => ?_
        found := World.form?_setForm_self hround.found _
        policy := hlast
        pending := hpending
        atRest := rfl }⟩
      · cases hresult : first.result with
        | ok l =>
          rw [hresult] at hanswer
          cases hanswer
        | error e =>
          -- a reduction fails with faults of its own
          rw [hresult] at hanswer hcomputed
          obtain rfl : e = .reentrantDispatch := Except.error.inj hanswer
          exact Run.compute_error hcomputed
      · have hversion : l.version = live.store.version + 1 := hconsistent.version l hl
        change ended.store.snapshot = _
        rw [hsnapshot, Snapshot.after, hl, ← hversion]
      · change ended.store.snapshot = _
        rw [hsnapshot, Snapshot.after, he]

/-- Whatever program runs while a form that rejects has nothing waiting, it leaves the form that way.
If the form is being dispatched, nothing is made of what the program submits, and the next batch is
refused as well.  If the form is at rest, every batch that is submitted has a dispatch of its own, in
which all others are refused, and so has the next. -/
theorem reject_isolates {p : Program σ κ α} {a : α} (hlive : w.form? form = some live)
    (hpolicy : live.store.policy = .reject) (hnone : live.store.pending = [])
    (hrun : p.run host fuel w = .ok (a, w')) :
    ∃ live', w'.form? form = some live' ∧ live'.store.policy = .reject ∧ live'.store.pending = []
      ∧ live'.store.dispatching = live.store.dispatching
      ∧ (live.store.dispatching = true → live'.store.snapshot = live.store.snapshot
        ∧ (∃ during, w.Wrote during w' ∧ ∀ o ∈ during, o.Refused form)
        ∧ ∀ submission, submission.batch ≠ [] → ∀ fuel,
          (Program.submit form submission).run host (fuel + 1) w'
            = .ok (.error .reentrantDispatch, w'.note (.rejected form submission)))
      ∧ (live.store.dispatching = false →
        (∃ stretches, Course host form w live stretches w' live'
          ∧ Consistent host form live.store.snapshot stretches
          ∧ Isolated form live.store stretches)
        ∧ ∀ submission, submission.batch ≠ [] → ∀ fuel answer u,
          (Program.submit form submission).run host fuel w' = .ok (answer, u) →
          ∃ r last, DispatchedAlone host form submission w' live' r answer u last) := by
  cases hdispatching : live.store.dispatching with
  | true =>
    -- amid a dispatch the program is an interlude, and at rest it unfolds into dispatches
    obtain ⟨during, live', hpasses⟩ := Program.run_passes host fuel p hrun live hlive hdispatching
    have halike := hpasses.alike
    have hrefused := hpasses.interlude.refused hpolicy
    have hqueued : queuedIn form during = [] :=
      queuedIn_eq_nil fun _ hmem => (hrefused _ hmem).ne_queued rfl
    have hpending : live'.store.pending = [] := by
      rw [hpasses.store, Store.pending_replay, hnone, hqueued]
      rfl
    have hsnapshot : live'.store.snapshot = live.store.snapshot := by
      rw [Store.snapshot, halike.state, halike.version]
      rfl
    have hkept := halike.policy.trans hpolicy
    have hbusy := halike.dispatching.trans hdispatching
    exact ⟨live', hpasses.found, hkept, hpending, hbusy,
      fun _ => ⟨hsnapshot, ⟨during, hpasses.wrote, hrefused⟩, fun submission hbatch fuel =>
        Program.submit_refused hpasses.found hbusy hkept hbatch⟩,
      fun hrest => absurd hrest (by simp)⟩
  | false =>
    obtain ⟨stretches, live', h⟩ := Program.run_unfolds host fuel p hrun live hlive hdispatching
    obtain ⟨hisolated, hkept, hpending⟩ := h.isolated hpolicy hnone
    have hcourse := h.course
    exact ⟨live', hcourse.found, hkept, hpending, hcourse.atRest,
      fun hbusy => absurd hbusy (by simp),
      fun _ => ⟨⟨stretches, hcourse, h.consistent, hisolated⟩, fun submission hbatch fuel answer u =>
        Program.submit_alone hcourse.found hcourse.atRest hkept hpending hbatch⟩⟩

/-! ## Host code that submits whenever it runs -/

namespace Refusal

open Onlookers (outer)

/-- Set the second field. -/
def nested : Submission Nat :=
  ⟨[.editField [1, 1] (.fixed (.bool true))], some (.host 0), by simp [After.Suits]⟩

/-- Compute the first field, and then take out what is not there. -/
def failing : Submission Nat := ⟨[.editField [0, 1] (.computed 0), .removeField [8]], none, by simp⟩

/-- Submit a batch, and remember whether it was refused. -/
def attempt : Program (List Bool) Nat Unit := do
  match ← Program.submit 0 nested with
  | .error .reentrantDispatch => Program.change (· ++ [true])
  | _ => Program.change (· ++ [false])

/-- Everybody submits a batch. -/
def callbacks : Host (List Bool) Nat where
  update _ _ := do
    attempt
    return .bool true
  errors _ _ := do
    attempt
    return []
  listen _ _ _ := attempt
  handle _ _ _ := pure ()
  follow _ _ _ := attempt

/-- A listener is registered; then a batch succeeds and one fails. -/
def program : Program (List Bool) Nat (Except Fault Outcome × Except Fault Outcome) := do
  let _ ← Program.subscribe 0 0
  let first ← Program.submit 0 outer
  let second ← Program.submit 0 failing
  return (first, second)

/-- A form of two fields, which rejects. -/
def setUp : LiveForm Nat := .bare (.list [
  .list [.string "field", .list [.string "a", .string "text"]],
  .list [.string "field", .list [.string "b", .string "text"]]]) .reject

/-- The form alone. -/
def start : World (List Bool) Nat := .start #[setUp] []

/-- Whether the first batch is applied and the second fails, the update, the validator, the listener,
the follow-up and the second update are refused, and the version is that of a single batch. -/
def refuses : Bool :=
  match program.run callbacks 5 start with
  | .ok ((.ok .applied, .error (.pathNotFound path)), w) => decide (path = [8]
    ∧ w.memory = [true, true, true, true, true] ∧ (w.form? 0).map (·.store.version) = some 1)
  | _ => false

end Refusal

open Refusal in
theorem reject_isolates_nested : ∃ w' live' stretches,
    program.run callbacks 5 start = .ok ((.ok .applied, .error (.pathNotFound [8])), w')
      ∧ w'.memory = [true, true, true, true, true]
      ∧ w'.form? 0 = some live' ∧ live'.store.version = 1 ∧ live'.store.pending = []
      ∧ live'.store.dispatching = false
      ∧ Course callbacks 0 start setUp stretches w' live'
      ∧ Isolated 0 setUp.store stretches := by
  have hcheck : refuses = true := by decide +kernel
  unfold refuses at hcheck
  split at hcheck
  · next path w' hrun =>
    obtain ⟨rfl, hmemory, hversion⟩ := of_decide_eq_true hcheck
    obtain ⟨live', hfound, -, hpending, hatRest, -, hrests⟩ :=
      reject_isolates (show start.form? 0 = some setUp from rfl) rfl rfl hrun
    obtain ⟨⟨stretches, hcourse, -, hisolated⟩, -⟩ := hrests rfl
    rw [hfound] at hversion
    exact ⟨w', live', stretches, hrun, hmemory, hfound, Option.some.inj hversion, hpending, hatRest,
      hcourse, hisolated⟩
  · cases hcheck

end FormTree
