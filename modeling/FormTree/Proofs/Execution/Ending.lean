import FormTree.Proofs.Execution.Dispatch
import FormTree.Proofs.Execution.Returning

/-!
# Dispatches come to an end

Host code can queue further batches in every round, so a dispatch need not end.  It does if the host
code of its rounds returns and queues finitely many batches: each round takes a batch away, so there
are no more rounds than batches that waited or were queued.

`WorkedOff.Bounded` is this condition on the host code of one dispatch.  That the host code returns
follows if every callback does (`WorkedOff.Bounded.of_host`).  The condition is no more than is
needed: `bounded_of_submit` finds it for every dispatch that ended.
-/

namespace FormTree

variable {σ κ α : Type} {host : Host σ κ} {fuel : Nat} {form : FormId} {w v w' : World σ κ}
  {live live' ended : LiveForm κ} {rounds : List (Round κ)} {submission : Submission κ}

section Condition

variable (host : Host σ κ) (fuel : Nat) (form : FormId)

/-- However far the batches are worked off, the host code of the next round returns, and at most the
given number of batches has been queued. -/
structure WorkedOff.Bounded (w : World σ κ) (live : LiveForm κ) (limit : Nat) : Prop where
  returns : ∀ {rounds u ended submission waiting}, WorkedOff host fuel form w live rounds u ended →
    ended.store.pending = submission :: waiting →
    ∃ answer v, Run.apply host (Program.run host fuel) form submission
      (u.setForm form (ended.lineUp waiting)) = .ok (answer, v)
  queued : ∀ {rounds u ended}, WorkedOff host fuel form w live rounds u ended →
    (queuedIn form (roundEntries form rounds)).length ≤ limit

end Condition

/-! ## Hosts whose callbacks return -/

/-- Rounds leave the connections of a form placed. -/
theorem WorkedOff.placed (h : WorkedOff host fuel form w live rounds w' live')
    (hplaced : live.channels.Placed) : live'.channels.Placed := by
  induction h with
  | nil => exact hplaced
  | cons hlive _ hround _ ih =>
    obtain ⟨found, hfound, hsame⟩ := Run.apply_placing (fun p => Program.run_placed host _ p) _
      hround.applies ⟨_, World.form?_setForm_self hlive _, hplaced⟩
    obtain rfl := Option.some.inj (hround.found.symm.trans hfound)
    exact ih hsame

/-- If every callback returns, host code is bounded by the number of batches that are queued. -/
theorem WorkedOff.Bounded.of_host {limit : Nat} (hhost : host.Returns fuel form)
    (hbusy : live.store.dispatching = true) (hplaced : live.channels.Placed)
    (hqueued : ∀ {rounds u ended}, WorkedOff host (fuel + 2) form w live rounds u ended →
      (queuedIn form (roundEntries form rounds)).length ≤ limit) :
    Bounded host (fuel + 2) form w live limit where
  returns := by
    intro rounds u ended next waiting hworked _
    obtain ⟨answer, v, happly, -⟩ := hhost.apply next _
      ⟨_, World.form?_setForm_self hworked.found (ended.lineUp waiting), hworked.placed hplaced,
        hworked.dispatching.trans hbusy⟩
    exact ⟨answer, v, happly⟩
  queued := hqueued

/-! ## Enough fuel -/

namespace WorkedOff.Bounded

variable {limit enough : Nat}

/-- There are no more rounds than batches that waited or were queued. -/
theorem count (h : Bounded host fuel form w live limit)
    (hworked : WorkedOff host fuel form w live rounds v ended) :
    rounds.length + ended.store.pending.length ≤ live.store.pending.length + limit := by
  have horder := congrArg List.length hworked.order
  have hqueued := h.queued hworked
  simp only [List.length_append, List.length_map] at horder
  omega

/-- What waits can be worked off with as much fuel as there are batches left to come. -/
theorem drain_ends (h : Bounded host fuel form w live limit)
    (hbusy : live.store.dispatching = true)
    (hworked : WorkedOff host fuel form w live rounds v ended)
    (henough : live.store.pending.length + limit ≤ rounds.length + enough) :
    ∃ u, Run.drain host (Program.run host fuel) form enough v = .ok ((), u) := by
  -- over the fuel that is left: every round takes one batch away and spends one unit
  induction enough generalizing rounds v ended with
  | zero =>
    have hnone : ended.store.pending = [] := by
      have hcount := h.count hworked
      exact List.eq_nil_of_length_eq_zero (by omega)
    unfold Run.drain
    rw [Run.bind_of_ok (Run.store_of hworked.found), hnone]
    exact ⟨v, rfl⟩
  | succ enough ih =>
    unfold Run.drain
    rw [Run.bind_of_ok (Run.store_of hworked.found)]
    cases hpending : ended.store.pending with
    | nil => exact ⟨v, rfl⟩
    | cons next waiting =>
      obtain ⟨answer, u, happly⟩ := h.returns hworked hpending
      have hpopped := World.form?_setForm_self hworked.found (ended.lineUp waiting)
      obtain ⟨r, between, rfl, hround, -⟩ :=
        Run.apply_ran hpopped (hworked.dispatching.trans hbusy) happly
      obtain ⟨u', hdrain⟩ := ih (hworked.snoc hpending hround) (by simp; omega)
      refine ⟨u', ?_⟩
      simp only
      rw [Run.bind_of_ok (Run.changeStore_of hworked.found _)]
      exact (Run.bind_of_ok happly).trans hdrain

/-- A batch that is submitted to a form at rest comes back, if host code is bounded. -/
theorem submit_ends (hlive : w.form? form = some live) (hrest : live.store.dispatching = false)
    (hbatch : submission.batch ≠ [])
    (h : Bounded host fuel form (w.setForm form (live.takeUp submission)) (live.takeUp submission)
      limit) :
    ∃ answer w', Run.submit host (Program.run host fuel) (live.store.pending.length + limit) form
      submission w = .ok (answer, w') := by
  have htaken := World.form?_setForm_self hlive (live.takeUp submission)
  have hpopped := World.form?_setForm_self hlive ((live.takeUp submission).lineUp live.store.pending)
  -- the first batch is not drained, but it counts as if it had been taken from the front
  obtain ⟨answer, v, happly⟩ := h.returns (.nil htaken) rfl
  rw [World.setForm_setForm] at happly
  obtain ⟨r, between, rfl, hround, rfl⟩ := Run.apply_ran hpopped rfl happly
  unfold Run.submit
  rw [Run.bind_of_ok (Run.store_of hlive), if_neg (by simpa using hbatch), if_neg (by simp [hrest]),
    Run.setDispatching, Run.bind_of_ok (Run.changeStore_of hlive _)]
  cases hresult : r.result with
  | error e =>
    rw [hresult] at happly
    refine ⟨.error e, v.setForm form (between.mark false), (Run.bind_of_ok happly).trans ?_⟩
    exact Run.bind_of_ok (Run.changeStore_of hround.found _)
  | ok l =>
    rw [hresult] at happly
    have hfirst : WorkedOff host fuel form (w.setForm form (live.takeUp r.submission))
        (live.takeUp r.submission) [r] v between := by
      refine .cons htaken rfl ?_ (.nil hround.found)
      rw [World.setForm_setForm]
      exact hround
    have hcount : (live.takeUp r.submission).store.pending.length + limit
        = [r].length + (live.store.pending.length + limit) := by
      simp only [LiveForm.takeUp, LiveForm.lineUp, List.length_cons, List.length_nil]
      omega
    obtain ⟨u, hdrain⟩ := h.drain_ends rfl hfirst (Nat.le_of_eq hcount)
    obtain ⟨_, ended, hended, -⟩ := Run.drain_workedOff hround.found hround.dispatching hdrain
    refine ⟨.ok .applied, u.setForm form (ended.mark false), (Run.bind_of_ok happly).trans ?_⟩
    exact (Run.bind_of_ok hdrain).trans (Run.bind_of_ok (Run.changeStore_of hended.found _))

end WorkedOff.Bounded

/-! ## Dispatches that ended -/

/-- A round of a batch leads to one world only. -/
theorem Round.Ran.unique {r r' : Round κ} {between between' : LiveForm κ}
    (h : Round.Ran host fuel form w live r v between)
    (h' : Round.Ran host fuel form w live r' v' between') (hsame : r.submission = r'.submission) :
    v = v' ∧ between = between' := by
  have happlies := h.applies
  rw [hsame, h'.applies] at happlies
  obtain ⟨-, rfl⟩ := Prod.mk.inj (Except.ok.inj happlies)
  exact ⟨rfl, Option.some.inj (h.found.symm.trans h'.found)⟩

namespace WorkedOff

variable {part : List (Round κ)} {between : LiveForm κ}

/-- A dispatch that has come to its end went on wherever a part of it stops. -/
theorem rest (h : WorkedOff host fuel form w live rounds w' ended)
    (hnone : ended.store.pending = []) (hpart : WorkedOff host fuel form w live part v between) :
    ∃ later, WorkedOff host fuel form v between later w' ended := by
  induction hpart generalizing rounds with
  | nil => exact ⟨rounds, h⟩
  | cons _ hnext hround _ ih =>
    cases h with
    | nil =>
      rw [hnone] at hnext
      cases hnext
    | cons _ hfirst hran hrest =>
      obtain ⟨hsame, rfl⟩ := List.cons_eq_cons.1 (hfirst.symm.trans hnext)
      obtain ⟨rfl, rfl⟩ := hran.unique hround hsame
      exact ih hrest

/-- The host code of a dispatch that has come to its end is bounded by what was queued. -/
theorem bounded (h : WorkedOff host fuel form w live rounds w' ended)
    (hnone : ended.store.pending = []) :
    Bounded host fuel form w live (queuedIn form (roundEntries form rounds)).length where
  returns hpart hnext := by
    obtain ⟨later, hlater⟩ := h.rest hnone hpart
    cases hlater with
    | nil =>
      rw [hnone] at hnext
      cases hnext
    | cons _ hfirst hround _ =>
      obtain ⟨rfl, rfl⟩ := List.cons_eq_cons.1 (hfirst.symm.trans hnext)
      exact ⟨_, _, hround.applies⟩
  queued hpart := by
    obtain ⟨later, hlater⟩ := h.rest hnone hpart
    rw [h.wrote.unique (hpart.wrote.append hlater.wrote), queuedIn_append, List.length_append]
    exact Nat.le_add_right ..

end WorkedOff

/-- Whenever a batch that is submitted to a form at rest comes back applied, host code was bounded. -/
theorem bounded_of_submit (hlive : w.form? form = some live)
    (hrest : live.store.dispatching = false) (hbatch : submission.batch ≠ [])
    (hrun : (Program.submit form submission).run host (fuel + 1) w = .ok (.ok .applied, w')) :
    ∃ limit, WorkedOff.Bounded host fuel form (w.setForm form (live.takeUp submission))
      (live.takeUp submission) limit := by
  rw [Program.run_submit] at hrun
  obtain ⟨first, rest, u, ended, hworked, -, hanswer, hnone, -⟩ :=
    Run.submit_workedOff hlive hrest hbatch hrun
  have hlanded : first.landed = true := by
    rw [Round.landed]
    cases hresult : first.result with
    | error e =>
      rw [hresult] at hanswer
      cases hanswer
    | ok l => rfl
  exact ⟨_, hworked.bounded (hnone hlanded)⟩

/-- A batch is submitted to a form at rest and can be reduced, and the host code of the dispatch
returns and queues finitely many batches.  Then the dispatch comes to its end with any fuel from some
amount on, and it has worked off, in the order of submission and whatever host code did meanwhile,
the batch, what waited before, and what was queued until the end. -/
theorem dispatch_in_order {limit : Nat} (hlive : w.form? form = some live)
    (hpolicy : live.store.policy = .queue) (hrest : live.store.dispatching = false)
    (hbatch : submission.batch ≠ [])
    (hbounded : WorkedOff.Bounded host fuel form (w.setForm form (live.takeUp submission))
      (live.takeUp submission) limit)
    (hreduces : ∃ next v, Run.compute host (Program.run host fuel) form submission.batch
      (w.setForm form (live.mark true)) = .ok (.ok next, v)) :
    ∃ rounds w' live' enough,
      (∀ more ≥ enough, (Program.submit form submission).run host more w = .ok (.ok .applied, w'))
        ∧ Dispatch host fuel form submission w live rounds w' live'
        ∧ ∃ first rest, rounds = first :: rest ∧ first.landed = true := by
  obtain ⟨answer, w', hrun⟩ := hbounded.submit_ends hlive hrest hbatch
  obtain ⟨rounds, live', rfl, hdispatch, hfirst⟩ :=
    Dispatch.of_submit hlive hpolicy hrest hbatch hreduces hrun
  refine ⟨rounds, w', live', max fuel (live.store.pending.length + limit) + 1, fun more hmore => ?_,
    hdispatch, hfirst⟩
  obtain ⟨more, rfl⟩ := Nat.exists_eq_add_of_le' (Nat.zero_lt_of_lt hmore)
  have hmax := Nat.le_of_succ_le_succ hmore
  have hagrees := Run.submit_agrees
    (fun p => Program.run_agrees host (Nat.le_trans (Nat.le_max_left ..) hmax) p)
    (Nat.le_trans (Nat.le_max_right ..) hmax) submission w (by rw [hrun]; nofun)
  rw [Program.run_submit, hagrees, hrun]

/-! ## A dispatch with further batches -/

namespace Reentrant

/-- A batch that sets the value of a definition. -/
def setting (path : Path) (value : Data) (after : Option Nat) : Submission Nat where
  batch := [.editField path (.fixed value)]
  after := after.map .host
  suits := by rintro _ h; obtain ⟨_, _, rfl⟩ := Option.map_eq_some_iff.1 h; trivial

/-- The values of the three definitions in a state. -/
def values (state : Data) : List (Option Bool) :=
  [[0, 2], [1, 2], [2, 2]].map fun path => (state.node? path).bind Data.toBool?

/-- Every callback notes the state that it is passed.  When it is called for the first time, one
listener queues a batch that fails and one that copies the first value of the state, and subscribes a
further listener; what comes after a batch takes that one listener away. -/
def callbacks : Host (List (Nat × List (Option Bool))) Nat where
  update _ previous := pure previous
  errors _ _ := pure []
  listen name form state := do
    let calls ← Program.memory
    Program.setMemory (calls ++ [(name, values state)])
    if name = 0 then
      let _ ← Program.submit form (setting [7] .null none)
      let _ ← Program.submit form (setting [2] ((state.node? [0, 2]).getD .null) none)
      let _ ← Program.subscribe form 2
  handle _ _ _ := pure ()
  follow name form state := do
    let calls ← Program.memory
    Program.setMemory (calls ++ [(name, values state)])
    let _ ← Program.unsubscribe form 0

/-- No callback emits an event or submits an empty batch. -/
theorem callbacks_returns (fuel : Nat) (form : FormId) : callbacks.Returns (fuel + 1) form where
  update _ _ := .of_brief (Program.uses_pure _)
  errors _ _ := .of_brief (Program.uses_pure _)
  listen name state := .of_brief <| by
    refine .bind Program.memory_brief fun calls => .bind (Program.setMemory_brief _) fun _ => ?_
    split
    · exact .bind (Program.submit_brief (List.cons_ne_nil _ _)) fun _ =>
        .bind (Program.submit_brief (List.cons_ne_nil _ _)) fun _ =>
          .bind (Program.subscribe_brief 2) fun _ => Program.uses_pure _
    · exact Program.uses_pure _
  handle _ _ := .of_brief (Program.uses_pure _)
  follow name state := .of_brief <|
    .bind Program.memory_brief fun calls => .bind (Program.setMemory_brief _) fun _ =>
      .bind (Program.unsubscribe_brief 0) fun _ => Program.uses_pure _

/-- A form of three definitions with two listeners and a batch that waits. -/
def setUp : LiveForm Nat where
  store := { (Store.create (.list [.list [], .list [], .list []]) .queue false : Store Nat) with
    listeners := [(0, 0), (1, 1)], nextListener := 2, pending := [setting [1] (.bool false) none] }
  channels := .unwired
  profile := {}

/-- The form alone. -/
def start : World (List (Nat × List (Option Bool))) Nat := .start #[setUp] []

/-- The batch that starts the dispatch. -/
def first : Submission Nat := setting [0] (.bool true) (some 9)

/-- Who is called in the dispatch, and with which values. -/
def called : List (Nat × List (Option Bool)) :=
  [(0, [some true, none, none]), (1, [some true, none, none]), (9, [some true, none, none]),
   (1, [some true, some false, none]), (2, [some true, some false, none]),
   (1, [some true, some false, some true]), (2, [some true, some false, some true])]

end Reentrant

open Reentrant in
theorem dispatch_in_order_reentrant : ∃ limit rounds w' live',
    WorkedOff.Bounded callbacks 4 0 (start.setForm 0 (setUp.takeUp first)) (setUp.takeUp first) limit
      ∧ (Program.submit 0 first).run callbacks 5 start = .ok (.ok .applied, w')
      ∧ Dispatch callbacks 4 0 first start setUp rounds w' live'
      ∧ (rounds.map Round.submission).map (fun s => s.batch.filterMap Action.path?)
        = [[[0]], [[1]], [[7]], [[2]]]
      ∧ w'.memory = called
      ∧ live'.store.version = 3 := by
  have hcheck : ((Program.submit 0 first).run callbacks 5 start).toOption.any
      (fun result => result.1.toOption = some .applied
        ∧ ((result.2.form? 0).map fun found => found.store.version) = some 3
        ∧ (queuedIn 0 result.2.journal.reverse).map (fun s => s.batch.filterMap Action.path?)
          = [[[7]], [[2]]]
        ∧ result.2.memory = called) = true := by decide +kernel
  have hreduces : (Run.compute callbacks (Program.run callbacks 4) 0 first.batch
      (start.setForm 0 (setUp.mark true))).toOption.any (fun result => result.1.toOption.isSome)
        = true := by decide +kernel
  obtain ⟨⟨answer, w'⟩, hrun, hcheck⟩ := (Option.any_eq_true ..).1 hcheck
  obtain ⟨hanswer, hversion, hqueued, hmemory⟩ := of_decide_eq_true hcheck
  obtain rfl : answer = .ok .applied := toOption_eq_some.1 hanswer
  obtain ⟨⟨computed, v⟩, hcompute, hcomputed⟩ := (Option.any_eq_true ..).1 hreduces
  obtain ⟨next, hnext⟩ := Option.isSome_iff_exists.1 hcomputed
  obtain rfl : computed = .ok next := toOption_eq_some.1 hnext
  rw [toOption_eq_some] at hrun hcompute
  have hlive : start.form? 0 = some setUp := rfl
  have hbatch : first.batch ≠ [] := List.cons_ne_nil _ _
  obtain ⟨limit, hneeded⟩ := bounded_of_submit hlive rfl hbatch hrun
  have hbounded : WorkedOff.Bounded callbacks 4 0 (start.setForm 0 (setUp.takeUp first))
      (setUp.takeUp first) limit :=
    .of_host (callbacks_returns 1 0) rfl Channels.placed_unwired hneeded.queued
  obtain ⟨rounds, _, live', enough, hends, hdispatch, -⟩ :=
    dispatch_in_order hlive rfl rfl hbatch hbounded ⟨next, v, hcompute⟩
  obtain ⟨-, rfl⟩ := Program.run_unique hrun (hends enough (Nat.le_refl _))
  refine ⟨limit, rounds, w', live', hbounded, hrun, hdispatch, ?_, hmemory, ?_⟩
  · rw [hdispatch.order, ← hdispatch.wrote.journal_of_start, List.map_append, hqueued]
    rfl
  · simpa [hdispatch.found] using hversion

end FormTree
