import Mathlib.Tactic.Tauto
import FormTree.Proofs.Execution.Unfolding

/-!
# What waits when a form is at rest

A dispatch whose first batch succeeds works off everything: each batch that waited, or was queued
before the dispatch came to its end, gets its round in it.  A dispatch whose first batch fails ends
there, and leaves behind what host code queued while it was asked for updates and errors.

`Stretch.leaves` says what a stretch leaves waiting.  `waiting_after_run` follows it through whole
runs, and tells when a form at rest has nothing waiting: exactly when every dispatch that failed after
something was queued in it was followed by a dispatch that succeeded.
-/

namespace FormTree

variable {σ κ α : Type}

/-! ## What stretches leave behind -/

/-- What waits after a stretch, if the given batches waited before. -/
def Stretch.leaves (form : FormId) (waiting : List (Submission κ)) :
    Stretch κ → List (Submission κ)
  | .quiet _ => waiting
  | .dispatch rounds =>
    if rounds.head?.any Round.landed then [] else waiting ++ queuedIn form (roundEntries form rounds)

/-- What waits after stretches, if the given batches waited before. -/
def leftBehind (form : FormId) (waiting : List (Submission κ)) (stretches : List (Stretch κ)) :
    List (Submission κ) :=
  stretches.foldl (Stretch.leaves form) waiting

/-- The rounds of a dispatch that the given batches waited for: it has a round for its first batch;
if that succeeded, it has one for each batch that waited or was queued meanwhile, in this order, and
if that failed, it has no other. -/
def Stretch.Clears (form : FormId) (waiting : List (Submission κ)) : Stretch κ → Prop
  | .quiet _ => True
  | .dispatch rounds => ∃ first rest, rounds = first :: rest
      ∧ (first.landed = true → rounds.map Round.submission
        = first.submission :: waiting ++ queuedIn form (roundEntries form rounds))
      ∧ (first.landed = false → rest = [])

/-- Every dispatch has its rounds, given what the stretches before it left behind. -/
def Clearances (form : FormId) : List (Submission κ) → List (Stretch κ) → Prop
  | _, [] => True
  | waiting, stretch :: rest =>
    stretch.Clears form waiting ∧ Clearances form (stretch.leaves form waiting) rest

/-- The dispatch failed after something had been queued in it. -/
def Stretch.Stalled (form : FormId) : Stretch κ → Prop
  | .quiet _ => False
  | .dispatch rounds =>
    rounds.head?.any Round.landed = false ∧ queuedIn form (roundEntries form rounds) ≠ []

/-- The dispatch succeeded. -/
def Stretch.Succeeded : Stretch κ → Prop
  | .quiet _ => False
  | .dispatch rounds => rounds.head?.any Round.landed = true

section Backlog

variable {form : FormId} {waiting : List (Submission κ)} {first second stretches : List (Stretch κ)}

theorem Clearances.append : Clearances form waiting (first ++ second)
    ↔ Clearances form waiting first ∧ Clearances form (leftBehind form waiting first) second := by
  induction first generalizing waiting with
  | nil => simp [Clearances, leftBehind]
  | cons stretch rest ih => simp only [List.cons_append, Clearances, ih, leftBehind,
      List.foldl_cons, and_assoc]

theorem Stretch.leaves_of_succeeded {stretch : Stretch κ} (h : stretch.Succeeded) :
    stretch.leaves form waiting = [] := by
  cases stretch with
  | quiet _ => exact h.elim
  | dispatch rounds => exact if_pos h

/-- Only what succeeds empties what waits, and only what stalls adds to it. -/
theorem Stretch.leaves_eq_nil {stretch : Stretch κ} (h : ¬ stretch.Succeeded) :
    stretch.leaves form waiting = [] ↔ waiting = [] ∧ ¬ stretch.Stalled form := by
  cases stretch with
  | quiet _ => simp [leaves, Stalled]
  | dispatch rounds =>
    have hfailed : rounds.head?.any Round.landed = false := by simpa [Succeeded] using h
    simp [leaves, Stalled, hfailed]

/-- Nothing is left behind exactly if something succeeded since anything waited, and since every
dispatch that stalled. -/
theorem leftBehind_eq_nil : leftBehind form waiting stretches = []
    ↔ (waiting = [] ∨ ∃ stretch ∈ stretches, stretch.Succeeded)
      ∧ ∀ earlier stretch later, stretches = earlier ++ stretch :: later → stretch.Stalled form →
        ∃ other ∈ later, other.Succeeded := by
  induction stretches generalizing waiting with
  | nil => simp [leftBehind]
  | cons stretch rest ih =>
    have hstep : leftBehind form waiting (stretch :: rest)
        = leftBehind form (stretch.leaves form waiting) rest := rfl
    -- a dispatch that stalls is the first stretch or one of the others
    have hsplit : (∀ earlier other later, stretch :: rest = earlier ++ other :: later →
          other.Stalled form → ∃ next ∈ later, next.Succeeded)
        ↔ (stretch.Stalled form → ∃ next ∈ rest, next.Succeeded)
          ∧ ∀ earlier other later, rest = earlier ++ other :: later → other.Stalled form →
            ∃ next ∈ later, next.Succeeded := by
      constructor
      · exact fun h => ⟨h [] stretch rest rfl, fun earlier other later hrest =>
          h (stretch :: earlier) other later (congrArg (stretch :: ·) hrest)⟩
      · rintro ⟨hfirst, hothers⟩ earlier other later heq hstalled
        cases earlier with
        | nil =>
          obtain ⟨rfl, rfl⟩ := List.cons_eq_cons.1 heq
          exact hfirst hstalled
        | cons _ earlier =>
          obtain ⟨-, hrest⟩ := List.cons_eq_cons.1 heq
          exact hothers earlier other later hrest hstalled
    rw [hstep, ih, hsplit]
    by_cases hsucceeded : stretch.Succeeded
    · have hnot : ¬ stretch.Stalled form := by
        cases stretch with
        | quiet _ => exact id
        | dispatch rounds => rintro ⟨hfailed, -⟩; simp [Stretch.Succeeded, hfailed] at hsucceeded
      simp [Stretch.leaves_of_succeeded hsucceeded, hsucceeded, hnot]
    · rw [Stretch.leaves_eq_nil hsucceeded]
      simp only [List.mem_cons, exists_eq_or_imp, hsucceeded, false_or]
      tauto

end Backlog

/-! ## Runs and what they leave waiting -/

/-- A run went through stretches, and what waits in the end is what they left behind. -/
structure Settled (host : Host σ κ) (form : FormId) (w : World σ κ) (live : LiveForm κ)
    (stretches : List (Stretch κ)) (w' : World σ κ) (live' : LiveForm κ) : Prop where
  course : Course host form w live stretches w' live'
  pending : live'.store.pending = leftBehind form live.store.pending stretches
  clearances : Clearances form live.store.pending stretches

namespace Settled

variable {host : Host σ κ} {form : FormId} {w v w' : World σ κ}
  {live between live' : LiveForm κ} {first second stretches : List (Stretch κ)}

theorem append (h₁ : Settled host form w live first v between)
    (h₂ : Settled host form v between second w' live') :
    Settled host form w live (first ++ second) w' live' where
  course := h₁.course.append h₂.course
  pending := by rw [h₂.pending, h₁.pending, leftBehind, leftBehind, leftBehind, List.foldl_append]
  clearances := Clearances.append.2 ⟨h₁.clearances, h₁.pending ▸ h₂.clearances⟩

/-- A dispatch leaves nothing waiting if its first batch succeeded, and otherwise what waited and what
was queued in it. -/
theorem of_workedOff {fuel : Nat} {submission : Submission κ} {r : Round κ}
    {rest : List (Round κ)} {u : World σ κ} {ended : LiveForm κ}
    (hworked : WorkedOff host fuel form (w.setForm form (live.takeUp submission))
      (live.takeUp submission) (r :: rest) u ended)
    (hnone : r.landed = true → ended.store.pending = []) (hlone : r.landed = false → rest = []) :
    Settled host form w live [.dispatch (r :: rest)] (u.setForm form (ended.mark false))
      (ended.mark false) := by
  have horder : (r :: rest).map Round.submission ++ ended.store.pending
      = submission :: live.store.pending ++ queuedIn form (roundEntries form (r :: rest)) :=
    hworked.order
  have hfirst : r.submission = submission := (List.cons_eq_cons.1 horder).1
  refine ⟨.of_workedOff hworked, ?_, ⟨r, rest, rfl, fun hlanded => ?_, hlone⟩, trivial⟩
  · change ended.store.pending = Stretch.leaves form live.store.pending (.dispatch (r :: rest))
    cases hlanded : r.landed with
    | true => rw [hnone hlanded]; simp [Stretch.leaves, hlanded]
    | false =>
      obtain rfl := hlone hlanded
      have hleft := (List.cons_eq_cons.1 horder).2
      simpa [Stretch.leaves, hlanded] using hleft
  · rw [hnone hlanded, List.append_nil] at horder
    rw [horder, hfirst]

/-- Whatever a run unfolds to settles what waits. -/
theorem of_unfolds {permitted : Submission κ → Prop}
    (h : Unfolds host form permitted w live stretches w' live') :
    Settled host form w live stretches w' live' := by
  induction h with
  | silent hrest hwrote hfound hprofile hstore =>
    exact ⟨.silent hrest hwrote hfound hprofile hstore, congrArg Store.pending hstore, trivial⟩
  | quiet hquiet _ hrest hwrote hfound hprofile hstore =>
    refine ⟨.of_one hquiet hrest hwrote hfound hprofile (hstore ▸ hquiet.hear.1), ?_, trivial,
      trivial⟩
    rw [hstore, hquiet.hear.2]
    rfl
  | dispatch _ hworked hnone hlone => exact .of_workedOff hworked hnone hlone
  | append _ _ ihfirst ihsecond => exact ihfirst.append ihsecond

end Settled

/-- Every run that finds a form at rest goes through stretches of it, and leaves waiting what they
leave behind. -/
theorem Program.run_settled {form : FormId} (host : Host σ κ) (fuel : Nat) (p : Program σ κ α)
    {a : α} {w w' : World σ κ} (hrun : p.run host fuel w = .ok (a, w')) (live : LiveForm κ)
    (hlive : w.form? form = some live) (hrest : live.store.dispatching = false) :
    ∃ stretches live', Settled host form w live stretches w' live' := by
  obtain ⟨stretches, live', h⟩ := Program.run_unfolds host fuel p hrun live hlive hrest
  exact ⟨stretches, live', .of_unfolds h⟩

/-- Whatever program runs on a form at rest with nothing waiting, every dispatch of the run that
succeeds works off all that was queued so far, and every dispatch that fails leaves behind what was
queued in it.  So nothing waits in the end exactly if every dispatch that failed after something was
queued in it was followed by one that succeeded. -/
theorem waiting_after_run {host : Host σ κ} {fuel : Nat} {form : FormId} {p : Program σ κ α} {a : α}
    {w w' : World σ κ} {live : LiveForm κ} (hlive : w.form? form = some live)
    (hrest : live.store.dispatching = false) (hnone : live.store.pending = [])
    (hrun : p.run host fuel w = .ok (a, w')) :
    ∃ stretches live', Settled host form w live stretches w' live'
      ∧ (live'.store.pending = [] ↔ ∀ earlier stretch later,
        stretches = earlier ++ stretch :: later → stretch.Stalled form →
          ∃ other ∈ later, other.Succeeded) := by
  obtain ⟨stretches, live', hsettled⟩ := Program.run_settled host fuel p hrun live hlive hrest
  refine ⟨stretches, live', hsettled, ?_⟩
  rw [hsettled.pending, leftBehind_eq_nil]
  exact and_iff_right (.inl hnone)

/-! ## A dispatch that fails after something was queued in it -/

namespace Stall

/-- Set the second field. -/
def queued : Submission Nat := ⟨[.editField [1, 1] (.fixed (.bool true))], none, by simp⟩

/-- Compute the first field, and then take out what is not there. -/
def failing : Submission Nat := ⟨[.editField [0, 1] (.computed 0), .removeField [9]], none, by simp⟩

/-- Set the first field. -/
def later : Submission Nat := ⟨[.editField [0, 1] (.fixed (.bool false))], none, by simp⟩

/-- The update submits a batch and keeps the value. -/
def callbacks : Host Unit Nat where
  update _ previous := do
    let _ ← Program.submit 0 queued
    return previous
  errors _ _ := pure []
  listen _ _ _ := pure ()
  handle _ _ _ := pure ()
  follow _ _ _ := pure ()

/-- A form of two fields. -/
def setUp : LiveForm Nat := .bare (.list [
  .list [.string "field", .list [.string "a", .string "text"]],
  .list [.string "field", .list [.string "b", .string "text"]]]) .queue

/-- The form alone. -/
def start : World Unit Nat := .start #[setUp] ()

/-- The number of batches that wait, the version, and the values of the two fields. -/
def shown (w : World Unit Nat) : Option (Nat × Nat × List (Option Bool)) :=
  (w.form? 0).map fun live => (live.store.pending.length, live.store.version,
    [[0, 1, 2], [1, 1, 2]].map fun path => (live.store.state.node? path).bind Data.toBool?)

/-- Whether the dispatch that fails leaves a batch waiting. -/
def stalls : Bool :=
  match (Program.submit 0 failing).run callbacks 4 start with
  | .ok (.error (.pathNotFound path), w) =>
    decide (path = [9] ∧ shown w = some (1, 0, [none, none]))
  | _ => false

/-- Whether the next dispatch applies what was left waiting. -/
def outlives : Bool :=
  match (Program.submit 0 failing).run callbacks 4 start with
  | .ok (.error (.pathNotFound path), w₁) =>
    match (Program.submit 0 later).run callbacks 4 w₁ with
    | .ok (.ok .applied, w₂) => decide (path = [9]
      ∧ (w₁.form? 0).any (fun live => live.store.policy = .queue
        ∧ live.store.dispatching = false ∧ live.store.pending.length = 1)
      ∧ shown w₂ = some (0, 2, [some false, some true]))
    | _ => false
  | _ => false

/-- The dispatch that fails returns with the batch that was queued in it still waiting. -/
theorem failing_run : ∃ w, (Program.submit 0 failing).run callbacks 4 start
    = .ok (.error (.pathNotFound [9]), w) ∧ shown w = some (1, 0, [none, none]) := by
  have hcheck : stalls = true := by decide +kernel
  unfold stalls at hcheck
  split at hcheck
  · next path w hrun =>
    obtain ⟨rfl, hshown⟩ := of_decide_eq_true hcheck
    exact ⟨w, hrun, hshown⟩
  · cases hcheck

end Stall

open Stall in
theorem waiting_after_run_stalled : ∃ w' stretches live',
    (Program.submit 0 failing).run callbacks 4 start = .ok (.error (.pathNotFound [9]), w')
      ∧ Settled callbacks 0 start setUp stretches w' live'
      ∧ live'.store.pending.length = 1
      ∧ ∃ earlier stretch later, stretches = earlier ++ stretch :: later ∧ stretch.Stalled 0
        ∧ ∀ other ∈ later, ¬ other.Succeeded := by
  obtain ⟨w', hrun, hshown⟩ := failing_run
  obtain ⟨stretches, live', hsettled, hwaiting⟩ :=
    waiting_after_run (show start.form? 0 = some setUp from rfl) rfl rfl hrun
  rw [shown, hsettled.course.found] at hshown
  have hlength : live'.store.pending.length = 1 := congrArg Prod.fst (Option.some.inj hshown)
  have hwaits : live'.store.pending ≠ [] := by rintro hnone; rw [hnone] at hlength; cases hlength
  have hstalled := mt hwaiting.2 hwaits
  simp only [not_forall, not_exists, not_and, exists_prop] at hstalled
  exact ⟨w', stretches, live', hrun, hsettled, hlength, hstalled⟩

open Stall in
/-- A batch is queued inside a call that fails, and waits when that call has returned; the next
dispatch, which has nothing to do with it, applies it. -/
theorem outlived_dispatch : ∃ w₁ live₁ w₂,
    (Program.submit 0 failing).run callbacks 4 start = .ok (.error (.pathNotFound [9]), w₁)
      ∧ w₁.form? 0 = some live₁ ∧ live₁.store.policy = .queue
      ∧ live₁.store.dispatching = false ∧ live₁.store.pending ≠ []
      ∧ (Program.submit 0 later).run callbacks 4 w₁ = .ok (.ok .applied, w₂)
      ∧ shown w₂ = some (0, 2, [some false, some true]) := by
  have hcheck : outlives = true := by decide +kernel
  unfold outlives at hcheck
  split at hcheck
  · next path w₁ hfirst =>
    split at hcheck
    · next w₂ hsecond =>
      obtain ⟨rfl, hwaits, hshown⟩ := of_decide_eq_true hcheck
      obtain ⟨live₁, hlive, hwaits⟩ := (Option.any_eq_true ..).1 hwaits
      obtain ⟨hpolicy, hrest, hlength⟩ := of_decide_eq_true hwaits
      refine ⟨w₁, live₁, w₂, hfirst, hlive, hpolicy, hrest, fun hnone => ?_, hsecond, hshown⟩
      rw [hnone] at hlength
      cases hlength
    · cases hcheck
  · cases hcheck

end FormTree
