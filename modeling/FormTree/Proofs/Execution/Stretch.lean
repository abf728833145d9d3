import FormTree.Form.Handle
import FormTree.Proofs.Execution.Report

/-!
# Stretches of a run

A run that begins with a form at rest leaves it at rest.  What it does to the form falls into
stretches: single occurrences that do not touch the state, and whole dispatches, whose rounds follow
each other with consecutive versions.
-/

namespace FormTree

variable {σ κ α : Type}

/-! ## Stretches -/

/-- A part of a run that finds a form at rest and leaves it at rest. -/
inductive Stretch (κ : Type) where
  | quiet (occurrence : Occurrence κ)
  | dispatch (rounds : List (Round κ))

/-- The journal entries of a stretch. -/
def Stretch.occurrences (form : FormId) : Stretch κ → List (Occurrence κ)
  | .quiet o => [o]
  | .dispatch rounds => roundEntries form rounds

/-- The rounds of a stretch. -/
def Stretch.rounds : Stretch κ → List (Round κ)
  | .quiet _ => []
  | .dispatch rounds => rounds

/-- The journal entries of stretches. -/
def stretchEntries (form : FormId) (stretches : List (Stretch κ)) : List (Occurrence κ) :=
  stretches.flatMap (·.occurrences form)

/-- All rounds of stretches. -/
def stretchRounds (stretches : List (Stretch κ)) : List (Round κ) := stretches.flatMap (·.rounds)

/-- What can happen while the form is at rest: anything to other forms, and nothing that belongs to a
dispatch of this one. -/
def Occurrence.Quiet (form : FormId) : Occurrence κ → Prop
  | .created other _ _ | .began other _ _ | .applied other _ _ | .failed other _
  | .notified other _ _ | .followed other _ _ | .queued other _ | .rejected other _ => other ≠ form
  | .skipped other after _ => other = form → ∀ report ∈ after, ∃ name, report = .host name
  | _ => True

theorem Occurrence.quiet_of_form_ne {form : FormId} {o : Occurrence κ} (h : o.form ≠ form) :
    o.Quiet form := by
  cases o <;> simp_all [Quiet, Occurrence.form]

theorem Occurrence.quiet_of_emission {form : FormId} {o : Occurrence κ} (h : o.OfEmission) :
    o.Quiet form := by
  cases o <;> trivial

/-- From one world to another, with a form at rest in both, a run went through stretches. -/
structure Course (host : Host σ κ) (form : FormId) (w : World σ κ) (live : LiveForm κ)
    (stretches : List (Stretch κ)) (w' : World σ κ) (live' : LiveForm κ) : Prop where
  wrote : w.Wrote (stretchEntries form stretches) w'
  found : w'.form? form = some live'
  profile : live'.profile = live.profile
  announces : live'.store.announces = live.store.announces
  atRest : live'.store.dispatching = false
  /-- The state and the version are what the rounds made of them. -/
  state : live'.store.state = (stretchRounds stretches).foldl Round.stateAfter live.store.state
  version : live'.store.version
    = live.store.version + (stretchRounds stretches).countP Round.landed
  /-- The rounds follow each other, across all dispatches. -/
  succession : Succession live.store.state live.store.version (stretchRounds stretches)
  quiet : ∀ o, .quiet o ∈ stretches → o.Quiet form
  ran : ∀ r ∈ stretchRounds stretches,
    ∃ fuel v before v' after, Round.Ran host fuel form v before r v' after
  /-- What a round led to is announced and reported. -/
  reported : live.store.announces = true → ∀ r ∈ stretchRounds stretches, ∀ l, r.result = .ok l →
    l.Reported form live.profile.settings.fieldValidity r.submission.after

namespace Course

variable {host : Host σ κ} {form : FormId} {w v w' : World σ κ}
  {live between live' : LiveForm κ} {first second : List (Stretch κ)}

/-- Nothing that the journal has, and nothing that the store or the profile shows. -/
theorem silent (hrest : live.store.dispatching = false) (hwrote : w.Wrote [] w')
    (hfound : w'.form? form = some live') (hprofile : live'.profile = live.profile)
    (hstore : live'.store = live.store) : Course host form w live [] w' live' where
  wrote := hwrote
  found := hfound
  profile := hprofile
  announces := by rw [hstore]
  atRest := by rw [hstore, hrest]
  state := by rw [hstore]; rfl
  version := by rw [hstore]; rfl
  succession := trivial
  quiet := by simp
  ran := by simp [stretchRounds]
  reported := by simp [stretchRounds]

theorem append (h₁ : Course host form w live first v between)
    (h₂ : Course host form v between second w' live') :
    Course host form w live (first ++ second) w' live' where
  wrote := by simpa [stretchEntries] using h₁.wrote.append h₂.wrote
  found := h₂.found
  profile := h₂.profile.trans h₁.profile
  announces := h₂.announces.trans h₁.announces
  atRest := h₂.atRest
  state := by simpa [stretchRounds, h₁.state] using h₂.state
  version := by simpa [stretchRounds, h₁.version, Nat.add_assoc] using h₂.version
  succession := by
    have hsecond := h₂.succession
    rw [h₁.state, h₁.version] at hsecond
    rw [stretchRounds, List.flatMap_append]
    exact Succession.append.2 ⟨h₁.succession, hsecond⟩
  quiet o ho := (List.mem_append.1 ho).elim (h₁.quiet o) (h₂.quiet o)
  ran r hr := by
    rw [stretchRounds, List.flatMap_append] at hr
    exact (List.mem_append.1 hr).elim (h₁.ran r) (h₂.ran r)
  reported hannounces r hr l hl := by
    rw [stretchRounds, List.flatMap_append] at hr
    rcases List.mem_append.1 hr with hr | hr
    · exact h₁.reported hannounces r hr l hl
    · rw [← h₁.profile]
      exact h₂.reported (h₁.announces.trans hannounces) r hr l hl

/-- A single quiet occurrence, and at most the listeners changed. -/
theorem of_one {o : Occurrence κ} (ho : o.Quiet form) (hrest : live.store.dispatching = false)
    (hwrote : w.Wrote [o] w') (hfound : w'.form? form = some live')
    (hprofile : live'.profile = live.profile) (halike : live'.store.Alike live.store) :
    Course host form w live [.quiet o] w' live' where
  wrote := hwrote
  found := hfound
  profile := hprofile
  announces := halike.announces
  atRest := halike.dispatching.trans hrest
  state := halike.state
  version := halike.version
  succession := trivial
  quiet other hother := by
    obtain rfl : other = o := by simpa using hother
    exact ho
  ran := by simp [stretchRounds, Stretch.rounds]
  reported := by simp [stretchRounds, Stretch.rounds]

/-- What happens to other forms is quiet. -/
theorem of_other {entries : List (Occurrence κ)} (hwrote : w.Wrote entries w')
    (hother : ∀ o ∈ entries, o.form ≠ form) (hfound : w'.form? form = some live)
    (hrest : live.store.dispatching = false) :
    Course host form w live (entries.map .quiet) w' live := by
  have hrounds : stretchRounds (entries.map Stretch.quiet) = [] := by
    simp [stretchRounds, Stretch.rounds]
  have hentries : stretchEntries form (entries.map Stretch.quiet) = entries := by
    simp [stretchEntries, Stretch.occurrences, List.flatMap_map]
  refine ⟨by rwa [hentries], hfound, rfl, rfl, hrest, by rw [hrounds]; rfl, by rw [hrounds]; rfl,
    by rw [hrounds]; trivial, fun o ho => ?_, by rw [hrounds]; simp, by rw [hrounds]; simp⟩
  obtain ⟨other, hmem, ⟨⟩⟩ := List.mem_map.1 ho
  exact Occurrence.quiet_of_form_ne (hother o hmem)

/-- A whole dispatch is one stretch. -/
theorem of_workedOff {fuel : Nat} {submission : Submission κ} {rounds : List (Round κ)}
    {u : World σ κ} {ended : LiveForm κ}
    (hworked : WorkedOff host fuel form (w.setForm form (live.takeUp submission))
      (live.takeUp submission) rounds u ended) :
    Course host form w live [.dispatch rounds] (u.setForm form (ended.mark false))
      (ended.mark false) := by
  have hrounds : stretchRounds [Stretch.dispatch rounds] = rounds := by
    simp [stretchRounds, Stretch.rounds]
  exact {
    wrote := by simpa [World.Wrote, stretchEntries, Stretch.occurrences] using hworked.wrote
    found := World.form?_setForm_self hworked.found _
    profile := hworked.profile
    announces := hworked.announces
    atRest := rfl
    state := by rw [hrounds]; exact hworked.state
    version := by rw [hrounds]; exact hworked.version
    succession := by rw [hrounds]; exact hworked.succession
    quiet := by simp
    ran := fun r hr => by
      rw [hrounds] at hr
      obtain ⟨v, before, v', after, hran, -⟩ := hworked.ran r hr
      exact ⟨fuel, v, before, v', after, hran⟩
    reported := fun hannounces r hr l hl => by
      rw [hrounds] at hr
      obtain ⟨_, before, _, _, hran, hprofile, hsame, hbusy⟩ := hworked.ran r hr
      have hreported := hran.reported hbusy (hsame.trans hannounces) hl
      rwa [hprofile] at hreported }

end Course

end FormTree
