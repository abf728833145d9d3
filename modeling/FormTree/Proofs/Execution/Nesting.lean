import FormTree.Proofs.Execution.Deliveries

/-!
# Emissions inside one another

Handlers emit while they are called, so the courses of several emissions are interleaved in the
journal, but only in the way of a stack: what is called next belongs to the innermost emission that
is under way, and an emission goes on when those inside it are complete.  `Carries` reads a stretch
of the journal in this way, entry by entry, with the courses that are still to be carried out, and
faithful entries can be read so (`Transcribed.carries`).

Whatever is counted in calls of handlers can so be followed along a stretch, with what is still due
as the sum over the courses under way.
-/

namespace FormTree

variable {κ : Type} {form : FormId} {b c : Channels κ}

/-- The entries carry out the given courses, that of the innermost emission first, and those of the
emissions that begin in them. -/
inductive Carries (form : FormId) : List (List (Occurrence κ)) → List (Occurrence κ) → Prop
  | done : Carries form [] []
  /-- What is about another form, or belongs to no emission. -/
  | skip {courses : List (List (Occurrence κ))} {o : Occurrence κ} {rest : List (Occurrence κ)}
    (h : o.form ≠ form ∨ ¬ o.OfEmission) (hrest : Carries form courses rest) :
    Carries form courses (o :: rest)
  /-- An emission begins inside the others. -/
  | begins {courses : List (List (Occurrence κ))} {event : Event} {payload : Payload}
    {rest : List (Occurrence κ)} (hrest : Carries form (course form 0 rest :: courses) rest) :
    Carries form courses (.emitted form event payload :: rest)
  /-- The innermost emission calls its next handler. -/
  | calls {calls : List (Occurrence κ)} {courses : List (List (Occurrence κ))} {event : Event}
    {id : HandlerId} {handler : Handler κ} {payload : Payload} {rest : List (Occurrence κ)}
    (hrest : Carries form (calls :: courses) rest) :
    Carries form ((.delivered form event id handler payload :: calls) :: courses)
      (.delivered form event id handler payload :: rest)
  /-- The innermost emission is complete. -/
  | ends {courses : List (List (Occurrence κ))} {event : Event} {count : Nat}
    {rest : List (Occurrence κ)} (hrest : Carries form courses rest) :
    Carries form ([.completed form event count] :: courses) (.completed form event count :: rest)

/-- Read from inside the given number of emissions, the entries are the rest of the courses, and
further out they are passed over. -/
def Rests (form : FormId) (courses : List (List (Occurrence κ))) (entries : List (Occurrence κ)) :
    Prop :=
  ∀ depth more, course form depth (entries ++ more)
    = courses[depth]?.getD (course form (depth - courses.length) more)

theorem PassedOver.rests {entries : List (Occurrence κ)} (h : PassedOver form entries) :
    Rests form [] entries := h

namespace Rests

variable {courses : List (List (Occurrence κ))} {entries rest calls : List (Occurrence κ)}
  {o : Occurrence κ} {event : Event} {id : HandlerId} {handler : Handler κ} {payload : Payload}
  {count : Nat}

/-- At the end of the entries nothing is under way. -/
theorem eq_nil (h : Rests form courses []) : courses = [] := by
  cases courses with
  | nil => rfl
  | cons first others =>
    -- the innermost course would be whatever comes behind the entries
    have hnothing : [] = first := h 0 []
    have hsomething : course form 0 [.completed form (.external .change) 0] = first :=
      h 0 [.completed form (.external .change) 0]
    rw [course_completed, ← hnothing] at hsomething
    cases hsomething

theorem skip (hskip : o.form ≠ form ∨ ¬ o.OfEmission) (h : Rests form courses (o :: rest)) :
    Rests form courses rest :=
  fun depth more => (passedOver_entry hskip depth (rest ++ more)).symm.trans (h depth more)

/-- An emission that is complete in what is behind its beginning. -/
theorem emitted (h : Rests form courses (.emitted form event payload :: rest))
    (hcomplete : ∀ more, course form 0 (rest ++ more) = course form 0 rest) :
    Rests form (course form 0 rest :: courses) rest := by
  intro depth more
  cases depth with
  | zero => exact hcomplete more
  | succ depth =>
    rw [← course_emitted, ← List.cons_append, h, List.getElem?_cons_succ, List.length_cons,
      Nat.add_sub_add_right]

/-- A call is the next one of the innermost course. -/
theorem delivered
    (h : Rests form courses (.delivered form event id handler payload :: rest)) :
    ∃ calls others, courses = (.delivered form event id handler payload :: calls) :: others
      ∧ Rests form (calls :: others) rest := by
  have hinner := fun more => course_delivered.symm.trans (h 0 more)
  cases courses with
  | nil => cases hinner []
  | cons first others =>
    obtain rfl : _ = first := hinner []
    refine ⟨_, others, rfl, fun depth more => ?_⟩
    cases depth with
    | zero => exact (List.cons.inj (hinner more)).2
    | succ depth =>
      rw [← course_delivered_inside, ← List.cons_append, h, List.getElem?_cons_succ,
        List.getElem?_cons_succ]
      rfl

/-- A completion is the end of the innermost course. -/
theorem completed (h : Rests form courses (.completed form event count :: rest)) :
    ∃ others, courses = [.completed form event count] :: others ∧ Rests form others rest := by
  have hinner := course_completed.symm.trans (h 0 [])
  cases courses with
  | nil => cases hinner
  | cons first others =>
    obtain rfl : _ = first := hinner
    refine ⟨others, rfl, fun depth more => ?_⟩
    rw [← course_completed_inside, ← List.cons_append, h, List.getElem?_cons_succ, List.length_cons,
      Nat.add_sub_add_right]

end Rests

/-- Faithful entries carry out what is under way before them, if all of it is complete at their end.
-/
theorem Faithful.carries {courses : List (List (Occurrence κ))} {entries : List (Occurrence κ)}
    (h : Faithful form b entries) (hrests : Rests form courses entries) :
    Carries form courses entries := by
  induction entries generalizing b courses with
  | nil =>
    obtain rfl := hrests.eq_nil
    exact .done
  | cons o rest ih =>
    obtain ⟨hagrees, hrest⟩ := h
    by_cases hskip : o.form ≠ form ∨ ¬ o.OfEmission
    · exact .skip hskip (ih hrest (hrests.skip hskip))
    obtain ⟨rfl, hemission⟩ : o.form = form ∧ o.OfEmission := by
      simpa only [not_or, not_not] using hskip
    cases o <;> first | exact hemission.elim | skip
    case emitted other event payload =>
      have hcomplete := hagrees rfl
      refine .begins (ih hrest (hrests.emitted fun more => (hcomplete more).trans ?_))
      rw [← hcomplete [], List.append_nil]
    case delivered other event id handler payload =>
      obtain ⟨calls, others, rfl, hothers⟩ := hrests.delivered
      exact .calls (ih hrest hothers)
    case completed other event count =>
      obtain ⟨others, rfl, hothers⟩ := hrests.completed
      exact .ends (ih hrest hothers)

/-- What happened between two states of the channels carries out the emissions that begin in it. -/
theorem Transcribed.carries {entries : List (Occurrence κ)} (h : Transcribed form entries b c) :
    Carries form [] entries := h.faithful.carries h.passedOver.rests

end FormTree
