import FormTree.Proofs.Execution.Deliveries
import FormTree.Proofs.Execution.Dispatch

/-!
# What a form reports of a round

When a batch has been applied, the form announces the new state to its host, and if a handle submitted
the batch, the form reports the change of the node and, if the node was validated, the outcome of
that.  `After.event?` and `After.verdict?` say what a handle has to report of a state, and
`Landing.Reported` says that a round did so: the events stand in the journal in their places, and
what handlers do with them stands between the beginning and the completion of each.
-/

namespace FormTree

open Program (slotOf messagesAt)

variable {σ κ α : Type}

/-! ## What there is to report -/

/-- The change that a handle reports of a state. -/
def After.event? (state : Data) : After κ → Option (Signal × Payload)
  | .host _ => none
  | .fieldEdited path namePath _ =>
    let value := slotOf (state.node? path) Kind.valueAt
    some (.fieldChange, .field namePath (some ((value.map Data.toJson).getD .null)))
  | .fieldRemoved namePath => some (.fieldRemoved, .field namePath none)
  | .itemsChanged container path namePath _ =>
    let items := Data.itemsJson (slotOf (state.node? path) container.itemsAt)
    some (.fieldChange, .field namePath (some items))

/-- The outcome of a validation that a handle reports of a state: a name path and its errors. -/
def After.verdict? (state : Data) : After κ → Option (String × List String)
  | .host _ => none
  | .fieldEdited path namePath validated =>
    if validated then some (namePath, messagesAt (state.node? path) Kind.field.errorsAt) else none
  | .fieldRemoved namePath => some (namePath, [])
  | .itemsChanged container path namePath validated =>
    if validated then some (namePath, messagesAt (state.node? path) container.errorsAt) else none

/-- Whether it is a handle that comes after a batch. -/
def After.OfHandle : After κ → Prop
  | .host _ => False
  | _ => True

/-- Only handles have a change to report, and they always do. -/
theorem After.ofHandle_iff (state : Data) {after : After κ} :
    after.OfHandle ↔ ∃ event, after.event? state = some event := by
  cases after <;> simp [OfHandle, event?]

/-- The signal of a validation with the given errors. -/
def verdictSignal (errors : List String) : Signal :=
  if errors.isEmpty then .fieldValid else .fieldInvalid

/-- Only handles report a verdict. -/
theorem After.verdict?_eq_none {state : Data} {after : After κ} (h : after.event? state = none) :
    after.verdict? state = none := by
  cases after with
  | host _ => rfl
  | _ => cases h

/-- The report of a handle: the change first, then the outcome of the validation. -/
theorem Program.report_eq {form : FormId} {state : Data} {after : After κ} {signal : Signal}
    {payload : Payload} (h : after.event? state = some (signal, payload)) :
    (report form state after : Program σ κ Unit) = (do
      let _ ← emit form (.internal signal) payload
      match after.verdict? state with
      | none => pure ()
      | some (namePath, errors) => announceValidity form namePath errors) := by
  cases after with
  | host _ => cases h
  | fieldRemoved _ => cases h; rfl
  | fieldEdited path namePath validated => cases h; cases validated <;> rfl
  | itemsChanged container path namePath validated => cases h; cases validated <;> rfl

/-- The event by which the outcome of a validation is reported. -/
def verdictEvent (namePath : String) (errors : List String) : Event × Payload :=
  (.internal (verdictSignal errors), .field namePath (some (Json.ofStrings errors)))

/-- What a handle has to emit after its batch led to a state, in a form that reports verdicts, or does
not: the change, and then the outcome of the validation. -/
def After.due (verdicts : Bool) (state : Data) (after : After κ) : List (Event × Payload) :=
  match after.event? state with
  | none => []
  | some (signal, payload) =>
    let verdict := if verdicts then after.verdict? state else none
    (.internal signal, payload) :: (verdict.map fun v => verdictEvent v.1 v.2).toList

@[simp] theorem After.due_host (verdicts : Bool) (state : Data) (name : κ) :
    (After.host name).due verdicts state = [] := rfl

/-! ## Emissions in the journal -/

/-- Entries in which an emission calls the given handlers, each once and in this order.  What else
stands in them is passed over by who reads the emission (`course`): the handlers write it, and every
emission that begins in it is complete in it. -/
def Delivers (form : FormId) (event : Event) (payload : Payload)
    (handlers : List (HandlerId × Handler κ)) (during : List (Occurrence κ)) : Prop :=
  ∀ more, course form 0 (during ++ more)
    = handlers.map (fun entry => .delivered form event entry.1 entry.2 payload)
      ++ course form 0 more

/-- The entries of one emission: its beginning, the calls of some handlers and its completion. -/
def IsEmission (form : FormId) (event : Event) (payload : Payload)
    (entries : List (Occurrence κ)) : Prop :=
  ∃ (handlers : List (HandlerId × Handler κ)) (during : List (Occurrence κ)),
    entries = .emitted form event payload :: (during ++ [.completed form event handlers.length])
      ∧ Delivers form event payload handlers during

/-- The entries of emissions of the given events, one after the other, and nothing besides. -/
inductive AreEmissions (form : FormId) : List (Event × Payload) → List (Occurrence κ) → Prop
  | nil : AreEmissions form [] []
  | cons {event payload events first rest} (hfirst : IsEmission form event payload first)
      (hrest : AreEmissions form events rest) :
      AreEmissions form ((event, payload) :: events) (first ++ rest)

section Emissions

variable {form : FormId} {event other : Event} {payload carried : Payload}
  {events others : List (Event × Payload)} {handlers called : List (HandlerId × Handler κ)}
  {during inside first second rest later : List (Occurrence κ)}

/-- Where all handlers have been called, the emission is complete. -/
theorem Delivers.course_eq (h : Delivers form event payload handlers during)
    (behind : List (Occurrence κ)) :
    course form 0 (during ++ .completed form event handlers.length :: behind)
      = emissionOf form event payload handlers := by
  rw [h, course_completed]
  rfl

/-- An emission is not complete before all handlers have been called. -/
theorem Delivers.ne_behind (h : Delivers form event payload handlers during)
    (h' : Delivers form event payload called inside) (behind : List (Occurrence κ)) :
    inside ≠ during ++ .completed form event handlers.length :: behind := by
  rintro rfl
  have hcalls := h' []
  rw [List.append_nil, h.course_eq, course, List.append_nil] at hcalls
  have hmem : Occurrence.completed form event handlers.length
      ∈ emissionOf form event payload handlers := by simp [emissionOf]
  rw [hcalls] at hmem
  obtain ⟨_, -, hdelivered⟩ := List.mem_map.1 hmem
  cases hdelivered

/-- An emission ends where it ends, whatever is behind it. -/
theorem IsEmission.split (h : IsEmission form event payload first)
    (h' : IsEmission form other carried second) (heq : first ++ rest = second ++ later) :
    event = other ∧ payload = carried ∧ first = second ∧ rest = later := by
  obtain ⟨handlers, during, rfl, hduring⟩ := h
  obtain ⟨called, inside, rfl, hinside⟩ := h'
  rw [List.cons_append, List.cons_append, List.append_assoc, List.append_assoc] at heq
  obtain ⟨hbegun, htail⟩ := List.cons_eq_cons.1 heq
  obtain ⟨-, rfl, rfl⟩ := Occurrence.emitted.inj hbegun
  -- neither emission is complete inside the other
  rcases List.append_eq_append_iff.1 htail with ⟨between, hsplit, hbehind⟩ | ⟨between, hsplit, hbehind⟩
  · cases between with
    | nil =>
      obtain ⟨hlast, hrest⟩ := List.cons_eq_cons.1 hbehind
      exact ⟨rfl, rfl, by rw [hsplit, List.append_nil, hlast], hrest⟩
    | cons o behind =>
      obtain ⟨rfl, -⟩ := List.cons_eq_cons.1 hbehind
      exact absurd hsplit (hduring.ne_behind hinside behind)
  · cases between with
    | nil =>
      obtain ⟨hlast, hrest⟩ := List.cons_eq_cons.1 hbehind
      exact ⟨rfl, rfl, by rw [hsplit, List.append_nil, hlast], hrest.symm⟩
    | cons o behind =>
      obtain ⟨rfl, -⟩ := List.cons_eq_cons.1 hbehind
      exact absurd hsplit (hinside.ne_behind hduring behind)

namespace AreEmissions

theorem append (h : AreEmissions form events first) (h' : AreEmissions form others second) :
    AreEmissions form (events ++ others) (first ++ second) := by
  induction h with
  | nil => exact h'
  | cons hfirst _ ih => rw [List.cons_append, List.append_assoc]; exact .cons hfirst ih

theorem singleton (h : IsEmission form event payload first) :
    AreEmissions form [(event, payload)] first := by
  have hone : AreEmissions form [(event, payload)] (first ++ []) := cons h nil
  rwa [List.append_nil] at hone

/-- Entries are the emissions of one list of events only. -/
theorem unique (h : AreEmissions form events first) (h' : AreEmissions form others first) :
    events = others := by
  induction h generalizing others with
  | nil =>
    generalize hnone : ([] : List (Occurrence κ)) = entries at h'
    cases h' with
    | nil => rfl
    | cons hfirst _ =>
      obtain ⟨_, _, rfl, -⟩ := hfirst
      cases hnone
  | cons hfirst _ ih =>
    generalize hall : (_ : List (Occurrence κ)) ++ _ = entries at h'
    cases h' with
    | nil =>
      obtain ⟨_, _, rfl, -⟩ := hfirst
      cases hall
    | cons hother hrest =>
      obtain ⟨rfl, rfl, -, rfl⟩ := hfirst.split hother hall
      rw [ih hrest]

end AreEmissions

end Emissions

/-- What a form that reports verdicts, or does not, reports of a round that succeeded. -/
structure Landing.Reported (form : FormId) (verdicts : Bool) (after : Option (After κ))
    (l : Landing κ) : Prop where
  /-- The new state is announced once, before anybody else is called. -/
  change : ∃ entries calls, l.heard = (.announces, entries) :: calls
      ∧ IsEmission form (.external .change) (.state l.state) entries
      ∧ .announces ∉ calls.map Prod.fst
  /-- What comes after the batch of a handle is what the handle has to emit, and nothing else. -/
  report : ∀ a ∈ after, a.OfHandle → AreEmissions form (a.due verdicts l.state) l.afterwards

section Runs

variable {host : Host σ κ} {fuel : Nat} {form : FormId} {w v w' : World σ κ}
  {live live' : LiveForm κ} {state : Data} {event : Event} {payload : Payload}

namespace Program

/-- An event that is emitted amid a dispatch is one emission in the journal. -/
theorem emit_passes {calls : Nat} (hlive : w.form? form = some live)
    (hbusy : live.store.dispatching = true)
    (h : (emit form event payload).run host fuel w = .ok (calls, w')) :
    ∃ entries live', IsEmission form event payload entries
      ∧ Passes form w live entries w' live' := by
  cases fuel with
  | zero => exact absurd h run_zero_ne_ok
  | succ fuel =>
    rw [run_emit, Run.emit_eq_ok hlive] at h
    obtain ⟨v, hcalls, rfl, rfl⟩ := h
    have hbegun : (w.note (.emitted form event payload)).form? form = some live := hlive
    obtain ⟨during, live', hduring⟩ := Run.deliverAll_keeps (fun _ _ => run_passes host fuel _)
      (fun _ _ => run_passes host fuel _) (fun f _ => Run.changeChannels_amid f)
      (fun _ _ => Run.note_amid) event payload _ hcalls live hbegun hbusy
    obtain ⟨entries, _, hwrote, -, -, -, -, hcourse⟩ := Run.deliverAll_transcribed
      (Run.deliver_keeps (fun _ _ => run_transcribes form host fuel _)
        (fun _ _ => run_transcribes form host fuel _) (fun _ => Run.changeQueue_transcribing) payload)
      hbegun hcalls
    obtain rfl := hduring.wrote.unique hwrote
    have hbegin := Passes.of_emission (o := .emitted form event payload) trivial hlive
    have hend := Passes.of_emission (o := .completed form event (live.channels.handlers event).length)
      trivial hduring.found
    exact ⟨_, live', ⟨_, during, rfl, hcourse⟩, hbegin.append (hduring.append hend)⟩

/-- The outcome of a validation is reported by one event, if the form reports outcomes at all. -/
theorem announceValidity_passes {namePath : String} {errors : List String}
    (hlive : w.form? form = some live) (hbusy : live.store.dispatching = true)
    (h : (announceValidity form namePath errors).run host fuel w = .ok ((), w')) :
    ∃ entries live',
      AreEmissions form
        (if live.profile.settings.fieldValidity then [verdictEvent namePath errors] else []) entries
        ∧ Passes form w live entries w' live' := by
  cases fuel with
  | zero => exact absurd h run_zero_ne_ok
  | succ fuel =>
    obtain ⟨_, _, hprofile, h⟩ := run_bind_eq_ok.1 h
    rw [run_profile hlive] at hprofile
    cases hprofile
    split at h
    · next hreports =>
      obtain ⟨_, v, hemit, hdone⟩ := run_bind_eq_ok.1 h
      obtain ⟨-, -, rfl⟩ := run_done.1 hdone
      obtain ⟨entries, live', hentries, hpasses⟩ := emit_passes hlive hbusy hemit
      rw [if_pos hreports]
      exact ⟨entries, live', .singleton hentries, hpasses⟩
    · next hreports =>
      obtain ⟨-, -, rfl⟩ := run_done.1 h
      rw [if_neg hreports]
      exact ⟨[], live, .nil, .nil hlive⟩

/-- A handle emits the change first, and then the outcome of the validation. -/
theorem report_passes {after : After κ} (hlive : w.form? form = some live)
    (hbusy : live.store.dispatching = true) (hhandle : after.OfHandle)
    (h : (report form state after).run host fuel w = .ok ((), w')) :
    ∃ entries live',
      AreEmissions form (after.due live.profile.settings.fieldValidity state) entries
        ∧ Passes form w live entries w' live' := by
  obtain ⟨⟨signal, payload⟩, hevent⟩ := (After.ofHandle_iff state).1 hhandle
  rw [report_eq hevent, run_bind_eq_ok] at h
  obtain ⟨_, v, hemit, hrest⟩ := h
  obtain ⟨first, between, hfirst, hpasses⟩ := emit_passes hlive hbusy hemit
  simp only [After.due, hevent]
  cases hverdict : after.verdict? state with
  | none =>
    simp only [hverdict] at hrest
    obtain ⟨-, -, rfl⟩ := run_done.1 hrest
    exact ⟨first, between, by simpa using AreEmissions.singleton hfirst, hpasses⟩
  | some verdict =>
    simp only [hverdict] at hrest
    obtain ⟨second, live', hsecond, hpasses'⟩ := announceValidity_passes hpasses.found
      (hpasses.alike.dispatching.trans hbusy) hrest
    rw [hpasses.profile] at hsecond
    refine ⟨first ++ second, live', .cons hfirst ?_, hpasses.append hpasses'⟩
    cases hreports : live.profile.settings.fieldValidity with
    | true => simpa [hreports] using hsecond
    | false => simpa [hreports] using hsecond

end Program

/-- The form announces the new state of a round once, and first. -/
theorem Heard.announced {heard : List (Listener κ × List (Occurrence κ))}
    (h : Heard host fuel form state w live heard w' live') (hfound : w.form? form = some live)
    (hbusy : live.store.dispatching = true)
    {s : Store κ} (haudience : heard.map Prod.fst = s.audience) (hannounces : s.announces = true) :
    ∃ entries calls, heard = (.announces, entries) :: calls
      ∧ IsEmission form (.external .change) (.state state) entries
      ∧ .announces ∉ calls.map Prod.fst := by
  -- the form itself stands in front of the listeners and is none of them
  have hself : Listener.announces ∉ s.listeners.map fun entry => .host entry.1 entry.2 := by simp
  rw [Store.audience, if_pos hannounces] at haudience
  cases h with
  | nil => cases haudience
  | cons hcall hduring _ =>
    obtain ⟨rfl, hrest⟩ := List.cons_eq_cons.1 haudience
    obtain ⟨_, v, hemit, hdone⟩ := Program.run_bind_eq_ok.1 hcall
    obtain ⟨-, -, rfl⟩ := Program.run_done.1 hdone
    obtain ⟨entries, _, hentries, hpasses⟩ := Program.emit_passes (by exact hfound) hbusy hemit
    rw [hpasses.wrote.unique hduring.wrote] at hentries
    exact ⟨_, _, rfl, hentries, by rw [hrest]; exact hself⟩

/-- What comes after the batch of a handle is its report. -/
theorem FollowedUp.report {after : After κ} (h : FollowedUp host fuel form state (some after) w w')
    (hhandle : after.OfHandle) : (Program.report form state after).run host fuel w = .ok ((), w') := by
  cases after with
  | host _ => exact hhandle.elim
  | _ => exact h

/-- Whatever succeeds amid a dispatch is reported. -/
theorem Round.Ran.reported {r : Round κ} {l : Landing κ}
    (h : Round.Ran host fuel form w live r w' live') (hbusy : live.store.dispatching = true)
    (hannounces : live.store.announces = true) (hl : r.result = .ok l) :
    l.Reported form live.profile.settings.fieldValidity r.submission.after := by
  cases h with
  | failed _ _ => cases hl
  | @landed _ u _ _ _ _ _ submission next _ _ _ _ hasked hheard haudience hfollow
      hafterwards =>
    cases hl
    have hbusy₁ := hasked.alike.dispatching.trans hbusy
    refine ⟨hheard.announced (World.form?_setForm_self hasked.found _) hbusy₁ haudience
      (hasked.alike.announces.trans hannounces), fun after hafter hhandle => ?_⟩
    rw [show submission.after = some after from hafter] at hfollow hafterwards
    obtain ⟨entries, _, hentries, hpasses⟩ := Program.report_passes
      (by exact hheard.found) (hheard.alike.dispatching.trans hbusy₁) hhandle
      (hfollow.report hhandle)
    rw [hheard.profile, hasked.profile] at hentries
    rwa [hafterwards.wrote.unique hpasses.wrote]

end Runs

end FormTree
