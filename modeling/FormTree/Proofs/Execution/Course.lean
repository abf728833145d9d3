import FormTree.Proofs.Execution.Backlog
import FormTree.Proofs.Execution.Handling
import FormTree.Proofs.Execution.Signalling

/-!
# The course of a run

`Program.run_course` finds the stretches of every program that is run on a form at rest.  They tell
what the handles of the form report during the run, whoever called them and however deep inside other
calls: the reports of the rounds are emissions of what was due, one after the other, and where host
code does not emit such events by itself there are no others in the journal.
-/

namespace FormTree

variable {σ κ α : Type}

/-- Every run that finds a form at rest goes through stretches of it. -/
theorem Program.run_course {form : FormId} (host : Host σ κ) (fuel : Nat) (p : Program σ κ α) {a : α}
    {w w' : World σ κ} (hrun : p.run host fuel w = .ok (a, w')) (live : LiveForm κ)
    (hlive : w.form? form = some live) (hrest : live.store.dispatching = false) :
    ∃ stretches live', Course host form w live stretches w' live' := by
  obtain ⟨stretches, live', hsettled⟩ := Program.run_settled host fuel p hrun live hlive hrest
  exact ⟨stretches, live', hsettled.course⟩

/-! ## The reports of handles -/

/-- The journal entries of what came after the batch of a handle, if the batch succeeded. -/
def Round.reports (r : Round κ) : List (Occurrence κ) :=
  match r.result, r.submission.after with
  | .error _, _ | .ok _, none | .ok _, some (.host _) => []
  | .ok l, some _ => l.afterwards

section Reports

variable {form : FormId} {verdicts : Bool} {rounds : List (Round κ)} {stretches : List (Stretch κ)}

/-- The report of a round is the emission of what is due of its handle. -/
theorem Round.areEmissions {r : Round κ}
    (h : ∀ l, r.result = .ok l → l.Reported form verdicts r.submission.after) :
    AreEmissions form (r.due verdicts) r.reports := by
  obtain ⟨submission, against, asked, result⟩ := r
  cases result with
  | error e => exact .nil
  | ok l =>
    have hreport := (h l rfl).report
    cases hafter : submission.after with
    | none => simpa [due, reports, hafter] using AreEmissions.nil
    | some after =>
      cases after with
      | host name => simpa [due, reports, hafter] using AreEmissions.nil
      | _ => simpa [due, reports, hafter] using hreport _ hafter trivial

/-- The reports of rounds are emissions of what is due, one after the other. -/
theorem areEmissions_rounds
    (h : ∀ r ∈ rounds, ∀ l, r.result = .ok l → l.Reported form verdicts r.submission.after) :
    AreEmissions form (rounds.flatMap (Round.due verdicts)) (rounds.flatMap Round.reports) := by
  induction rounds with
  | nil => exact .nil
  | cons r rest ih =>
    rw [List.flatMap_cons, List.flatMap_cons]
    exact (Round.areEmissions (h r (by simp))).append (ih fun r hr => h r (by simp [hr]))

theorem dueIn_rounds (hlawful : ∀ r ∈ rounds, ∃ s, r.Lawful form s)
    (hreported : ∀ r ∈ rounds, ∀ l, r.result = .ok l → l.Reported form verdicts r.submission.after) :
    dueIn form verdicts (roundEntries form rounds) = rounds.flatMap (Round.signals verdicts) := by
  induction rounds with
  | nil => rfl
  | cons r rest ih =>
    obtain ⟨_, hfirst⟩ := hlawful r (by simp)
    have hsignals : dueIn form verdicts (r.occurrences form) = r.signals verdicts :=
      hfirst.due_eq_signals fun l hl => by
        obtain ⟨entries, calls, hheard, -, hothers⟩ := (hreported r (by simp) l hl).change
        exact ⟨entries, calls, hheard, hothers⟩
    rw [roundEntries_cons, dueIn_append, hsignals, List.flatMap_cons,
      ih (fun r hr => hlawful r (by simp [hr])) fun r hr => hreported r (by simp [hr])]

/-- What is due in stretches is what the rounds signal, in order. -/
theorem dueIn_stretches (hquiet : ∀ o, .quiet o ∈ stretches → o.Quiet form)
    (hlawful : ∀ r ∈ stretchRounds stretches, ∃ s, r.Lawful form s)
    (hreported : ∀ r ∈ stretchRounds stretches, ∀ l, r.result = .ok l →
      l.Reported form verdicts r.submission.after) :
    dueIn form verdicts (stretchEntries form stretches)
      = (stretchRounds stretches).flatMap (Round.signals verdicts) := by
  induction stretches with
  | nil => rfl
  | cons stretch later ih =>
    have hrest := ih (fun o ho => hquiet o (by simp [ho]))
      (fun r hr => hlawful r (List.mem_append_right _ hr))
      fun r hr => hreported r (List.mem_append_right _ hr)
    have hentries : stretchEntries form (stretch :: later)
        = stretch.occurrences form ++ stretchEntries form later := rfl
    have hrounds : stretchRounds (stretch :: later) = stretch.rounds ++ stretchRounds later := rfl
    rw [hentries, hrounds, dueIn_append, List.flatMap_append, hrest]
    congr 1
    cases stretch with
    | quiet o =>
      -- neither listeners nor handles are heard of while the form is at rest
      have ho : o.Quiet form := hquiet o (by simp)
      refine dueIn_eq_nil (List.forall_mem_singleton.2 ⟨?_, ?_⟩)
      · rintro listener state rfl
        exact ho rfl
      · rintro after state rfl
        exact ho rfl
    | dispatch rounds =>
      exact dueIn_rounds (fun r hr => hlawful r (List.mem_append_left _ hr))
        fun r hr => hreported r (List.mem_append_left _ hr)

end Reports

/-- Whatever program runs on a form at rest, what its handles emit in their reports is, in the order of
the versions, what is due after those of their batches that succeeded; each report tells of the state
that the batch led to, after that state was announced.  Where host code emits no such events by
itself, the journal has these events, and the announcements of the states before them, and no others.
The events that are due after a batch are those of the operation of a handle that submitted it. -/
theorem handle_events {host : Host σ κ} {fuel : Nat} {form : FormId} {p : Program σ κ α} {a : α}
    {w w' : World σ κ} {live : LiveForm κ} (hlive : w.form? form = some live)
    (hrest : live.store.dispatching = false) (hannounces : live.store.announces = true)
    (hverdicts : live.profile.settings.fieldValidity = true)
    (hrun : p.run host fuel w = .ok (a, w')) :
    ∃ stretches live', Course host form w live stretches w' live'
      ∧ (∀ events, AreEmissions form events ((stretchRounds stretches).flatMap Round.reports)
        ↔ events = (stretchRounds stretches).flatMap (Round.due true))
      ∧ (live.channels.Placed → host.Uses (Call.Reticent form) → p.Uses (Call.Reticent form) →
        signalsIn form (stretchEntries form stretches)
          = (stretchRounds stretches).flatMap (Round.signals true))
      ∧ (stretchRounds stretches).filterMap Round.version?
        = List.range' (live.store.version + 1) ((stretchRounds stretches).countP Round.landed)
      ∧ (∀ r ∈ stretchRounds stretches, ∀ l, r.result = .ok l →
        l.Reported form true r.submission.after)
      ∧ ∀ (op : HandleOperation κ) {less : Nat} {u u' : World σ κ} {found : LiveForm κ}
        {answer : Except Fault Unit}, u.form? op.form = some found →
        op.program.run host less u = .ok (answer, u') →
          (u' = u ∧ ∃ e, answer = .error e) ∨ ∃ submission after, op.Submits submission after
            ∧ (Program.submitThen op.form submission).run host less u = .ok (answer, u') := by
  obtain ⟨stretches, live', hcourse⟩ := Program.run_course host fuel p hrun live hlive hrest
  have hreported := hcourse.reported hannounces
  rw [hverdicts] at hreported
  have hlawful : ∀ r ∈ stretchRounds stretches, ∃ s, r.Lawful form s := fun r hr => by
    obtain ⟨_, _, before, _, _, hran⟩ := hcourse.ran r hr
    exact ⟨before.store, hran.lawful⟩
  have hemissions := areEmissions_rounds hreported
  refine ⟨stretches, live', hcourse, fun events => ⟨fun h => h.unique hemissions, ?_⟩, ?_,
    hcourse.succession.versions, hreported, fun op {_ _ _ _ _} hfound hop => op.submits hfound hop⟩
  · rintro rfl
    exact hemissions
  -- a run has one journal, so both ways of taking it apart speak of the same entries
  · intro hplaced hhost hp
    obtain ⟨entries, _, hwrote, hsignals⟩ :=
      Program.run_signals hhost fuel p hp hrun live ⟨hlive, hplaced⟩
    rw [hwrote.unique hcourse.wrote, hverdicts] at hsignals
    rw [hsignals.signalsIn_eq hcourse.wrote]
    exact dueIn_stretches hcourse.quiet hlawful hreported

/-! ## Handles that are used inside a report -/

namespace Insistent

/-- A field and a container, both validated, and a field that is nowhere. -/
def field : FieldHandle Event := ⟨0, [0, 1], "label", some (.external .change)⟩

def container : ContainerHandle Event := ⟨0, .many, [1, 1], "items", some (.external .change)⟩

def missing : FieldHandle Event := ⟨0, [9, 1], "missing", some (.external .change)⟩

/-- The texts of a JSON value, behind what sort of value it is. -/
def texts : Option Json → List String
  | some (.string text) => ["text", text]
  | some (.array items) => "array" :: items.map fun
    | .string text => text
    | _ => "other"
  | some _ => ["other"]
  | none => []

/-- What is seen of an event: the name path and the value, or the value of the field in a state. -/
def seen : Event × Payload → Event × String × List String
  | (event, .field namePath value) => (event, namePath, texts value)
  | (event, .state state) => (event, "", texts (some (state.jsonAt [0, 1, 2])))
  | (event, _) => (event, "", [])

/-- The validator finds an error in an empty text and in an array that is not empty.  A handler notes
what it hears.  When it hears of the first change, host code edits a field that is not there, adds an
item and removes the field. -/
def callbacks : Host (List (Event × String × List String)) Event where
  update _ previous := pure previous
  errors _ value := pure (match value with
    | .string "" => ["empty"]
    | .array (_ :: _) => ["full"]
    | _ => [])
  listen _ _ _ := pure ()
  handle event _ payload := do
    let heard ← Program.memory
    Program.setMemory (heard ++ [seen (event, payload)])
    if event = .internal .fieldChange ∧ heard.all (·.1 ≠ event) then
      let _ ← missing.edit (.fixed .null)
      let _ ← container.append
      let _ ← field.remove
  follow _ _ _ := pure ()

/-- A field, and a container whose items are texts; and handlers of everything that is reported. -/
def setUp : LiveForm Event := .create {} [(.change, .external .change)] (.list [
  .list [.string "field", .list [.string "label", .string "text"]],
  .list [.string "many", .list [.string "items", .string "default", .list [], .list [],
    .string "item", .list []]]])

/-- The form alone. -/
def start : World (List (Event × String × List String)) Event := .start #[setUp] []

/-- Hear of what handles report, and empty the field. -/
def edit : Program (List (Event × String × List String)) Event (Except Fault Unit) := do
  for signal in [Signal.fieldChange, .fieldRemoved, .fieldValid, .fieldInvalid] do
    let _ ← Program.register 0 (.internal signal) (.internal signal)
  field.edit (.fixed (.string ""))

/-- What is reported of the three batches that succeed. -/
def reported : List (Event × String × List String) :=
  [(.external .change, "", ["text", ""]),
   (.internal .fieldChange, "label", ["text", ""]),
   (.internal .fieldInvalid, "label", ["array", "empty"]),
   (.external .change, "", ["text", ""]),
   (.internal .fieldChange, "items", ["array", "item"]),
   (.internal .fieldInvalid, "items", ["array", "full"]),
   (.external .change, "", ["array", "full"]),
   (.internal .fieldRemoved, "label", []),
   (.internal .fieldValid, "label", ["array"])]

end Insistent

/-- Host code that uses handles leaves the reports to them. -/
theorem HandleOperation.reticent (op : HandleOperation κ) (form : FormId) :
    (op.program : Program σ κ _).Uses (Call.Reticent form) :=
  op.uses trivial fun _ => trivial

namespace Insistent

theorem callbacks_reticent : callbacks.Uses (Call.Reticent 0) where
  update _ _ := Program.uses_pure _
  errors _ _ := Program.uses_pure _
  listen _ _ _ := Program.uses_pure _
  handle event form payload := by
    refine (Program.uses_call.2 trivial).bind fun heard =>
      (Program.uses_call.2 trivial).bind fun _ => ?_
    split
    · exact ((HandleOperation.edit missing (.fixed .null)).reticent 0).bind fun _ =>
        ((HandleOperation.append container).reticent 0).bind fun _ =>
          ((HandleOperation.remove field).reticent 0).bind fun _ => Program.uses_pure _
    · exact Program.uses_pure _
  follow _ _ _ := Program.uses_pure _

theorem edit_reticent : edit.Uses (Call.Reticent 0) :=
  ⟨trivial, fun _ => ⟨trivial, fun _ => ⟨trivial, fun _ => ⟨trivial, fun _ =>
    (HandleOperation.edit field (.fixed (.string ""))).reticent 0⟩⟩⟩⟩

end Insistent

open Insistent in
theorem handle_events_nested : ∃ answer w' stretches live',
    edit.run callbacks 6 start = .ok (answer, w')
      ∧ Course callbacks 0 start setUp stretches w' live'
      ∧ w'.memory = reported
      ∧ ((stretchRounds stretches).flatMap (Round.signals true)).map seen = reported
      ∧ AreEmissions 0 ((stretchRounds stretches).flatMap (Round.due true))
        ((stretchRounds stretches).flatMap Round.reports)
      ∧ (stretchRounds stretches).filterMap Round.version? = [1, 2, 3] := by
  have hcheck : (match edit.run callbacks 6 start with
      | .ok (_, w) => decide (w.memory = reported ∧ (signalsIn 0 w.journal.reverse).map seen = reported
        ∧ (w.form? 0).map (fun found => found.store.version) = some 3)
      | .error _ => false) = true := by decide +kernel
  split at hcheck
  · next answer w' hrun =>
    obtain ⟨hmemory, hsignals, hversion⟩ := of_decide_eq_true hcheck
    have hlive : start.form? 0 = some setUp := rfl
    obtain ⟨stretches, live', hcourse, hemissions, hreticent, hversions, -⟩ :=
      handle_events hlive rfl rfl rfl hrun
    have hplaced : setUp.channels.Placed := (Channels.wired_connected.registerAll _).own
    rw [hcourse.wrote.journal_of_start, hreticent hplaced callbacks_reticent edit_reticent] at hsignals
    have hcount : (stretchRounds stretches).countP Round.landed = 3 := by
      rw [hcourse.found] at hversion
      have hthree : live'.store.version = 3 := by simpa using hversion
      have hzero : setUp.store.version = 0 := rfl
      have hadds := hcourse.version
      omega
    exact ⟨answer, w', stretches, live', hrun, hcourse, hmemory, hsignals, (hemissions _).2 rfl,
      by rw [hversions, hcount]; rfl⟩
  · cases hcheck

end FormTree
