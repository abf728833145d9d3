import FormTree.Proofs.Document.Directory
import FormTree.Proofs.Editing.Batches
import FormTree.Proofs.Execution.Snapshots
import FormTree.Proofs.Validity.Hearing
import FormTree.Proofs.Validity.Invalid
import Mathlib.Data.Set.Card

/-!
# The queue of invalid names mirrors the edits of fields

In a run that edits fields of a form through the handles of a directory, wherever in the host's code
and however deep inside the reports of other edits, the queue of invalid names holds exactly the
names of the validated fields whose latest edit left errors.  Host code that is registered for both
events about invalid names hears of them in turn, and what it heard last is how things stand.

The edits that count are those that were applied, and their order is that of the rounds in which they
were, not that of the calls that asked for them.
-/

namespace FormTree

open Program (slotOf messagesAt)

variable {σ κ α : Type} {form : FormId}

/-! ## Edits of fields -/

/-- What is submitted is an edit of a field that has a name. -/
def Directory.Edits (directory : Directory κ) (submission : Submission κ) : Prop :=
  ∃ name h update, directory.get? name = some (.field h) ∧ submission = h.editSubmission update

/-- What is submitted to the form edits a field that has a name, and nobody but the form itself
signals or tells whether names are invalid. -/
def Call.Edits (form : FormId) (directory : Directory κ) : Call σ κ → Prop
  | .submit other submission => other = form → directory.Edits submission
  | c => c.Silent form

/-- An edit of a field, if the batch of the round was one and succeeded: the name and the state that
the edit led to. -/
def Round.edit? (r : Round κ) : Option (String × Data) :=
  match r.result, r.submission.after with
  | .ok l, some (.fieldEdited _ name _) => some (name, l.state)
  | _, _ => none

/-- The state that the latest edit of a field led to. -/
def latestEdit (rounds : List (Round κ)) (name : String) : Option Data :=
  (rounds.filterMap Round.edit?).reverse.lookup name

/-- In a state there are errors in the slot of the field. -/
def FieldHandle.HasErrors (h : FieldHandle κ) (state : Data) : Prop :=
  ∃ first rest, slotOf (state.node? h.path) Kind.field.errorsAt = some (.list (first :: rest))

/-- The name is that of a validated field, and its latest edit left errors. -/
def LeftErrors (directory : Directory κ) (rounds : List (Round κ)) (name : String) : Prop :=
  ∃ h state, directory.get? name = some (.field h) ∧ h.validator.isSome
    ∧ latestEdit rounds name = some state ∧ h.HasErrors state

section Calls

variable {directory : Directory κ} {c : Call σ κ}

theorem Call.Edits.silent (h : c.Edits form directory) : c.Silent form := by
  cases c <;> trivial

theorem Call.Edits.submits (h : c.Edits form directory) : c.Submits form directory.Edits := by
  cases c <;> trivial

theorem Call.Silent.discreet (h : c.Silent form) : c.Discreet form := by
  cases c <;> first | trivial | exact h | exact fun hform => (h hform).1

/-- An edit with a handle of the directory. -/
theorem FieldHandle.edit_edits {h : FieldHandle κ} {name : String}
    (hname : directory.get? name = some (.field h)) (update : Update κ) :
    (h.edit update : Program σ κ _).Uses (Call.Edits form directory) := by
  refine (Program.uses_call.2 ?_).bind fun _ => Program.uses_pure _
  exact fun _ => ⟨name, h, update, hname, rfl⟩

end Calls

/-! ## What an edit leaves in the errors slot -/

/-- After an edit of a validated field, there are errors in its slot exactly if there are messages to
report. -/
theorem FieldHandle.hasErrors_iff {host : Host σ κ} {fuel : Nat} {w w' : World σ κ}
    {live : LiveForm κ} {h : FieldHandle κ} {update : Update κ} {next : Data}
    (hlive : w.form? form = some live) (hvalidated : h.validator.isSome)
    (hrun : Run.compute host (Program.run host fuel) form (h.editBatch update) w
      = .ok (.ok next, w')) :
    h.HasErrors next ↔ messagesAt (next.node? h.path) Kind.field.errorsAt ≠ [] := by
  obtain ⟨definition, hdefinition⟩ := h.exists_definition hlive hrun
  obtain ⟨value, texts, last, -, hresult, htexts, hreplaced⟩ :=
    h.compute_edit hlive hdefinition hrun
  obtain rfl := Except.ok.inj hresult
  rw [hvalidated] at htexts
  obtain ⟨errors, rfl⟩ := Option.isSome_iff_exists.1 htexts
  have hslot : slotOf (next.node? h.path) Kind.field.errorsAt = some (Data.ofTexts errors) := by
    rw [Data.node?_replace? hreplaced]
    exact getElem?_putTexts_self
  rw [HasErrors, messagesAt, hslot, Option.map_some, Option.getD_some, Data.texts_ofTexts]
  cases errors <;> simp [Data.ofTexts]

/-! ## The verdicts of rounds -/

/-- The verdict that a round reports. -/
def Round.verdict? (r : Round κ) : Option (String × List String) :=
  match r.result with
  | .error _ => none
  | .ok l => r.submission.after.bind (·.verdict? l.state)

theorem Round.Lawful.verdictsIn_eq {s : Store κ} {r : Round κ} (h : r.Lawful form s) :
    verdictsIn form (r.occurrences form) = r.verdict?.toList := by
  rw [h.verdicts, verdict?]
  cases r.result <;> rfl

theorem Occurrence.Quiet.no_verdict {o : Occurrence κ} (h : o.Quiet form) :
    verdictsIn form [o] = [] := by
  cases o with
  | followed other after state =>
    have hne : other ≠ form := h
    cases after <;> simp [verdictsIn, hne]
  | _ => rfl

/-- The verdicts in the journal are those of the rounds. -/
theorem verdictsIn_stretches {stretches : List (Stretch κ)}
    (hquiet : ∀ o, .quiet o ∈ stretches → o.Quiet form)
    (hlawful : ∀ r ∈ stretchRounds stretches, ∃ s, r.Lawful form s) :
    verdictsIn form (stretchEntries form stretches)
      = (stretchRounds stretches).filterMap Round.verdict? := by
  have hrounds : ∀ rounds : List (Round κ), (∀ r ∈ rounds, ∃ s, r.Lawful form s) →
      verdictsIn form (roundEntries form rounds) = rounds.filterMap Round.verdict? := by
    intro rounds hlawful
    induction rounds with
    | nil => rfl
    | cons r rest ih =>
      obtain ⟨s, hfirst⟩ := hlawful r (by simp)
      rw [roundEntries_cons, verdictsIn_append, hfirst.verdictsIn_eq,
        ih fun other h => hlawful other (by simp [h]), List.filterMap_cons]
      cases r.verdict? <;> rfl
  induction stretches with
  | nil => rfl
  | cons stretch rest ih =>
    have hrest := ih (fun o ho => hquiet o (by simp [ho])) fun r hr =>
      hlawful r (List.mem_append_right _ hr)
    rw [stretchEntries, List.flatMap_cons, verdictsIn_append]
    rw [stretchRounds, List.flatMap_cons, List.filterMap_append]
    refine congrArg₂ (· ++ ·) ?_ hrest
    cases stretch with
    | quiet o => exact (hquiet o (by simp)).no_verdict
    | dispatch rounds => exact hrounds rounds fun r hr => hlawful r (List.mem_append_left _ hr)

/-! ## The latest verdict is that of the latest edit -/

/-- How the errors of a name are read off a state, if its field is validated. -/
def Directory.judge? (directory : Directory κ) (name : String) : Option (Data → List String) :=
  match directory.get? name with
  | some (.field h) =>
    if h.validator.isSome then some fun state => messagesAt (state.node? h.path) Kind.field.errorsAt
    else none
  | _ => none

/-- The verdict on an edit. -/
def Directory.verdict? (directory : Directory κ) (edit : String × Data) :
    Option (String × List String) :=
  (directory.judge? edit.1).map fun judge => (edit.1, judge edit.2)

section Verdicts

variable {directory : Directory κ} {rounds : List (Round κ)} {name : String}

/-- A round that edits a field reports the verdict on its edit. -/
theorem Round.verdict?_of_edits {r : Round κ}
    (hnames : ∀ name h, directory.get? name = some (.field h) → h.namePath = name)
    (h : directory.Edits r.submission) : r.verdict? = r.edit?.bind directory.verdict? := by
  obtain ⟨submission, against, asked, result⟩ := r
  obtain ⟨name, h, update, hname, rfl⟩ := h
  cases result with
  | error e => rfl
  | ok l =>
    obtain rfl := hnames name h hname
    cases hvalidated : h.validator.isSome <;> simp [verdict?, edit?, FieldHandle.editSubmission,
      After.verdict?, Directory.verdict?, Directory.judge?, hname, hvalidated]

/-- The latest verdict on a name is the verdict on its latest edit. -/
theorem Directory.lookup_verdict? (edits : List (String × Data)) :
    (edits.filterMap directory.verdict?).lookup name
      = (directory.judge? name).bind fun judge => (edits.lookup name).map judge := by
  induction edits with
  | nil => cases directory.judge? name <;> rfl
  | cons edit rest ih =>
    obtain ⟨other, state⟩ := edit
    by_cases h : other = name
    · subst h
      cases hjudge : directory.judge? other with
      | none =>
        rw [hjudge] at ih
        simpa [List.filterMap_cons, verdict?, hjudge] using ih
      | some judge => simp [verdict?, hjudge]
    · have hskip : (name == other) = false := beq_eq_false_iff_ne.2 (Ne.symm h)
      rw [List.lookup_cons, hskip, ← ih, List.filterMap_cons]
      cases hjudge : directory.judge? other with
      | none => simp [verdict?, hjudge]
      | some judge => simp [verdict?, hjudge, List.lookup_cons, hskip]

theorem lastVerdict_rounds
    (hnames : ∀ name h, directory.get? name = some (.field h) → h.namePath = name)
    (hedits : ∀ r ∈ rounds, directory.Edits r.submission) :
    lastVerdict (rounds.filterMap Round.verdict?) name
      = (directory.judge? name).bind fun judge => (latestEdit rounds name).map judge := by
  have hverdicts : rounds.filterMap Round.verdict?
      = (rounds.filterMap Round.edit?).filterMap directory.verdict? := by
    rw [List.filterMap_filterMap]
    exact List.filterMap_congr fun r hr => Round.verdict?_of_edits hnames (hedits r hr)
  rw [lastVerdict, latestEdit, hverdicts, ← List.filterMap_reverse, Directory.lookup_verdict?]

/-- The state of the latest edit is one that a round led to which edited the field. -/
theorem exists_round_of_latestEdit {state : Data}
    (hnames : ∀ name h, directory.get? name = some (.field h) → h.namePath = name)
    (hedits : ∀ r ∈ rounds, directory.Edits r.submission)
    (hlatest : latestEdit rounds name = some state) :
    ∃ r ∈ rounds, ∃ h update l, directory.get? name = some (.field h)
      ∧ r.submission = h.editSubmission update ∧ r.result = .ok l ∧ l.state = state := by
  obtain ⟨before, behind, hsplit, -⟩ := List.lookup_eq_some_iff.1 hlatest
  have hmem : (name, state) ∈ rounds.filterMap Round.edit? := by
    rw [← List.mem_reverse, hsplit]
    simp
  obtain ⟨r, hr, hedit⟩ := List.mem_filterMap.1 hmem
  obtain ⟨other, h, update, hname, hsubmission⟩ := hedits r hr
  cases hresult : r.result with
  | error e => simp [Round.edit?, hresult] at hedit
  | ok l =>
    obtain ⟨rfl, rfl⟩ : h.namePath = name ∧ l.state = state := by
      simpa [Round.edit?, hresult, hsubmission, FieldHandle.editSubmission] using hedit
    obtain rfl := hnames other h hname
    exact ⟨r, hr, h, update, l, hname, hsubmission, hresult, rfl⟩

/-- A name is invalid by its latest verdict exactly if its latest edit left errors. -/
theorem leftErrors_iff {host : Host σ κ}
    (hnames : ∀ name h, directory.get? name = some (.field h) → h.namePath = name)
    (hedits : ∀ r ∈ rounds, directory.Edits r.submission)
    (hreduced : ∀ r ∈ rounds, ∃ shot, r.Consistent host form shot) :
    LeftErrors directory rounds name
      ↔ ∃ errors, lastVerdict (rounds.filterMap Round.verdict?) name = some errors ∧ errors ≠ [] := by
  -- the slot of an edited field has errors exactly if there are messages
  have hslot : ∀ h state, directory.get? name = some (.field h) → h.validator.isSome →
      latestEdit rounds name = some state →
      (h.HasErrors state ↔ messagesAt (state.node? h.path) Kind.field.errorsAt ≠ []) := by
    intro h state hname hvalidated hlatest
    obtain ⟨r, hr, found, update, l, hfound, hsubmission, hresult, rfl⟩ :=
      exists_round_of_latestEdit hnames hedits hlatest
    obtain rfl := Entry.field.inj (Option.some.inj (hname.symm.trans hfound))
    obtain ⟨shot, hconsistent⟩ := hreduced r hr
    obtain ⟨fuel, v, live, u, hlive, hshot, ⟨hreduces, -⟩, -⟩ := hconsistent.reduced
    rw [hconsistent.against, ← hshot] at hreduces
    have hcompute := (Run.compute_eq hlive).trans hreduces
    rw [hsubmission, hresult] at hcompute
    exact h.hasErrors_iff hlive hvalidated hcompute
  rw [lastVerdict_rounds hnames hedits]
  constructor
  · rintro ⟨h, state, hname, hvalidated, hlatest, herrors⟩
    have hjudge : directory.judge? name
        = some fun state => messagesAt (state.node? h.path) Kind.field.errorsAt := by
      simp [Directory.judge?, hname, hvalidated]
    rw [hjudge, hlatest]
    exact ⟨_, rfl, (hslot h state hname hvalidated hlatest).1 herrors⟩
  · rintro ⟨errors, hlast, herrors⟩
    obtain ⟨judge, hjudge, hlast⟩ := Option.bind_eq_some_iff.1 hlast
    obtain ⟨state, hlatest, rfl⟩ := Option.map_eq_some_iff.1 hlast
    obtain ⟨r, hr, h, update, l, hname, -⟩ := exists_round_of_latestEdit hnames hedits hlatest
    rw [Directory.judge?, hname] at hjudge
    obtain ⟨hvalidated, ⟨⟩⟩ := Option.ite_none_right_eq_some.1 hjudge
    exact ⟨h, state, hname, hvalidated, hlatest,
      (hslot h state hname hvalidated hlatest).2 herrors⟩

end Verdicts

/-! ## Runs -/

/-- A form at rest with nothing waiting, that reports verdicts and has no invalid name. -/
structure Untroubled (form : FormId) (w : World σ κ) (live : LiveForm κ) : Prop extends
    Watched form w live where
  external : live.channels.external.Sound
  rest : live.store.AtRest
  clear : ∀ name, name ∉ live.channels.invalid

/-- A new form is untroubled. -/
theorem LiveForm.untroubled_create {w : World σ κ} {profile : Profile}
    {handlers : List (HostEvent × κ)} {initial : Data}
    (hlive : w.form? form = some (.create profile handlers initial))
    (hverdicts : profile.settings.fieldValidity = true) :
    Untroubled form w (.create profile handlers initial) where
  found := hlive
  wired := Channels.wired_connected.registerAll handlers
  reports := hverdicts
  external := (Channels.sound_connected.registerAll _).external
  rest := ⟨rfl, rfl⟩
  clear name := by
    have hempty : (create profile handlers initial).channels.invalid = .empty :=
      (Channels.invalid_registerAll ..).trans (Channels.invalid_registerAll ..)
    rw [hempty]
    exact IdQueue.not_mem_empty name

theorem IdQueue.size_eq_ncard (q : IdQueue) : q.size = {name | name ∈ q}.ncard := by
  have hset : {name | name ∈ q} = ↑q.members.toFinset := by
    ext name
    simp [IdQueue.mem_def]
  rw [hset, Set.ncard_coe_finset, List.toFinset_card_of_nodup q.nodup]
  rfl

/-- In the end of a run the form stands as the edits of its rounds have left it. -/
structure Mirrored (host : Host σ κ) (form : FormId) (directory : Directory κ) (live : LiveForm κ)
    (entries : List (Occurrence κ)) (rounds : List (Round κ)) (w' : World σ κ)
    (live' : LiveForm κ) : Prop where
  edits : ∀ r ∈ rounds, directory.Edits r.submission
  /-- A name is reported invalid exactly if its latest edit left errors. -/
  mem : ∀ name, name ∈ live'.channels.invalid ↔ LeftErrors directory rounds name
  /-- Who counts the invalid names gets the number of those names. -/
  counted : ∀ depth, ((Program.waiting form .invalid).run host (depth + 1) w').map Prod.fst
    = .ok {name | LeftErrors directory rounds name}.ncard
  /-- Who was registered all the time heard of invalid names and of none in turn, -/
  turns : ∀ who : Attendant κ, who.Attends live.channels → who.Stays form entries →
    InTurn true false (who.heard form entries)
  /-- and of invalid names last exactly if there are some. -/
  last : ∀ who : Attendant κ, who.Attends live.channels → who.Stays form entries →
    ((who.heard form entries).getLast? = some true ↔ ∃ name, LeftErrors directory rounds name)

/-- Whatever edits of fields are made on an untroubled form with the handles of a directory, and
wherever host code makes them, in the end the invalid names are those of the fields whose latest edit
left errors, and the host has heard of them in turn. -/
theorem invalid_mirrors_edits {host : Host σ κ} {fuel : Nat} {config : Config κ} {rendered : Data}
    {directory : Directory κ} {p : Program σ κ α} {a : α} {w w' : World σ κ} {live : LiveForm κ}
    (hread : Directory.read? config form rendered = some directory)
    (hlive : Untroubled form w live) (hhost : host.Uses (Call.Edits form directory))
    (hp : p.Uses (Call.Edits form directory)) (hrun : p.run host fuel w = .ok (a, w')) :
    ∃ stretches live', Course host form w live stretches w' live'
      ∧ Mirrored host form directory live (stretchEntries form stretches) (stretchRounds stretches)
        w' live' := by
  have hnames : ∀ name h, directory.get? name = some (.field h) → h.namePath = name :=
    fun _ _ => Directory.namePath_of_read? hread
  obtain ⟨stretches, live', hunfolds, hedits⟩ := Program.run_permitted
    (hhost.mono fun _ => Call.Edits.submits) (hp.mono fun _ => Call.Edits.submits) hlive.found
    hlive.rest.dispatching (by simp [hlive.rest.pending]) hrun
  have hcourse := hunfolds.course
  -- the verdicts of the run are settled in the queue
  obtain ⟨entries, settled, hwrote, hsettled, -, hqueue⟩ :=
    Program.run_settles (hhost.mono fun _ h => h.silent.discreet) fuel p
      (hp.mono fun _ h => h.silent.discreet) hrun live hlive.toWatched
  obtain rfl := hwrote.unique hcourse.wrote
  obtain rfl := Option.some.inj (hsettled.found.symm.trans hcourse.found)
  have hlawful : ∀ r ∈ stretchRounds stretches, ∃ s, r.Lawful form s := fun r hr => by
    obtain ⟨_, _, before, _, _, hran⟩ := hcourse.ran r hr
    exact ⟨before.store, hran.lawful⟩
  have hmem : ∀ name, name ∈ settled.channels.invalid
      ↔ LeftErrors directory (stretchRounds stretches) name := by
    intro name
    rw [hqueue, IdQueue.mem_foldl_settle, verdictsIn_stretches hcourse.quiet hlawful,
      leftErrors_iff hnames hedits hunfolds.consistent.round, lastVerdict]
    cases ((stretchRounds stretches).filterMap Round.verdict?).reverse.lookup name <;>
      simp [hlive.clear name]
  have hset : {name | name ∈ settled.channels.invalid}
      = {name | LeftErrors directory (stretchRounds stretches) name} := Set.ext hmem
  -- what is heard leads from no invalid name to those of the end
  have hheard : ∀ who : Attendant κ, who.Attends live.channels →
      who.Stays form (stretchEntries form stretches) →
      Alternates false (who.heard form (stretchEntries form stretches))
        settled.channels.troubled := by
    intro who hattends hstays
    obtain ⟨entries, heard, hwrote', hlistened, hhears, -⟩ :=
      Program.run_hears (hhost.mono fun _ => Call.Edits.silent) who fuel p
        (hp.mono fun _ => Call.Edits.silent) hrun live ⟨hlive.found, hlive.wired, hlive.external⟩
    obtain rfl := hwrote'.unique hcourse.wrote
    obtain rfl := Option.some.inj (hlistened.found.symm.trans hcourse.found)
    have hclear : live.channels.troubled = false :=
      Channels.troubled_eq_false.2 (List.eq_nil_iff_forall_not_mem.2 hlive.clear)
    exact hclear ▸ (hhears hattends hstays).2
  have htroubled : settled.channels.troubled = true
      ↔ ∃ name, LeftErrors directory (stretchRounds stretches) name := by
    rw [Channels.troubled_eq_true, ne_eq, List.eq_nil_iff_forall_not_mem, not_forall_not]
    exact exists_congr hmem
  refine ⟨stretches, settled, hcourse, hedits, hmem, fun depth => ?_,
    fun who hattends hstays => (hheard who hattends hstays).inTurn,
    fun who hattends hstays => ?_⟩
  · rw [Program.run_waiting hcourse.found, ← hset, ← IdQueue.size_eq_ncard]
    rfl
  · rw [← htroubled, ← (hheard who hattends hstays).getLast?_getD]
    cases (who.heard form (stretchEntries form stretches)).getLast? <;> simp

/-! ## Edits inside the reports of edits -/

namespace Exchange

/-- Text fields are validated by the same callback, whatever their rules are. -/
def config : Config Nat where
  fieldTypes := ["text"]
  fallbackField := false
  handled := []
  validator := some fun _ => 0
  templates := []
  settings := {}

/-- A validated text field. -/
def field (name : String) : Data :=
  .list [.string "field", .list [.string name, .string "text", .string "x", .null,
    .list [.string "object", .list [.list [.string "validation",
      .list [.string "object", .list []]]]]]]

/-- A form of two fields. -/
def initial : Data := .list [field "a", field "b"]

def a : FieldHandle Nat := ⟨0, [0, 1], "a", some 0⟩

def b : FieldHandle Nat := ⟨0, [1, 1], "b", some 0⟩

/-- The empty text is an error.  Host code that hears of invalid names empties the second field the
first time it is called, and the first field the second time. -/
def callbacks : Host Nat Nat where
  update _ previous := pure previous
  errors _ value := pure (match value with
    | .string "" => ["must be filled"]
    | _ => [])
  listen _ _ _ := pure ()
  handle _ _ _ := do
    let calls ← Program.memory
    Program.setMemory (calls + 1)
    if calls = 0 then
      let _ ← b.edit (.fixed (.string ""))
    else if calls = 1 then
      let _ ← a.edit (.fixed (.string ""))
  follow _ _ _ := pure ()

/-- Empty the first field, and fill it and the second field again. -/
def session : Program Nat Nat Unit := do
  let _ ← a.edit (.fixed (.string ""))
  let _ ← a.edit (.fixed (.string "x"))
  let _ ← b.edit (.fixed (.string "x"))

/-- The form, with a callback for both events. -/
def setUp : LiveForm Nat := .create config.profile [(.invalid, 1), (.valid, 1)] initial

/-- The form alone. -/
def start : World Nat Nat := .start #[setUp] 0

/-- The callback, with the ids of its registrations. -/
def who : Attendant Nat := ⟨1, ⟨2, 0⟩, ⟨3, 0⟩⟩

theorem who_attends : who.Attends setUp.channels := by
  rintro (_ | _)
  · exact List.mem_singleton.2 rfl
  · exact List.mem_singleton.2 rfl

theorem exists_directory : ∃ directory : Directory Nat,
    Directory.read? config 0 initial = some directory
      ∧ directory.get? "a" = some (.field a) ∧ directory.get? "b" = some (.field b) := by
  have hread : (Directory.read? config 0 initial).map (fun d => (d.get? "a", d.get? "b"))
      = some (some (.field a), some (.field b)) := rfl
  obtain ⟨directory, hdirectory, hnames⟩ := Option.map_eq_some_iff.1 hread
  obtain ⟨ha, hb⟩ := Prod.mk.inj hnames
  exact ⟨directory, hdirectory, ha, hb⟩

section Uses

variable {directory : Directory Nat} (ha : directory.get? "a" = some (.field a))
  (hb : directory.get? "b" = some (.field b))

include ha hb

theorem callbacks_edits : callbacks.Uses (Call.Edits 0 directory) where
  update _ _ := Program.uses_pure _
  errors _ _ := Program.uses_pure _
  listen _ _ _ := Program.uses_pure _
  handle _ _ _ := by
    refine (Program.uses_call.2 trivial).bind fun calls =>
      (Program.uses_call.2 trivial).bind fun _ => ?_
    split
    · exact (FieldHandle.edit_edits hb _).bind fun _ => Program.uses_pure _
    · split
      · exact (FieldHandle.edit_edits ha _).bind fun _ => Program.uses_pure _
      · exact Program.uses_pure _
  follow _ _ _ := Program.uses_pure _

theorem session_edits : session.Uses (Call.Edits 0 directory) :=
  (FieldHandle.edit_edits ha _).bind fun _ => (FieldHandle.edit_edits ha _).bind fun _ =>
    (FieldHandle.edit_edits hb _).bind fun _ => Program.uses_pure _

end Uses

/-- Whether an entry is about the removal of a handler. -/
def removal : Occurrence Nat → Bool
  | .removed .. => true
  | _ => false

/-- The callback heard of invalid names twice, and of none in between, and no handler was removed; in
the end the first field is invalid. -/
def Ended (w : World Nat Nat) : Prop :=
  who.heard 0 w.journal.reverse = [true, false, true] ∧ w.journal.reverse.any removal = false
    ∧ (w.form? 0).map (fun live => live.channels.invalid.members) = some ["a"]

instance (w : World Nat Nat) : Decidable (Ended w) := inferInstanceAs (Decidable (_ ∧ _))

theorem session_run : ∃ w', session.run callbacks 12 start = .ok ((), w') ∧ Ended w' := by
  have hcheck : (session.run callbacks 12 start).toOption.any (fun result => Ended result.2)
      = true := by
    decide +kernel
  obtain ⟨⟨_, w'⟩, hrun, hended⟩ := (Option.any_eq_true ..).1 hcheck
  exact ⟨w', toOption_eq_some.1 hrun, of_decide_eq_true hended⟩

end Exchange

open Exchange in
theorem invalid_mirrors_edits_nested : ∃ directory w' stretches live',
    Directory.read? config 0 initial = some directory
      ∧ session.run callbacks 12 start = .ok ((), w')
      ∧ Course callbacks 0 start setUp stretches w' live'
      ∧ Mirrored callbacks 0 directory setUp (stretchEntries 0 stretches)
        (stretchRounds stretches) w' live'
      ∧ who.Attends setUp.channels ∧ who.Stays 0 (stretchEntries 0 stretches)
      ∧ who.heard 0 (stretchEntries 0 stretches) = [true, false, true]
      ∧ {name | LeftErrors directory (stretchRounds stretches) name} = {"a"} := by
  obtain ⟨directory, hread, ha, hb⟩ := exists_directory
  obtain ⟨w', hrun, hheard, hremoval, hmembers⟩ := session_run
  obtain ⟨stretches, live', hcourse, hmirrored⟩ := invalid_mirrors_edits hread
    (LiveForm.untroubled_create rfl rfl) (callbacks_edits ha hb) (session_edits ha hb) hrun
  have hjournal : w'.journal.reverse = stretchEntries 0 stretches := by
    have hwrote := hcourse.wrote
    rw [World.Wrote] at hwrote
    simp [hwrote, start, World.start]
  rw [hjournal] at hheard hremoval
  rw [hcourse.found] at hmembers
  have hleft : live'.channels.invalid.members = ["a"] := Option.some.inj hmembers
  refine ⟨directory, w', stretches, live', hread, hrun, hcourse, hmirrored, who_attends,
    fun invalid hmem => ?_, hheard, Set.ext fun name => ?_⟩
  · simpa [removal] using List.any_eq_false.1 hremoval _ hmem
  · rw [Set.mem_singleton_iff, ← List.mem_singleton, ← hleft]
    exact (hmirrored.mem name).symm

end FormTree
