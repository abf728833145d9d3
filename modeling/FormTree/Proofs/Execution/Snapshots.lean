import FormTree.Proofs.Execution.Unfolding

/-!
# One snapshot at a time

Host code can look at a store at any moment, and it is passed states when it listens or follows up.
While a batch is reduced, the store shows what it showed before the batch.  From the swap to the end
of the follow-up it shows what the batch made of it, and that is also what everybody is passed,
whatever those who were called earlier have submitted meanwhile.

A form is `Steady` at a snapshot if whoever looks is answered with it, whatever programs have run
since.  `Round.Consistent` says of one round at which snapshots the form is steady and what the
callbacks are run with, `Consistent` says it of all that happens in a run, and
`consistent_snapshots` shows it for every program, every host and both policies.
-/

namespace FormTree

variable {σ κ α : Type}

/-! ## Snapshots along a run -/

/-- What a store shows after a round. -/
def Snapshot.after (shot : Snapshot) (r : Round κ) : Snapshot :=
  match r.result with
  | .error _ => shot
  | .ok l => ⟨l.state, l.version⟩

/-- Who looks at the form in a world is answered with a view of the snapshot, and the journal has that
view. -/
def Tells (host : Host σ κ) (form : FormId) (shot : Snapshot) (w : World σ κ) : Prop :=
  ∀ depth, ∃ view, (Program.look form).run host (depth + 1) w = .ok (view, w.note (.looked form view))
    ∧ view.state = shot.state ∧ view.version = shot.version

/-- Whatever program has run since a world, who looks at the form then is answered with a view of the
snapshot. -/
def Steady (host : Host σ κ) (fuel : Nat) (form : FormId) (shot : Snapshot) (w : World σ κ) : Prop :=
  ∀ (β : Type) (q : Program σ κ β) b u, q.run host fuel w = .ok (b, u) → Tells host form shot u

/-- A program ran and wrote the given entries, while the form was steady at a snapshot. -/
structure Program.SawOnly (host : Host σ κ) (form : FormId) (shot : Snapshot) (p : Program σ κ Unit)
    (entries : List (Occurrence κ)) : Prop where
  ran : ∃ fuel v u, p.run host fuel v = .ok ((), u) ∧ v.Wrote entries u
    ∧ Steady host fuel form shot v
  shows : ∀ o ∈ entries, o.Shows form shot

/-- A round shows one snapshot until its batch is reduced, and one after the swap. -/
structure Round.Consistent (host : Host σ κ) (form : FormId) (before : Snapshot) (r : Round κ) :
    Prop where
  against : r.against = before.state
  /-- The result is what the reduction of the whole batch gave where the form showed the snapshot, and
  the form is steady at it all the time that host code is asked for updates and errors. -/
  reduced : ∃ (fuel : Nat) (v : World σ κ) (live : LiveForm κ) (u : World σ κ),
    v.form? form = some live ∧ live.store.snapshot = before
    ∧ r.Reduces host fuel (v.note (.began form r.submission.batch r.against)) u
    ∧ Steady host fuel form before (v.note (.began form r.submission.batch r.against))
  /-- Who is asked for updates and errors sees what was there before the batch. -/
  asked : ∀ o ∈ r.asked, o.Shows form before
  version : ∀ l, r.result = .ok l → l.version = before.version + 1
  /-- Who is called is called with the new state, and sees that state and its version. -/
  heard : ∀ l, r.result = .ok l → ∀ call ∈ l.heard,
    (call.1.program host form l.state).SawOnly host form ⟨l.state, l.version⟩ call.2
  /-- Who follows up on the batch does so with the new state, and sees that state and its version. -/
  afterwards : ∀ l, r.result = .ok l → ∀ after ∈ r.submission.after,
    (after.program host form l.state).SawOnly host form ⟨l.state, l.version⟩ l.afterwards
  /-- If nothing comes after the batch, nothing happens then. -/
  nothing : ∀ l, r.result = .ok l → r.submission.after = none → l.afterwards = []

/-- Each round of a dispatch starts from the snapshot that the one before it left. -/
def RoundsConsistent (host : Host σ κ) (form : FormId) : Snapshot → List (Round κ) → Prop
  | _, [] => True
  | shot, r :: rest => r.Consistent host form shot ∧ RoundsConsistent host form (shot.after r) rest

/-- At every moment of a run the form shows one snapshot: the given one at the beginning, and then
the one that the rounds so far have led to. -/
def Consistent (host : Host σ κ) (form : FormId) : Snapshot → List (Stretch κ) → Prop
  | _, [] => True
  | shot, .quiet o :: rest => o.Shows form shot ∧ Consistent host form shot rest
  | shot, .dispatch rounds :: rest => RoundsConsistent host form shot rounds
      ∧ Consistent host form (rounds.foldl Snapshot.after shot) rest

/-- The state of a form that host code gets to see or is passed. -/
def Occurrence.seen? (form : FormId) : Occurrence κ → Option Data
  | .looked other view => if other = form then some view.state else none
  | .notified other _ state | .followed other _ state | .skipped other _ state =>
    if other = form then some state else none
  | _ => none

variable {host : Host σ κ} {fuel : Nat} {form : FormId} {w w' : World σ κ} {live live' : LiveForm κ}
  {shot : Snapshot} {r : Round κ} {rounds : List (Round κ)} {first second stretches : List (Stretch κ)}

theorem Consistent.append : Consistent host form shot (first ++ second)
    ↔ Consistent host form shot first
      ∧ Consistent host form ((stretchRounds first).foldl Snapshot.after shot) second := by
  induction first generalizing shot with
  | nil => exact (and_iff_right trivial).symm
  | cons stretch rest ih =>
    cases stretch with
    | quiet o =>
      have hrounds : stretchRounds (.quiet o :: rest) = stretchRounds rest := rfl
      simp only [List.cons_append, Consistent, ih, hrounds, and_assoc]
    | dispatch rounds =>
      have hrounds : stretchRounds (.dispatch rounds :: rest) = rounds ++ stretchRounds rest := rfl
      simp only [List.cons_append, Consistent, ih, hrounds, List.foldl_append, and_assoc]

/-- Every round starts from some snapshot. -/
theorem Consistent.round (h : Consistent host form shot stretches) :
    ∀ r ∈ stretchRounds stretches, ∃ start, r.Consistent host form start := by
  have hrounds : ∀ {rounds : List (Round κ)} {shot}, RoundsConsistent host form shot rounds →
      ∀ r ∈ rounds, ∃ start, r.Consistent host form start := by
    intro rounds shot h
    induction rounds generalizing shot with
    | nil => simp
    | cons first rest ih =>
      rintro r (_ | ⟨_, hr⟩)
      · exact ⟨shot, h.1⟩
      · exact ih h.2 r hr
  induction stretches generalizing shot with
  | nil => simp [stretchRounds]
  | cons stretch rest ih =>
    intro r hr
    rw [stretchRounds, List.flatMap_cons, List.mem_append] at hr
    cases stretch with
    | quiet o => exact ih h.2 r (hr.resolve_left (by simp [Stretch.rounds]))
    | dispatch rounds => exact hr.elim (hrounds h.1 r) (ih h.2 r)

/-! ## Rounds are consistent -/

/-- What happens amid a dispatch shows the store as it is. -/
theorem Occurrence.Amid.shows {s : Store κ} {o : Occurrence κ} (h : o.Amid form s) :
    o.Shows form s.snapshot := by
  cases o <;> first | trivial | exact fun hform => absurd hform h | exact h |
    exact fun hform => (h hform).1

theorem Interlude.shows {s : Store κ} {during : List (Occurrence κ)} (h : Interlude form s during) :
    ∀ o ∈ during, o.Shows form s.snapshot := fun o ho => (h o ho).shows

/-- While a form is being dispatched, it is steady at what its store shows. -/
theorem Steady.of_busy (hlive : w.form? form = some live) (hbusy : live.store.dispatching = true) :
    Steady host fuel form live.store.snapshot w := by
  intro β q b u hrun depth
  obtain ⟨_, live', hpasses⟩ := Program.run_passes host fuel q hrun live hlive hbusy
  exact ⟨live'.store.view, (congrFun (Program.run_call (.look form)) u).trans
    (Run.perform_look hpasses.found), hpasses.alike.state, hpasses.alike.version⟩

/-- Listeners that are called amid a dispatch see what the store shows, one after the other. -/
theorem Heard.sawOnly {state : Data} {heard : List (Listener κ × List (Occurrence κ))}
    (h : Heard host fuel form state w live heard w' live') (hlive : w.form? form = some live)
    (hbusy : live.store.dispatching = true) :
    ∀ call ∈ heard,
      (call.1.program host form state).SawOnly host form live.store.snapshot call.2 := by
  induction h with
  | nil => simp
  | @cons _ _ _ live between _ _ _ _ hcall hduring _ ih =>
    have hsame : between.store.snapshot = live.store.snapshot := by
      rw [Store.snapshot, hduring.alike.state, hduring.alike.version]
      rfl
    have hrest := ih hduring.found (hduring.alike.dispatching.trans hbusy)
    rw [hsame] at hrest
    exact List.forall_mem_cons.2 ⟨⟨⟨fuel, _, _, hcall, hduring.wrote, Steady.of_busy hlive hbusy⟩,
      hduring.interlude.shows⟩, hrest⟩

namespace Round.Ran

theorem snapshot (h : Round.Ran host fuel form w live r w' live') :
    live'.store.snapshot = live.store.snapshot.after r := by
  have halike := h.lawful.alike
  rw [Store.snapshot, h.store, halike.state, halike.version, Snapshot.after, outcome]
  cases hresult : r.result with
  | error e => rfl
  | ok l =>
    have hversion := (h.lawful.landing l hresult).version
    rw [h.lawful.asked.alike.version] at hversion
    simp [Store.advance, hversion]

theorem consistent (h : Round.Ran host fuel form w live r w' live')
    (hlive : w.form? form = some live) (hbusy : live.store.dispatching = true) :
    r.Consistent host form live.store.snapshot := by
  have hlawful := h.lawful
  have hasked := hlawful.asked.shows
  obtain ⟨v, hreduces⟩ := h.reduces hlive
  cases h with
  | failed _ _ =>
    exact {
      against := rfl
      reduced := ⟨fuel, w, live, v, hlive, rfl, hreduces, Steady.of_busy hlive hbusy⟩
      asked := hasked
      version := nofun
      heard := nofun
      afterwards := nofun
      nothing := nofun }
  | @landed _ u _ _ asking hearing _ submission next _ _ _ _ hduring hheard _ hfollow hafterwards =>
    have hversion : asking.store.version = live.store.version := hduring.alike.version
    have hbusy₁ := hduring.alike.dispatching.trans hbusy
    have hbusy₂ : hearing.store.dispatching = true := hheard.alike.dispatching.trans hbusy₁
    have hshot : hearing.store.snapshot = ⟨next, asking.store.version + 1⟩ := by
      rw [Store.snapshot, hheard.alike.state, hheard.alike.version]
      rfl
    refine {
      against := rfl
      reduced := ⟨fuel, w, live, v, hlive, rfl, hreduces, Steady.of_busy hlive hbusy⟩
      asked := hasked
      version := by rintro _ ⟨⟩; exact congrArg (· + 1) hversion
      heard := by
        rintro _ ⟨⟩
        exact hheard.sawOnly (World.form?_setForm_self hduring.found _) hbusy₁
      afterwards := ?_
      nothing := ?_ }
    · rintro _ ⟨⟩ after hafter
      rw [show submission.after = some after from hafter] at hfollow hafterwards
      exact ⟨⟨fuel, _, _, hfollow, hafterwards.wrote,
        hshot ▸ Steady.of_busy hheard.found hbusy₂⟩, hshot ▸ hafterwards.interlude.shows⟩
    · rintro _ ⟨⟩ hnone
      rw [show submission.after = none from hnone] at hfollow hafterwards
      obtain rfl : w' = u.note (.followed form none next) := hfollow
      exact hafterwards.wrote.unique (World.wrote_nil.2 rfl)

end Round.Ran

namespace WorkedOff

theorem snapshot (h : WorkedOff host fuel form w live rounds w' live') :
    live'.store.snapshot = rounds.foldl Snapshot.after live.store.snapshot := by
  induction h with
  | nil => rfl
  | cons _ _ hround _ ih => rw [ih, hround.snapshot]; rfl

theorem consistent (h : WorkedOff host fuel form w live rounds w' live')
    (hbusy : live.store.dispatching = true) :
    RoundsConsistent host form live.store.snapshot rounds := by
  induction h with
  | nil => trivial
  | cons hlive _ hround _ ih =>
    refine ⟨hround.consistent (World.form?_setForm_self hlive _) hbusy, ?_⟩
    have hrest := ih (hround.dispatching.trans hbusy)
    rwa [hround.snapshot] at hrest

end WorkedOff

/-! ## Runs are consistent -/

namespace Unfolds

variable {permitted : Submission κ → Prop}

theorem snapshot (h : Unfolds host form permitted w live stretches w' live') :
    live'.store.snapshot = (stretchRounds stretches).foldl Snapshot.after live.store.snapshot := by
  induction h with
  | silent _ _ _ _ hstore => rw [hstore]; rfl
  | quiet hquiet _ _ _ _ _ hstore =>
    rw [Store.snapshot, hstore, hquiet.hear.1.state, hquiet.hear.1.version]
    rfl
  | dispatch _ hworked _ _ =>
    rw [stretchRounds, List.flatMap_singleton]
    exact hworked.snapshot
  | append _ _ ihfirst ihsecond =>
    rw [ihsecond, ihfirst, stretchRounds, stretchRounds, stretchRounds, List.flatMap_append,
      List.foldl_append]

theorem consistent (h : Unfolds host form permitted w live stretches w' live') :
    Consistent host form live.store.snapshot stretches := by
  induction h with
  | silent _ _ _ _ _ => trivial
  | quiet _ hshows _ _ _ _ _ => exact ⟨hshows, trivial⟩
  | dispatch _ hworked _ _ => exact ⟨hworked.consistent rfl, trivial⟩
  | append hfirst _ ihfirst ihsecond =>
    rw [hfirst.snapshot] at ihsecond
    exact Consistent.append.2 ⟨ihfirst, ihsecond⟩

end Unfolds

/-! ## States that are seen -/

section Seen

variable {o : Occurrence κ} {state : Data}

/-- What shows a snapshot passes its state. -/
theorem Occurrence.Shows.seen (h : o.Shows form shot) (hseen : o.seen? form = some state) :
    state = shot.state := by
  cases o with
  | looked other view =>
    obtain ⟨hform, ⟨⟩⟩ := Option.ite_none_right_eq_some.1 hseen
    exact (h hform).1
  | notified other _ passed | followed other _ passed | skipped other _ passed =>
    obtain ⟨hform, ⟨⟩⟩ := Option.ite_none_right_eq_some.1 hseen
    exact h hform
  | _ => cases hseen

/-- Whatever happens after a batch shows what the batch led to. -/
theorem Round.Consistent.shows_afterwards (h : r.Consistent host form shot) {l : Landing κ}
    (hl : r.result = .ok l) : ∀ o ∈ l.afterwards, o.Shows form ⟨l.state, l.version⟩ := by
  cases hafter : r.submission.after with
  | none => simp [h.nothing l hl hafter]
  | some after => exact (h.afterwards l hl after hafter).shows

/-- In a round the state from before is seen, or the one that its batch led to. -/
theorem Round.Consistent.seen (h : r.Consistent host form shot) (ho : o ∈ r.occurrences form)
    (hseen : o.seen? form = some state) :
    state = shot.state ∨ ∃ l, r.result = .ok l ∧ state = l.state := by
  obtain ⟨submission, against, asked, result⟩ := r
  rcases List.mem_cons.1 ho with rfl | ho
  · cases hseen
  rcases List.mem_append.1 ho with ho | ho
  · exact .inl ((h.asked o ho).seen hseen)
  cases result with
  | error e =>
    obtain rfl := List.mem_singleton.1 ho
    cases hseen
  | ok l =>
    refine .inr ⟨l, rfl, ?_⟩
    simp only [Landing.occurrences, heardEntries, List.mem_cons, List.mem_append,
      List.mem_flatMap] at ho
    rcases ho with rfl | ⟨call, hcall, rfl | ho⟩ | rfl | ho
    · cases hseen
    · exact (Option.some.inj (Option.ite_none_right_eq_some.1 hseen).2).symm
    · exact ((h.heard l rfl call hcall).shows o ho).seen hseen
    · exact (Option.some.inj (Option.ite_none_right_eq_some.1 hseen).2).symm
    · exact (h.shows_afterwards rfl o ho).seen hseen

/-- In the rounds of a dispatch the state at their beginning is seen, or one that a batch led to. -/
theorem RoundsConsistent.seen (h : RoundsConsistent host form shot rounds)
    (ho : o ∈ roundEntries form rounds) (hseen : o.seen? form = some state) :
    state = shot.state ∨ ∃ r ∈ rounds, ∃ l, r.result = .ok l ∧ state = l.state := by
  induction rounds generalizing shot with
  | nil => cases ho
  | cons r rest ih =>
    obtain ⟨hfirst, hrest⟩ := h
    rcases List.mem_append.1 ho with ho | ho
    · exact (hfirst.seen ho hseen).imp_right fun hled => ⟨r, by simp, hled⟩
    · rcases ih hrest ho with hstart | ⟨other, hother, hled⟩
      · cases hresult : r.result with
        | error e => exact .inl (by rwa [Snapshot.after, hresult] at hstart)
        | ok l => exact .inr ⟨r, by simp, l, hresult, by rwa [Snapshot.after, hresult] at hstart⟩
      · exact .inr ⟨other, by simp [hother], hled⟩

/-- The state after rounds is the one before them, or one that a batch led to. -/
theorem state_foldl_after (rounds : List (Round κ)) (shot : Snapshot) :
    (rounds.foldl Snapshot.after shot).state = shot.state
      ∨ ∃ r ∈ rounds, ∃ l, r.result = .ok l ∧ (rounds.foldl Snapshot.after shot).state = l.state := by
  induction rounds generalizing shot with
  | nil => exact .inl rfl
  | cons r rest ih =>
    rw [List.foldl_cons]
    rcases ih (shot.after r) with hstart | ⟨other, hother, hled⟩
    · cases hresult : r.result with
      | error e => exact .inl (by rw [hstart, Snapshot.after, hresult])
      | ok l => exact .inr ⟨r, by simp, l, hresult, by rw [hstart, Snapshot.after, hresult]⟩
    · exact .inr ⟨other, by simp [hother], hled⟩

/-- Only the initial state and states that whole batches led to are ever seen. -/
theorem Consistent.seen (h : Consistent host form shot stretches)
    (ho : o ∈ stretchEntries form stretches) (hseen : o.seen? form = some state) :
    state = shot.state
      ∨ ∃ r ∈ stretchRounds stretches, ∃ l, r.result = .ok l ∧ state = l.state := by
  induction stretches generalizing shot with
  | nil => cases ho
  | cons stretch rest ih =>
    rw [stretchEntries, List.flatMap_cons, List.mem_append] at ho
    cases stretch with
    | quiet other =>
      rcases ho with ho | ho
      · obtain rfl := List.mem_singleton.1 ho
        exact .inl (h.1.seen hseen)
      · exact ih h.2 ho
    | dispatch rounds =>
      -- the rounds of this dispatch come first
      have hrounds : stretchRounds (.dispatch rounds :: rest) = rounds ++ stretchRounds rest := rfl
      have hhere : ∀ {seen}, (seen = shot.state ∨ ∃ r ∈ rounds, ∃ l, r.result = .ok l
            ∧ seen = l.state) → seen = shot.state
          ∨ ∃ r ∈ stretchRounds (.dispatch rounds :: rest), ∃ l, r.result = .ok l
            ∧ seen = l.state := by
        rintro seen (hstart | ⟨r, hr, hled⟩)
        · exact .inl hstart
        · exact .inr ⟨r, by simp [hrounds, hr], hled⟩
      rcases ho with ho | ho
      · exact hhere (h.1.seen ho hseen)
      · rcases ih h.2 ho with rfl | ⟨r, hr, hled⟩
        · exact hhere (state_foldl_after rounds shot)
        · exact .inr ⟨r, by simp [hrounds, hr], hled⟩

end Seen

/-- Whatever program runs on a form at rest, and whatever its host does meanwhile, the form shows one
snapshot at a time: while a batch is reduced, the one from before it, and from the swap to the end of
the follow-up, the one that everybody is called with.  So the states that are ever seen are the
initial one and those that whole batches led to.  Who looks is answered with what the store shows at
that moment, and the journal has the answer. -/
theorem consistent_snapshots {p : Program σ κ α} {a : α} (hlive : w.form? form = some live)
    (hrest : live.store.dispatching = false) (hrun : p.run host fuel w = .ok (a, w')) :
    ∃ stretches live', Course host form w live stretches w' live'
      ∧ Unfolds host form (fun _ => True) w live stretches w' live'
      ∧ Consistent host form live.store.snapshot stretches
      ∧ live'.store.snapshot
        = (stretchRounds stretches).foldl Snapshot.after live.store.snapshot
      ∧ (∀ o ∈ stretchEntries form stretches, ∀ state, o.seen? form = some state →
        state = live.store.state
          ∨ ∃ r ∈ stretchRounds stretches, ∃ l, r.result = .ok l ∧ state = l.state)
      ∧ ∀ {depth : Nat} {u u' : World σ κ} {view : StoreView},
        (Program.look form).run host depth u = .ok (view, u') →
          (∃ found, u.form? form = some found ∧ view = found.store.view)
            ∧ u' = u.note (.looked form view) := by
  obtain ⟨stretches, live', h⟩ := Program.run_unfolds host fuel p hrun live hlive hrest
  refine ⟨stretches, live', h.course, h, h.consistent, h.snapshot,
    fun _ ho _ hseen => h.consistent.seen ho hseen, fun hlook => ?_⟩
  obtain ⟨found, hfound, rfl, rfl⟩ := Program.run_look hlook
  exact ⟨⟨found, hfound, rfl⟩, rfl⟩

/-! ## Host code that looks whenever it runs -/

namespace Onlookers

/-- Set the second field. -/
def nested : Submission Nat := ⟨[.editField [1, 1] (.fixed (.bool false))], none, by simp⟩

/-- Compute the first field, check it, and follow up. -/
def outer : Submission Nat :=
  ⟨[.editField [0, 1] (.computed 0), .checkField [0, 1] 0], some (.host 0), by simp [After.Suits]⟩

/-- The values of the two fields. -/
def values (state : Data) : List (Option Bool) :=
  [[0, 1, 2], [1, 1, 2]].map fun path => (state.node? path).bind Data.toBool?

/-- What host code remembers: the version and the values that it saw when it looked, and the values of
the state that it was passed, if it was passed one. -/
abbrev Memory := List (Nat × List (Option Bool) × Option (List (Option Bool)))

/-- Look, and remember what was seen. -/
def observe (passed : Option Data) : Program Memory Nat StoreView := do
  let view ← Program.look 0
  Program.change (· ++ [(view.version, values view.state, passed.map values)])
  return view

/-- Everybody looks; the update and the listener submit a batch before they do. -/
def callbacks : Host Memory Nat where
  update _ _ := do
    let _ ← Program.submit 0 nested
    let _ ← observe none
    return .bool true
  errors _ _ := do
    let _ ← observe none
    return []
  listen _ _ state := do
    let view ← observe (some state)
    if view.version < 2 then
      let _ ← Program.submit 0 nested
    let _ ← observe (some state)
  handle _ _ _ := pure ()
  follow _ _ state := do
    let _ ← observe (some state)

/-- A listener is registered, the batch is submitted, and the program looks. -/
def program : Program Memory Nat Unit := do
  let _ ← Program.subscribe 0 0
  let _ ← Program.submit 0 outer
  let _ ← observe none

/-- A form of two fields. -/
def setUp : LiveForm Nat := .bare (.list [
  .list [.string "field", .list [.string "a", .string "text"]],
  .list [.string "field", .list [.string "b", .string "text"]]]) .queue

/-- The form alone. -/
def start : World Memory Nat := .start #[setUp] []

/-- The version and the values that an occurrence shows, if somebody looks. -/
def looked? : Occurrence Nat → Option (Nat × List (Option Bool))
  | .looked _ view => some (view.version, values view.state)
  | _ => none

/-- Update and validator see the beginning; listener and follow-up see what the batch made of it,
which they are passed, also after they have submitted another; and so on with the two batches that
were queued. -/
def expected : Memory :=
  let first := [some true, none]
  let second := [some true, some false]
  [(0, [none, none], none), (0, [none, none], none),
    (1, first, some first), (1, first, some first), (1, first, some first),
    (2, second, some second), (2, second, some second),
    (3, second, some second), (3, second, some second), (3, second, none)]

/-- Whether they see this, and three batches have been applied. -/
def agrees : Bool :=
  match program.run callbacks 5 start with
  | .ok (_, w) =>
    decide (w.memory = expected
      ∧ w.journal.reverse.filterMap looked? = expected.map (fun entry => (entry.1, entry.2.1))
      ∧ (w.form? 0).map (·.store.version) = some 3)
  | _ => false

end Onlookers

open Onlookers in
theorem consistent_snapshots_nested : ∃ w' stretches live',
    program.run callbacks 5 start = .ok ((), w') ∧ w'.memory = expected
      ∧ w'.journal.reverse.filterMap looked? = expected.map (fun entry => (entry.1, entry.2.1))
      ∧ Unfolds callbacks 0 (fun _ => True) start setUp stretches w' live'
      ∧ Consistent callbacks 0 ⟨setUp.store.state, 0⟩ stretches
      ∧ (stretchRounds stretches).countP Round.landed = 3 := by
  have hcheck : agrees = true := by decide +kernel
  unfold agrees at hcheck
  split at hcheck
  · next w' hrun =>
    obtain ⟨hmemory, hseen, hversion⟩ := of_decide_eq_true hcheck
    obtain ⟨stretches, live', hcourse, hunfolds, hconsistent, -⟩ :=
      consistent_snapshots (show start.form? 0 = some setUp from rfl) rfl hrun
    rw [hcourse.found, Option.map_some, hcourse.version] at hversion
    exact ⟨w', stretches, live', hrun, hmemory, hseen, hunfolds, hconsistent,
      (Nat.zero_add _).symm.trans (Option.some.inj hversion)⟩
  · cases hcheck

end FormTree
