import FormTree.Execution

/-!
# What single steps of a run do

A run either stops or returns a result together with the world it leaves.  For each of the steps
that runs are made of, this module says exactly when it returns and which world it leaves.  Later
modules take runs apart with these equivalences and never unfold a step.
-/

namespace FormTree

variable {σ κ α β : Type} {w v w' : World σ κ} {form other : FormId} {live changed : LiveForm κ}

/-! ## Looking at a changed world -/

namespace World

@[simp] theorem form?_note (w : World σ κ) (o : Occurrence κ) (form : FormId) :
    (w.note o).form? form = w.form? form := rfl

@[simp] theorem journal_note (w : World σ κ) (o : Occurrence κ) :
    (w.note o).journal = o :: w.journal := rfl

@[simp] theorem journal_setForm (w : World σ κ) (form : FormId) (live : LiveForm κ) :
    (w.setForm form live).journal = w.journal := rfl

theorem form?_setForm_self (h : w.form? form = some live) (changed : LiveForm κ) :
    (w.setForm form changed).form? form = some changed := by
  have hlt : form < w.forms.size := by
    have := Array.getElem?_eq_some_iff.1 h
    exact this.1
  simp [form?, setForm, hlt]

theorem form?_setForm_ne (h : form ≠ other) :
    (w.setForm form changed).form? other = w.form? other := by
  simp only [form?, setForm]
  exact Array.getElem?_setIfInBounds_ne h

/-- A form that is replaced by itself. -/
theorem setForm_same (h : w.form? form = some live) : w.setForm form live = w := by
  obtain ⟨hlt, rfl⟩ := Array.getElem?_eq_some_iff.1 h
  simp [setForm, Array.setIfInBounds, hlt]

@[simp] theorem setForm_setForm (w : World σ κ) (form : FormId) (live changed : LiveForm κ) :
    (w.setForm form live).setForm form changed = w.setForm form changed := by
  simp [setForm]

/-- A further form leaves the forms that exist as they are. -/
theorem form?_push (h : w.form? form = some live) (added : LiveForm κ) :
    ({ w with forms := w.forms.push added } : World σ κ).form? form = some live := by
  have hget := Array.getElem?_eq_some_iff.1 h
  simp only [form?, Array.getElem?_push]
  rw [if_neg (Nat.ne_of_lt hget.1)]
  exact h

theorem form?_push_self (w : World σ κ) (added : LiveForm κ) :
    ({ w with forms := w.forms.push added } : World σ κ).form? w.forms.size = some added := by
  simp [form?]

/-- The entries were written, in this order, between the first world and the second. -/
def Wrote (w : World σ κ) (entries : List (Occurrence κ)) (w' : World σ κ) : Prop :=
  w'.journal = entries.reverse ++ w.journal

@[simp] theorem wrote_nil : w.Wrote [] w' ↔ w'.journal = w.journal := by simp [Wrote]

theorem Wrote.append {u : World σ κ} {first second : List (Occurrence κ)}
    (h₁ : w.Wrote first u) (h₂ : u.Wrote second w') : w.Wrote (first ++ second) w' := by
  simp only [Wrote] at *
  rw [h₂, h₁, List.reverse_append, List.append_assoc]

theorem Wrote.unique {first second : List (Occurrence κ)} (h₁ : w.Wrote first w')
    (h₂ : w.Wrote second w') : first = second := by
  rw [Wrote, h₁] at h₂
  exact List.reverse_inj.1 (List.append_cancel_right h₂)

theorem wrote_note (w : World σ κ) (o : Occurrence κ) : w.Wrote [o] (w.note o) := rfl

/-- All that was written since nothing had happened yet. -/
theorem Wrote.journal_of_start {forms : Array (LiveForm κ)} {memory : σ}
    {entries : List (Occurrence κ)} (h : (start forms memory).Wrote entries w') :
    w'.journal.reverse = entries := by
  rw [h, start, List.append_nil, List.reverse_reverse]

end World

/-! ## Results of steps -/

theorem toOption_eq_some {ε : Type} {x : Except ε α} {a : α} : x.toOption = some a ↔ x = .ok a := by
  cases x <;> simp [Except.toOption]

namespace Run

variable {m : Run σ κ α} {a : α} {u : Unit}

theorem bind_eq_ok {f : α → Run σ κ β} {b : β} :
    (m >>= f) w = .ok (b, w') ↔ ∃ a v, m w = .ok (a, v) ∧ f a v = .ok (b, w') := by
  change (Except.bind (m w) fun p => f p.1 p.2) = _ ↔ _
  rcases m w with _ | ⟨a, v⟩
  · simp [Except.bind]
  · constructor
    · exact fun h => ⟨a, v, rfl, h⟩
    · rintro ⟨_, _, ⟨⟩, h⟩
      exact h

theorem map_eq_ok {f : α → β} {b : β} :
    (f <$> m) w = .ok (b, w') ↔ ∃ a, m w = .ok (a, w') ∧ f a = b := by
  change (Except.bind (m w) fun p => .ok (f p.1, p.2)) = _ ↔ _
  rcases m w with _ | ⟨a, v⟩
  · simp [Except.bind]
  · constructor
    · rintro ⟨⟩
      exact ⟨a, rfl, rfl⟩
    · rintro ⟨_, ⟨⟩, rfl⟩
      rfl

@[simp] theorem pure_eq_ok {b : α} :
    (pure a : Run σ κ α) w = .ok (b, w') ↔ a = b ∧ w = w' := by
  change Except.ok (a, w) = _ ↔ _
  simp

@[simp] theorem halt_ne_ok {reason : Halt} : (halt reason : Run σ κ α) w ≠ .ok (a, w') := by
  simp [halt]

@[simp] theorem get_eq_ok : (get : Run σ κ (World σ κ)) w = .ok (v, w') ↔ v = w ∧ w' = w := by
  change Except.ok (w, w) = _ ↔ _
  simp [eq_comm]

@[simp] theorem modify_eq_ok {f : World σ κ → World σ κ} :
    (modify f : Run σ κ Unit) w = .ok (u, w') ↔ w' = f w := by
  change Except.ok (_, f w) = _ ↔ _
  simp [eq_comm]

@[simp] theorem note_eq_ok {o : Occurrence κ} :
    (note o : Run σ κ Unit) w = .ok (u, w') ↔ w' = w.note o := modify_eq_ok

theorem live_eq_ok : (Run.live form : Run σ κ (LiveForm κ)) w = .ok (live, w')
    ↔ w.form? form = some live ∧ w' = w := by
  simp only [Run.live, bind_eq_ok, get_eq_ok]
  constructor
  · rintro ⟨_, _, ⟨rfl, rfl⟩, h⟩
    cases found : World.form? _ form with
    | none => simp [found] at h
    | some _ =>
      simp only [found, pure_eq_ok] at h
      exact ⟨congrArg some h.1, h.2.symm⟩
  · rintro ⟨h, rfl⟩
    exact ⟨_, _, ⟨rfl, rfl⟩, by simp [h]⟩

theorem store_eq_ok {s : Store κ} : (Run.store form : Run σ κ (Store κ)) w = .ok (s, w')
    ↔ (∃ live, w.form? form = some live ∧ s = live.store) ∧ w' = w := by
  simp only [Run.store, bind_eq_ok, live_eq_ok, pure_eq_ok]
  constructor
  · rintro ⟨live, _, ⟨h, rfl⟩, rfl, rfl⟩
    exact ⟨⟨live, h, rfl⟩, rfl⟩
  · rintro ⟨⟨live, h, rfl⟩, rfl⟩
    exact ⟨live, w', ⟨h, rfl⟩, rfl, rfl⟩

theorem changeStore_eq_ok {f : Store κ → α × Store κ} :
    (changeStore form f : Run σ κ α) w = .ok (a, w')
      ↔ ∃ live, w.form? form = some live ∧ a = (f live.store).1
        ∧ w' = w.setForm form { live with store := (f live.store).2 } := by
  simp only [changeStore, setLiveForm, bind_eq_ok, live_eq_ok, modify_eq_ok, pure_eq_ok]
  constructor
  · rintro ⟨live, _, ⟨h, rfl⟩, _, _, rfl, rfl, rfl⟩
    exact ⟨live, h, rfl, rfl⟩
  · rintro ⟨live, h, rfl, rfl⟩
    exact ⟨live, w, ⟨h, rfl⟩, (), _, rfl, rfl, rfl⟩

theorem changeChannels_eq_ok {f : Channels κ → α × Channels κ} :
    (changeChannels form f : Run σ κ α) w = .ok (a, w')
      ↔ ∃ live, w.form? form = some live ∧ a = (f live.channels).1
        ∧ w' = w.setForm form { live with channels := (f live.channels).2 } := by
  simp only [changeChannels, setLiveForm, bind_eq_ok, live_eq_ok, modify_eq_ok, pure_eq_ok]
  constructor
  · rintro ⟨live, _, ⟨h, rfl⟩, _, _, rfl, rfl, rfl⟩
    exact ⟨live, h, rfl, rfl⟩
  · rintro ⟨live, h, rfl, rfl⟩
    exact ⟨live, w, ⟨h, rfl⟩, (), _, rfl, rfl, rfl⟩

/-! ## Steps on a form that exists -/

theorem bind_of_ok {f : α → Run σ κ β} (h : m w = .ok (a, v)) : (m >>= f) w = f a v := by
  change (Except.bind (m w) fun p => f p.1 p.2) = _
  rw [h]
  rfl

theorem pure_of_ok {b : α} : (pure a : Run σ κ α) w = .ok (b, w') → w' = w :=
  fun h => (pure_eq_ok.1 h).2.symm

theorem note_ok (o : Occurrence κ) : (note o : Run σ κ Unit) w = .ok ((), w.note o) := rfl

theorem live_of (h : w.form? form = some live) :
    (Run.live form : Run σ κ (LiveForm κ)) w = .ok (live, w) := live_eq_ok.2 ⟨h, rfl⟩

theorem store_of (h : w.form? form = some live) :
    (Run.store form : Run σ κ (Store κ)) w = .ok (live.store, w) :=
  store_eq_ok.2 ⟨⟨live, h, rfl⟩, rfl⟩

theorem changeStore_of (h : w.form? form = some live) (f : Store κ → α × Store κ) :
    (changeStore form f : Run σ κ α) w
      = .ok ((f live.store).1, w.setForm form { live with store := (f live.store).2 }) :=
  changeStore_eq_ok.2 ⟨live, h, rfl, rfl⟩

theorem changeChannels_of (h : w.form? form = some live) (f : Channels κ → α × Channels κ) :
    (changeChannels form f : Run σ κ α) w
      = .ok ((f live.channels).1, w.setForm form { live with channels := (f live.channels).2 }) :=
  changeChannels_eq_ok.2 ⟨live, h, rfl, rfl⟩

variable {host : Host σ κ} {exec : {α : Type} → Program σ κ α → Run σ κ α} {fuel : Nat}

theorem perform_look (h : w.form? form = some live) :
    perform host exec fuel (.look form) w
      = .ok (live.store.view, w.note (.looked form live.store.view)) := by
  change (Run.store form >>= _) w = _
  rw [bind_of_ok (store_of h)]
  rfl

theorem perform_waiting (h : w.form? form = some live) (queue : Aggregate) :
    perform host exec fuel (.waiting form queue) w
      = .ok ((live.channels.queue queue).size,
        w.note (.counted form queue (live.channels.queue queue).size)) := by
  change (Run.live form >>= _) w = _
  rw [bind_of_ok (live_of h)]
  rfl

theorem perform_count (h : w.form? form = some live) (event : Event) :
    perform host exec fuel (.count form event) w
      = .ok (live.channels.count event, w.note (.polled form event (live.channels.count event))) := by
  change (Run.live form >>= _) w = _
  rw [bind_of_ok (live_of h)]
  rfl

/-- A removal answers whether the handler was there, and the journal says so. -/
theorem perform_unregister (h : w.form? form = some live) (event : Event) (id : HandlerId) :
    perform host exec fuel (.unregister form event id) w
      = .ok ((live.channels.unregister event id).1,
        (w.setForm form { live with channels := (live.channels.unregister event id).2 }).note
          (.removed form event id (live.channels.unregister event id).1)) := by
  change (changeChannels form (·.unregister event id) >>= _) w = _
  rw [bind_of_ok (changeChannels_of h _)]
  rfl

/-- An emission calls everything that stands behind the event at its beginning. -/
theorem emit_eq_ok {event : Event} {payload : Payload} {calls : Nat}
    (hlive : w.form? form = some live) :
    emit host exec form event payload w = .ok (calls, w')
      ↔ ∃ v, ((live.channels.handlers event).forM fun entry => do
            note (.delivered form event entry.1 entry.2 payload)
            deliver host exec form payload entry.2) (w.note (.emitted form event payload))
          = .ok ((), v)
        ∧ calls = (live.channels.handlers event).length
        ∧ w' = v.note (.completed form event calls) := by
  have hlive' : (w.note (.emitted form event payload)).form? form = some live := hlive
  unfold emit
  rw [bind_of_ok (note_ok _), bind_of_ok (live_of hlive')]
  constructor
  · intro h
    obtain ⟨_, v, hcalls, h⟩ := bind_eq_ok.1 h
    obtain ⟨_, _, hnote, h⟩ := bind_eq_ok.1 h
    obtain ⟨rfl, rfl⟩ := pure_eq_ok.1 h
    exact ⟨v, hcalls, rfl, note_eq_ok.1 hnote⟩
  · rintro ⟨v, hcalls, rfl, rfl⟩
    exact bind_eq_ok.2 ⟨(), v, hcalls, rfl⟩

/-- A new form gets the next id and stands behind the others. -/
theorem perform_create (profile : Profile) (handlers : List (HostEvent × κ)) (initial : Data) :
    perform host exec fuel (.create profile handlers initial) w = .ok (w.forms.size,
      ({ w with forms := w.forms.push (.create profile handlers initial) } : World σ κ).note
        (.created w.forms.size handlers initial)) := rfl

end Run

namespace Program

variable {host : Host σ κ} {fuel : Nat}

theorem interpret_bind {m : Type → Type} [Monad m] [LawfulMonad m]
    (perform : (c : Call σ κ) → m c.Reply) (p : Program σ κ α) (f : α → Program σ κ β) :
    (p >>= f).interpret perform = p.interpret perform >>= fun a => (f a).interpret perform := by
  change (p.andThen f).interpret perform = _
  induction p with
  | done _ => simp [andThen, interpret]
  | ask c _ ih =>
    simp only [andThen, interpret, bind_assoc]
    exact congrArg _ (funext ih)

/-- Without fuel nothing returns. -/
@[simp] theorem run_zero_ne_ok {p : Program σ κ α} {a : α} : p.run host 0 w ≠ .ok (a, w') :=
  Run.halt_ne_ok

theorem run_succ (p : Program σ κ α) :
    p.run host (fuel + 1) = p.interpret (Run.perform host (run host fuel) fuel) := rfl

theorem run_done {a b : α} :
    (done a : Program σ κ α).run host fuel w = .ok (b, w') ↔ 0 < fuel ∧ a = b ∧ w = w' := by
  cases fuel with
  | zero => simp
  | succ fuel => simp [run_succ, interpret]

theorem run_call (c : Call σ κ) :
    (call c).run host (fuel + 1) = Run.perform host (run host fuel) fuel c := by
  simp [run_succ, call, interpret]

theorem run_submit (form : FormId) (submission : Submission κ) :
    (submit form submission).run host (fuel + 1)
      = Run.submit host (run host fuel) fuel form submission := run_call (.submit form submission)

theorem run_emit (form : FormId) (event : Event) (payload : Payload) :
    (emit form event payload : Program σ κ Nat).run host (fuel + 1)
      = Run.emit host (run host fuel) form event payload := run_call (.emit form event payload)

/-- Whoever counts a queue is told its size, and the journal says so. -/
theorem run_waiting (hlive : w.form? form = some live) (queue : Aggregate) :
    (waiting form queue : Program σ κ Nat).run host (fuel + 1) w
      = .ok ((live.channels.queue queue).size,
        w.note (.counted form queue (live.channels.queue queue).size)) :=
  (congrFun (run_call (.waiting form queue)) w).trans (Run.perform_waiting hlive queue)

/-- Whoever removes a handler is told whether it was there. -/
theorem run_unregister (hlive : w.form? form = some live) (event : Event) (id : HandlerId) :
    (unregister form event id : Program σ κ Bool).run host (fuel + 1) w
      = .ok ((live.channels.unregister event id).1,
        (w.setForm form { live with channels := (live.channels.unregister event id).2 }).note
          (.removed form event id (live.channels.unregister event id).1)) :=
  (congrFun (run_call (.unregister form event id)) w).trans (Run.perform_unregister hlive event id)

/-- Whoever counts the handlers of an event is told their number. -/
theorem run_count (hlive : w.form? form = some live) (event : Event) :
    (count form event : Program σ κ Nat).run host (fuel + 1) w
      = .ok (live.channels.count event, w.note (.polled form event (live.channels.count event))) :=
  (congrFun (run_call (.count form event)) w).trans (Run.perform_count hlive event)

/-- Whoever looks at a form sees its store, and the journal says so. -/
theorem run_look {view : StoreView} (h : (look form).run host fuel w = .ok (view, w')) :
    ∃ live, w.form? form = some live ∧ view = live.store.view
      ∧ w' = w.note (.looked form live.store.view) := by
  cases fuel with
  | zero => exact absurd h run_zero_ne_ok
  | succ fuel =>
    have hcall := (congrFun (run_call (.look form)) w).symm.trans h
    obtain ⟨s, v, hstore, hnote⟩ := Run.bind_eq_ok.1 hcall
    obtain ⟨⟨live, hlive, rfl⟩, rfl⟩ := Run.store_eq_ok.1 hstore
    obtain ⟨_, u, hwritten, hdone⟩ := Run.bind_eq_ok.1 hnote
    obtain ⟨rfl, rfl⟩ := Run.pure_eq_ok.1 hdone
    exact ⟨live, hlive, rfl, Run.note_eq_ok.1 hwritten⟩

theorem run_profile (h : w.form? form = some live) :
    (profile form : Program σ κ Profile).run host (fuel + 1) w = .ok (live.profile, w) := by
  rw [show (profile form : Program σ κ Profile).run host (fuel + 1)
    = (do return (← Run.live form).profile) from run_call (.profile form)]
  rw [Run.bind_of_ok (Run.live_of h)]
  rfl

/-- Programs run one after the other, with the same fuel. -/
theorem run_bind (p : Program σ κ α) (f : α → Program σ κ β) :
    (p >>= f).run host fuel = p.run host fuel >>= fun a => (f a).run host fuel := by
  cases fuel with
  | zero => rfl
  | succ fuel => exact interpret_bind _ p f

theorem run_bind_eq_ok {p : Program σ κ α} {f : α → Program σ κ β} {b : β} :
    (p >>= f).run host fuel w = .ok (b, w')
      ↔ ∃ a v, p.run host fuel w = .ok (a, v) ∧ (f a).run host fuel v = .ok (b, w') := by
  rw [run_bind, Run.bind_eq_ok]

end Program

end FormTree
