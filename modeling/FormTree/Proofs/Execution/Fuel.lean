import FormTree.Proofs.Execution.Steps

/-!
# Fuel

A run that stays within its fuel does not depend on it: with more fuel it returns the same result and
leaves the same world, or stops for the same reason.  So whatever is shown of a run with some fuel
holds of the program.

Fuel is spent where host code is nested and where waiting batches are worked off.  The induction goes
over the fuel; a step that runs host code is compared for any two ways of running it, of which the
second agrees with the first as long as the first does not run out.
-/

namespace FormTree

variable {σ κ α β : Type}

namespace Run

/-- The second step does what the first does, wherever the first does not run out of fuel. -/
def Agrees (m m' : Run σ κ α) : Prop := ∀ w, m w ≠ .error .outOfFuel → m' w = m w

theorem Agrees.refl (m : Run σ κ α) : Agrees m m := fun _ _ => rfl

theorem Agrees.of_outOfFuel (m : Run σ κ α) : Agrees (halt .outOfFuel) m :=
  fun _ h => absurd rfl h

theorem Agrees.bind {m m' : Run σ κ α} {f f' : α → Run σ κ β} (hm : Agrees m m')
    (hf : ∀ a, Agrees (f a) (f' a)) : Agrees (m >>= f) (m' >>= f') := by
  intro w h
  have hbind : ∀ (n : Run σ κ α) (g : α → Run σ κ β),
      (n >>= g) w = Except.bind (n w) fun result => g result.1 result.2 := fun _ _ => rfl
  rw [hbind] at h
  rw [hbind, hbind]
  cases hfirst : m w with
  | error reason =>
    rw [hm w (by rintro hout; rw [hout] at h; exact h rfl), hfirst]
    rfl
  | ok result =>
    rw [hfirst] at h
    rw [hm w (by rw [hfirst]; nofun), hfirst]
    exact hf result.1 result.2 h

theorem Agrees.map {m m' : Run σ κ α} (f : α → β) (hm : Agrees m m') :
    Agrees (f <$> m) (f <$> m') := by
  rw [map_eq_pure_bind, map_eq_pure_bind]
  exact hm.bind fun _ => refl _

theorem Agrees.forM {f f' : α → Run σ κ Unit} (hf : ∀ item, Agrees (f item) (f' item))
    (items : List α) : Agrees (items.forM f) (items.forM f') := by
  induction items with
  | nil => exact refl _
  | cons item rest ih => exact (hf item).bind fun _ => ih

theorem Agrees.applyM {update update' : κ → Data → Run σ κ Data}
    {errors errors' : κ → Json → Run σ κ (List String)}
    (hupdate : ∀ name previous, Agrees (update name previous) (update' name previous))
    (herrors : ∀ name value, Agrees (errors name value) (errors' name value)) (state : Data)
    (batch : Batch κ) :
    Agrees (Batch.applyM update errors state batch) (Batch.applyM update' errors' state batch) := by
  induction batch generalizing state with
  | nil => exact refl _
  | cons action rest ih =>
    have hplan : Agrees ((action.plan state).run update errors)
        ((action.plan state).run update' errors') := by
      cases action.plan state with
      | settled result => exact refl _
      | asksUpdate name previous resume => exact (hupdate name previous).map resume
      | asksErrors validator value resume => exact (herrors validator value).map resume
    refine hplan.bind fun result => ?_
    cases result with
    | error e => exact refl _
    | ok next => exact ih next

/-! ## Steps that run host code -/

section Calls

variable {host : Host σ κ} {exec exec' : {α : Type} → Program σ κ α → Run σ κ α} {form : FormId}
  (hexec : ∀ {α : Type} (p : Program σ κ α), Agrees (exec p) (exec' p))

include hexec

theorem connect_agrees (payload : Payload) (connection : Connection) :
    Agrees (connect exec form payload connection) (connect exec' form payload connection) := by
  have hchange : ∀ (f : Channels κ → Bool × Channels κ) (event : Event),
      Agrees (do
        if ← changeChannels form f then
          let _ ← exec (Program.emit form event payload))
        (do
        if ← changeChannels form f then
          let _ ← exec' (Program.emit form event payload)) := by
    intro f event
    refine (Agrees.refl _).bind fun changed => ?_
    cases changed with
    | true => exact (hexec _).bind fun _ => .refl _
    | false => exact .refl _
  cases connection with
  | relays target => exact (hexec _).bind fun _ => .refl _
  | enters queue =>
    simp only [connect]
    cases payload.id? with
    | none => exact .refl _
    | some id => exact hchange _ _
  | leaves queue =>
    simp only [connect]
    cases payload.id? with
    | none => exact .refl _
    | some id => exact hchange _ _

theorem deliver_agrees (payload : Payload) (handler : Handler κ) :
    Agrees (deliver host exec form payload handler) (deliver host exec' form payload handler) := by
  cases handler with
  | connection connection => exact connect_agrees hexec payload connection
  | host name => exact hexec _

theorem emit_agrees (event : Event) (payload : Payload) :
    Agrees (emit host exec form event payload) (emit host exec' form event payload) :=
  (Agrees.refl _).bind fun _ => (Agrees.refl _).bind fun _ =>
    (Agrees.forM (fun _ => (Agrees.refl _).bind fun _ => deliver_agrees hexec payload _) _).bind
      fun _ => .refl _

theorem notify_agrees (state : Data) (listener : Listener κ) :
    Agrees (notify host exec form state listener) (notify host exec' form state listener) := by
  cases listener <;> exact hexec _

theorem follow_agrees (state : Data) (after : Option (After κ)) :
    Agrees (follow host exec form state after) (follow host exec' form state after) := by
  rcases after with _ | _ | _ | _ | _
  · exact .refl _
  all_goals exact hexec _

theorem compute_agrees (batch : Batch κ) :
    Agrees (compute host exec form batch) (compute host exec' form batch) :=
  (Agrees.refl _).bind fun _ => (Agrees.refl _).bind fun _ =>
    .applyM (fun _ _ => hexec _) (fun _ _ => hexec _) _ batch

theorem apply_agrees (submission : Submission κ) :
    Agrees (apply host exec form submission) (apply host exec' form submission) := by
  refine (compute_agrees hexec submission.batch).bind fun result => ?_
  cases result with
  | error e => exact .refl _
  | ok next =>
    refine (Agrees.refl _).bind fun audience => (Agrees.refl _).bind fun _ =>
      (Agrees.refl _).bind fun _ => Agrees.bind ?_ fun _ => (Agrees.refl _).bind fun _ =>
        (follow_agrees hexec next _).bind fun _ => .refl _
    exact .forM (fun _ => (Agrees.refl _).bind fun _ => notify_agrees hexec next _) audience

/-- More waiting batches can be worked off with more fuel. -/
theorem drain_agrees {fuel more : Nat} (h : fuel ≤ more) :
    Agrees (drain host exec form fuel) (drain host exec' form more) := by
  induction fuel generalizing more with
  | zero =>
    cases more with
    | zero => exact .refl _
    | succ more =>
      -- a run without fuel finds nothing waiting, and then more fuel changes nothing
      refine (Agrees.refl _).bind fun s => ?_
      cases s.pending with
      | nil => exact .refl _
      | cons submission rest => exact .of_outOfFuel _
  | succ fuel ih =>
    obtain ⟨more, rfl⟩ := Nat.exists_eq_add_of_le' (Nat.zero_lt_of_lt h)
    refine (Agrees.refl _).bind fun s => ?_
    cases s.pending with
    | nil => exact .refl _
    | cons submission rest =>
      exact (Agrees.refl _).bind fun _ => (apply_agrees hexec submission).bind fun _ =>
        ih (Nat.le_of_succ_le_succ h)

theorem submit_agrees {fuel more : Nat} (h : fuel ≤ more) (submission : Submission κ) :
    Agrees (submit host exec fuel form submission) (submit host exec' more form submission) := by
  refine (Agrees.refl _).bind fun s => ?_
  split
  · exact (Agrees.refl _).bind fun _ => (follow_agrees hexec _ _).bind fun _ => .refl _
  · split
    · exact .refl _
    · refine (Agrees.refl _).bind fun _ => (apply_agrees hexec submission).bind fun result => ?_
      cases result with
      | error e => exact .refl _
      | ok _ => exact (drain_agrees hexec h).bind fun _ => .refl _

theorem perform_agrees {fuel more : Nat} (h : fuel ≤ more) (c : Call σ κ) :
    Agrees (perform host exec fuel c) (perform host exec' more c) := by
  cases c with
  | submit form submission => exact submit_agrees hexec h submission
  | emit form event payload => exact emit_agrees hexec event payload
  | _ => exact .refl _

end Calls

end Run

namespace Program

theorem interpret_agrees {handler handler' : (c : Call σ κ) → Run σ κ c.Reply}
    (h : ∀ c, Run.Agrees (handler c) (handler' c)) (p : Program σ κ α) :
    Run.Agrees (p.interpret handler) (p.interpret handler') := by
  induction p with
  | done a => exact .refl _
  | ask c next ih => exact (h c).bind ih

theorem run_agrees (host : Host σ κ) {fuel more : Nat} (h : fuel ≤ more) (p : Program σ κ α) :
    Run.Agrees (p.run host fuel) (p.run host more) := by
  induction fuel generalizing α more with
  | zero => exact .of_outOfFuel _
  | succ fuel ih =>
    obtain ⟨more, rfl⟩ := Nat.exists_eq_add_of_le' (Nat.zero_lt_of_lt h)
    have hless := Nat.le_of_succ_le_succ h
    exact interpret_agrees (fun c => Run.perform_agrees (fun p => ih hless p) hless c) p

/-- A run that returns does so with more fuel as well, with the same result and world. -/
theorem run_mono {host : Host σ κ} {fuel more : Nat} {p : Program σ κ α} {a : α} {w w' : World σ κ}
    (h : p.run host fuel w = .ok (a, w')) (hmore : fuel ≤ more) :
    p.run host more w = .ok (a, w') :=
  (run_agrees host hmore p w (by rw [h]; nofun)).trans h

/-- Runs of a program that return agree, whatever their fuel. -/
theorem run_unique {host : Host σ κ} {fuel other : Nat} {p : Program σ κ α} {a b : α}
    {w v w' : World σ κ} (h : p.run host fuel w = .ok (a, v))
    (h' : p.run host other w = .ok (b, w')) : a = b ∧ v = w' := by
  have hboth := (run_mono h (Nat.le_max_left fuel other)).symm.trans
    (run_mono h' (Nat.le_max_right fuel other))
  simpa using hboth

end Program

end FormTree
