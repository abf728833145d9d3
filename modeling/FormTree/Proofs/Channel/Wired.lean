import FormTree.Proofs.Channel.Registrations

/-!
# Channels that stay wired

The removal of a handler takes away that handler and no other.  Hence the connections of a new form
stay in front of everything that stands behind their events, as long as nobody removes handlers of
these events themselves.
`Channels.Wired` is this invariant for the two signals that tell whether a field is valid.
-/

namespace FormTree

/-! ## Connections in front -/

/-- The signals that say whether a field is valid. -/
def Event.IsValidity (event : Event) : Prop :=
  event = .internal .fieldInvalid ∨ event = .internal .fieldValid

instance (event : Event) : Decidable event.IsValidity := inferInstanceAs (Decidable (_ ∨ _))

/-- The events by which the host is told that a name is invalid and that none is. -/
def Event.TellsValidity (event : Event) : Prop :=
  event = .external .invalid ∨ event = .external .valid

instance (event : Event) : Decidable event.TellsValidity := inferInstanceAs (Decidable (_ ∨ _))

namespace Connection

/-- The event that a connection emits, if it emits one. -/
def target : Connection → Event
  | .relays target => target
  | .enters queue => .external queue.onFirst
  | .leaves queue => .external queue.onEmpty

/-- The queue that a connection moves ids in or out of. -/
def queue? : Connection → Option Aggregate
  | .relays _ => none
  | .enters queue | .leaves queue => some queue

variable {event : Event} {connection : Connection}

/-- What a connection emits is not passed on. -/
theorem of?_target (h : of? event = some connection) : of? connection.target = none := by
  revert h
  rcases event with event | event <;> cases event <;> rintro ⟨⟩ <;> rfl

/-- No connection emits a validity signal. -/
theorem not_isValidity_target (h : of? event = some connection) :
    ¬ connection.target.IsValidity := by
  have hnone := of?_target h
  rintro (heq | heq)
  all_goals
    rw [heq] at hnone
    cases hnone

/-- Only the connections of the validity signals tell the host of invalid names. -/
theorem not_tellsValidity_target (h : of? event = some connection) (hevent : ¬ event.IsValidity) :
    ¬ connection.target.TellsValidity := by
  revert h hevent
  rcases event with event | event <;> cases event <;> rintro ⟨⟩ <;> decide

/-- Only the validity signals move names in and out of the queue of invalid names. -/
theorem queue?_ne_invalid (h : of? event = some connection) (hevent : ¬ event.IsValidity) :
    connection.queue? ≠ some .invalid := by
  revert h hevent
  rcases event with event | event <;> cases event <;> rintro ⟨⟩ <;> decide

end Connection

namespace Channels

variable {κ : Type} {b : Channels κ} {event other : Event} {handler : Handler κ} {id : HandlerId}

/-- The connection of an event stands in front of its handlers, and only host code behind it. -/
def InFront (b : Channels κ) (event : Event) : Prop :=
  ∃ id connection hosts, Connection.of? event = some connection
    ∧ b.handlers event = (id, .connection connection) :: hosts
    ∧ ∀ entry ∈ hosts, ∃ name, entry.2 = .host name

/-- Connections stand behind their own events only. -/
def Placed (b : Channels κ) : Prop :=
  ∀ event, ∀ entry ∈ b.handlers event, ∀ connection,
    entry.2 = .connection connection → Connection.of? event = some connection

/-- Connections stand behind their own events only, and those of the validity signals are in front.
-/
structure Wired (b : Channels κ) : Prop where
  sound : b.internal.Sound
  own : b.Placed
  front : ∀ event, event.IsValidity → b.InFront event

namespace Placed

theorem register (h : b.Placed) (name : κ) : (b.register event (.host name)).2.Placed := by
  intro other entry hentry connection hconnection
  rw [handlers_register, List.mem_append] at hentry
  rcases hentry with hentry | hentry
  · exact h other entry hentry connection hconnection
  · split at hentry
    · obtain rfl := List.mem_singleton.1 hentry
      cases hconnection
    · cases hentry

theorem unregister (h : b.Placed) : (b.unregister event id).2.Placed := by
  intro other entry hentry connection hconnection
  refine h other entry ?_ connection hconnection
  have hsub : ((b.unregister event id).2.handlers other).Sublist (b.handlers other) := by
    cases event <;> cases other
    case internal.internal e f =>
      simp only [Channels.unregister, handlers, Registry.handlers_unregister]
      split
      · exact List.filter_sublist
      · exact List.Sublist.refl _
    case external.external e f =>
      simp only [Channels.unregister, handlers, Registry.handlers_unregister]
      split
      · exact List.filter_sublist
      · exact List.Sublist.refl _
    all_goals exact List.Sublist.refl _
  exact hsub.subset hentry

theorem setQueue (h : b.Placed) (a : Aggregate) (q : IdQueue) : (b.setQueue a q).Placed := by
  intro event
  rw [handlers_setQueue]
  exact h event

end Placed

theorem placed_unwired : (unwired : Channels κ).Placed := by
  intro event entry hentry
  rw [handlers_unwired] at hentry
  cases hentry

/-- In new connected channels every connection is placed. -/
theorem placed_connected : (connected : Channels κ).Placed := by
  intro event entry hentry connection hconnection
  have hmem := List.mem_map_of_mem (f := Prod.snd) hentry
  rw [handlers_connected, hconnection] at hmem
  simpa using hmem

/-- Handlers are registered without any effect on the queues. -/
theorem invalid_registerAll (b : Channels κ) (entries : List (Event × Handler κ)) :
    (b.registerAll entries).invalid = b.invalid := by
  induction entries generalizing b with
  | nil => rfl
  | cons entry rest ih =>
    have hfirst : (b.register entry.1 entry.2).2.invalid = b.invalid := by cases entry.1 <;> rfl
    exact (ih _).trans hfirst

/-- New connected channels are wired. -/
theorem wired_connected : (connected : Channels κ).Wired where
  sound := sound_connected.internal
  own := placed_connected
  front event hevent := by
    have hhandlers := handlers_connected (κ := κ) event
    rcases hevent with rfl | rfl
    all_goals
      obtain ⟨⟨id, handler⟩, hlist, hhandler⟩ := List.map_eq_singleton_iff.1 hhandlers
      exact ⟨id, _, [], rfl, by rw [hlist]; exact congrArg (fun x => [(id, x)]) hhandler, by simp⟩

namespace Wired

/-- Host code that is registered stands behind the connections. -/
theorem register (h : b.Wired) (name : κ) : (b.register event (.host name)).2.Wired where
  sound := internal_register h.sound
  own := h.own.register name
  front other hother := by
    obtain ⟨id, connection, hosts, hof, hlist, hhosts⟩ := h.front other hother
    rw [InFront, handlers_register, hlist]
    refine ⟨id, connection, _, hof, rfl, fun entry hentry => ?_⟩
    rcases List.mem_append.1 hentry with hentry | hentry
    · exact hhosts entry hentry
    · split at hentry
      · obtain rfl := List.mem_singleton.1 hentry
        exact ⟨name, rfl⟩
      · cases hentry

theorem registerAll (h : b.Wired) (entries : List (HostEvent × κ)) :
    (b.registerAll (entries.map fun (event, name) => (.external event, .host name))).Wired := by
  induction entries generalizing b with
  | nil => exact h
  | cons entry rest ih => exact ih (h.register entry.2)

/-- A handler can be removed, unless its event is a validity signal. -/
theorem unregister (h : b.Wired) (hevent : ¬ event.IsValidity) :
    (b.unregister event id).2.Wired where
  sound := internal_unregister h.sound
  own := h.own.unregister
  front other hother := by
    have hsame : (b.unregister event id).2.handlers other = b.handlers other := by
      have hne : event ≠ other := fun heq => hevent (heq ▸ hother)
      cases event with
      | external _ => rcases hother with rfl | rfl <;> rfl
      | internal e =>
        rcases hother with rfl | rfl
        all_goals
          simp only [Channels.unregister, handlers]
          rw [h.sound.handlers_unregister, if_neg fun heq => hne (congrArg _ heq)]
    rw [InFront, hsame]
    exact h.front other hother

theorem setQueue (h : b.Wired) (a : Aggregate) (q : IdQueue) : (b.setQueue a q).Wired where
  sound := by cases a <;> exact h.sound
  own := h.own.setQueue a q
  front event hevent := by rw [InFront, handlers_setQueue]; exact h.front event hevent

end Wired

end Channels

/-! ## Verdicts on names -/

namespace IdQueue

variable {q : IdQueue} {name : String}

/-- A name with errors enters the queue, a name without leaves it. -/
def settle (q : IdQueue) (verdict : String × List String) : IdQueue :=
  if verdict.2.isEmpty then (q.erase verdict.1).2 else (q.insert verdict.1).2

theorem mem_settle {verdict : String × List String} :
    name ∈ q.settle verdict ↔ if verdict.1 = name then verdict.2 ≠ [] else name ∈ q := by
  obtain ⟨settled, errors⟩ := verdict
  cases errors with
  | nil =>
    rw [show q.settle (settled, []) = (q.erase settled).2 from rfl, mem_erase]
    by_cases h : settled = name
    · simp [h]
    · simp [h, Ne.symm h]
  | cons error rest =>
    rw [show q.settle (settled, error :: rest) = (q.insert settled).2 from rfl, mem_insert]
    by_cases h : settled = name
    · simp [h]
    · simp [h, Ne.symm h]

/-- After verdicts one after the other, the last verdict on a name decides. -/
theorem mem_foldl_settle {verdicts : List (String × List String)} :
    name ∈ verdicts.foldl settle q
      ↔ match verdicts.reverse.lookup name with
        | some errors => errors ≠ []
        | none => name ∈ q := by
  induction verdicts generalizing q with
  | nil => rfl
  | cons verdict rest ih =>
    rw [List.foldl_cons, ih, List.reverse_cons, List.lookup_append]
    cases rest.reverse.lookup name with
    | some errors => rfl
    | none =>
      obtain ⟨settled, errors⟩ := verdict
      by_cases h : settled = name
      · simp [mem_settle, h]
      · simp [mem_settle, h, List.lookup_cons, beq_eq_false_iff_ne.2 (Ne.symm h)]

theorem size_eq_zero : q.size = 0 ↔ ∀ name, name ∉ q := by
  rw [size, List.length_eq_zero_iff, List.eq_nil_iff_forall_not_mem]
  rfl

end IdQueue

end FormTree
