import FormTree.Channel.Event
import FormTree.Channel.IdQueue
import FormTree.Channel.Registry

/-!
# The two channels of a form

A form has two registries of handlers, one for each channel, and two queues of ids: the components
that are busy, and the names that are invalid.  A wired form connects them, and the connection of an
event comes before every handler that is registered later:

* a busy or idle signal enters or leaves the busy queue, and the host hears `busy` when the queue
  stops being empty and `idle` when it empties; invalid and valid signals do the same with the other
  queue;
* change, removal and lifecycle signals are passed on to the host under the same name;
* the host's requests to edit or delete are passed on to the components.

A connection is registered like any other handler and has an id as well.  Nobody is told that id;
but the two channels give out the same ids, so who uses an id of the other channel can take away a
connection.  What a handler does when its event is emitted is in `FormTree.Execution`.
-/

namespace FormTree

/-! ## The two queues of a form -/

/-- The two queues of a form. -/
inductive Aggregate where
  | busy
  | invalid
deriving DecidableEq, Repr

namespace Aggregate

/-- The signal that puts an id into the queue. -/
def enterSignal : Aggregate → Signal
  | .busy => .fieldBusy
  | .invalid => .fieldInvalid

/-- The signal that takes an id out of the queue. -/
def leaveSignal : Aggregate → Signal
  | .busy => .fieldIdle
  | .invalid => .fieldValid

/-- What the host hears when the queue stops being empty. -/
def onFirst : Aggregate → HostEvent
  | .busy => .busy
  | .invalid => .invalid

/-- What the host hears when the queue empties. -/
def onEmpty : Aggregate → HostEvent
  | .busy => .idle
  | .invalid => .valid

end Aggregate

/-! ## Connections -/

/-- What a wired form does with an event by itself. -/
inductive Connection where
  | enters (queue : Aggregate)
  | leaves (queue : Aggregate)
  | relays (target : Event)
deriving DecidableEq, Repr

namespace Connection

/-- The connections of a wired form, in the order in which they are registered. -/
def all : List (Event × Connection) :=
  [(.internal .fieldBusy, .enters .busy),
   (.internal .fieldIdle, .leaves .busy),
   (.internal .fieldInvalid, .enters .invalid),
   (.internal .fieldValid, .leaves .invalid),
   (.internal .fieldChange, .relays (.external .fieldChange)),
   (.internal .fieldRemoved, .relays (.external .fieldRemoved)),
   (.internal .formInitialised, .relays (.external .formInitialised)),
   (.internal .formRemoved, .relays (.external .formRemoved)),
   (.external .fieldEdit, .relays (.internal .fieldEdit)),
   (.external .fieldDelete, .relays (.internal .fieldDelete))]

/-- The connection of an event in a wired form. -/
def of? (event : Event) : Option Connection := all.lookup event

/-- An event has at most one connection. -/
theorem filter_all (event : Event) :
    (all.filter (·.1 = event)).map Prod.snd = (of? event).toList := by
  rcases event with event | event <;> cases event <;> decide

theorem of?_enterSignal (a : Aggregate) : of? (.internal a.enterSignal) = some (.enters a) := by
  cases a <;> rfl

theorem of?_leaveSignal (a : Aggregate) : of? (.internal a.leaveSignal) = some (.leaves a) := by
  cases a <;> rfl

/-- An event is passed on under its own name, and what it is passed on as is not passed on again. -/
theorem of?_relays {source target : Event} (h : of? source = some (.relays target)) :
    target.name = source.name ∧ of? target = none := by
  have hall : ∀ entry ∈ all, ∀ e, entry.2 = .relays e → e.name = entry.1.name ∧ of? e = none := by
    simp only [all, List.forall_mem_cons, Connection.relays.injEq, reduceCtorEq, false_implies,
      forall_eq', implies_true, true_and, List.not_mem_nil]
    decide
  obtain ⟨before, after, hsplit, _⟩ := List.lookup_eq_some_iff.1 h
  exact hall (source, .relays target) (by simp [hsplit]) target rfl

end Connection

/-- What stands behind an event: a connection of the form itself, or host code `κ`. -/
inductive Handler (κ : Type) where
  | connection (connection : Connection)
  | host (name : κ)

/-- The channels and queues of a form. -/
structure Channels (κ : Type) where
  internal : Registry Signal (Handler κ)
  external : Registry HostEvent (Handler κ)
  busy : IdQueue
  invalid : IdQueue

namespace Channels

variable {κ : Type}

/-- Two channels that are not connected. -/
def unwired : Channels κ := ⟨.empty, .empty, .empty, .empty⟩

instance : Inhabited (Channels κ) := ⟨unwired⟩

/-- Register a handler on the channel of an event. -/
def register (b : Channels κ) (event : Event) (handler : Handler κ) : HandlerId × Channels κ :=
  match event with
  | .internal e =>
    let (id, registry) := b.internal.register e handler
    (id, { b with internal := registry })
  | .external e =>
    let (id, registry) := b.external.register e handler
    (id, { b with external := registry })

/-- Remove a handler from the channel of an event. -/
def unregister (b : Channels κ) (event : Event) (id : HandlerId) : Bool × Channels κ :=
  match event with
  | .internal e =>
    let (found, registry) := b.internal.unregister e id
    (found, { b with internal := registry })
  | .external e =>
    let (found, registry) := b.external.unregister e id
    (found, { b with external := registry })

/-- Register handlers one after the other. -/
def registerAll (b : Channels κ) (handlers : List (Event × Handler κ)) : Channels κ :=
  handlers.foldl (fun b entry => (b.register entry.1 entry.2).2) b

/-- The connected channels of a new form. -/
def connected : Channels κ :=
  unwired.registerAll (Connection.all.map fun (event, connection) =>
    (event, .connection connection))

/-- Everything that stands behind an event, with its id, in the order in which it is called. -/
def handlers (b : Channels κ) : Event → List (HandlerId × Handler κ)
  | .internal e => b.internal.handlers e
  | .external e => b.external.handlers e

/-- The number of handlers of an event. -/
def count (b : Channels κ) (event : Event) : Nat := (b.handlers event).length

/-- One of the two queues. -/
def queue (b : Channels κ) : Aggregate → IdQueue
  | .busy => b.busy
  | .invalid => b.invalid

/-- The channels with one of the queues replaced. -/
def setQueue (b : Channels κ) (a : Aggregate) (q : IdQueue) : Channels κ :=
  match a with
  | .busy => { b with busy := q }
  | .invalid => { b with invalid := q }

/-- Put an id into a queue; the answer says whether this ended the queue's being empty. -/
def insertId (b : Channels κ) (a : Aggregate) (id : String) : Bool × Channels κ :=
  (((b.queue a).insert id).1, b.setQueue a ((b.queue a).insert id).2)

/-- Take an id out of a queue; the answer says whether this emptied the queue. -/
def eraseId (b : Channels κ) (a : Aggregate) (id : String) : Bool × Channels κ :=
  (((b.queue a).erase id).1, b.setQueue a ((b.queue a).erase id).2)

@[simp] theorem handlers_unwired (event : Event) : (unwired : Channels κ).handlers event = [] := by
  cases event <;> rfl

theorem handlers_register (b : Channels κ) (event other : Event) (handler : Handler κ) :
    (b.register event handler).2.handlers other
      = b.handlers other
        ++ if event = other then [((b.register event handler).1, handler)] else [] := by
  cases event <;> cases other <;> simp only [register, handlers, Registry.handlers_register]
  case internal.internal e f => by_cases h : e = f <;> simp [h, Registry.register]
  case external.external e f => by_cases h : e = f <;> simp [h, Registry.register]
  all_goals simp

/-- Handlers that are registered one after the other are called in that order. -/
theorem handlers_registerAll (b : Channels κ) (entries : List (Event × Handler κ))
    (event : Event) :
    ((b.registerAll entries).handlers event).map Prod.snd
      = (b.handlers event).map Prod.snd
        ++ (entries.filter (·.1 = event)).map Prod.snd := by
  induction entries generalizing b with
  | nil => simp [registerAll]
  | cons entry rest ih =>
    have hstep := ih (b.register entry.1 entry.2).2
    simp only [registerAll, List.foldl_cons] at hstep ⊢
    rw [hstep, handlers_register]
    by_cases h : entry.1 = event <;> simp [h]

/-- In new connected channels, exactly the connection of an event stands behind it. -/
theorem handlers_connected (event : Event) :
    ((connected : Channels κ).handlers event).map Prod.snd
      = (Connection.of? event).toList.map .connection := by
  rw [connected, handlers_registerAll, ← Connection.filter_all]
  simp [List.filter_map, Function.comp_def]

@[simp] theorem queue_setQueue_self (b : Channels κ) (a : Aggregate) (q : IdQueue) :
    (b.setQueue a q).queue a = q := by cases a <;> rfl

theorem queue_setQueue_ne (b : Channels κ) {a other : Aggregate} (h : a ≠ other) (q : IdQueue) :
    (b.setQueue a q).queue other = b.queue other := by
  cases a <;> cases other <;> first | rfl | exact absurd rfl h

@[simp] theorem handlers_setQueue (b : Channels κ) (a : Aggregate) (q : IdQueue) (event : Event) :
    (b.setQueue a q).handlers event = b.handlers event := by
  cases a <;> cases event <;> rfl

end Channels

end FormTree
