/-!
# Registered handlers

A `Registry` keeps two tables: the handlers of every event, in the order of registration, and the
ids in use, each with the event that it was given out for.  An id takes away the handler that was
registered under it, and only for the event that it was registered for; which event that is, is
looked up in the second table.

An id is a place of the registry together with the number of times that the place was taken before.
A registration takes the place that became free last, and a new place if none is free.  So a
registry never gives out an id twice; but two registries give out the same ids, and an id of one
registry can name a handler of the other.
-/

namespace FormTree

/-- The id of a registered handler. -/
structure HandlerId where
  place : Nat
  /-- How often the place was taken before. -/
  round : Nat
deriving DecidableEq, Repr

/-- Handlers of type `η`, registered for events of type `ε`. -/
structure Registry (ε η : Type) where
  /-- The ids that wait to be given out, that of the place freed last in front. -/
  free : List HandlerId
  /-- The number of places taken so far. -/
  places : Nat
  /-- The ids in use and the events that they were given out for, the latest in front. -/
  events : List (HandlerId × ε)
  /-- The handlers of every event, in the order of registration. -/
  handlers : ε → List (HandlerId × η)

namespace Registry

variable {ε η : Type}

/-- The registry without handlers. -/
def empty : Registry ε η := ⟨[], 0, [], fun _ => []⟩

instance : Inhabited (Registry ε η) := ⟨empty⟩

@[simp] theorem handlers_empty (event : ε) : (empty : Registry ε η).handlers event = [] := rfl

/-- The id that the next registration gets. -/
def nextId (r : Registry ε η) : HandlerId := r.free.headD ⟨r.places, 0⟩

/-- The event that an id in use was given out for. -/
def event? (r : Registry ε η) (id : HandlerId) : Option ε := r.events.lookup id

variable [DecidableEq ε]

/-- The handlers of every event, with those of one event changed. -/
def change (r : Registry ε η) (event : ε) (f : List (HandlerId × η) → List (HandlerId × η)) :
    ε → List (HandlerId × η) :=
  fun other => if event = other then f (r.handlers other) else r.handlers other

/-- Register a handler for an event. -/
def register (r : Registry ε η) (event : ε) (handler : η) : HandlerId × Registry ε η :=
  (r.nextId, {
    free := r.free.tail
    places := if r.free.isEmpty then r.places + 1 else r.places
    events := (r.nextId, event) :: r.events
    handlers := r.change event (· ++ [(r.nextId, handler)]) })

/-- Remove the handler of an id, if it was given out for the event; the answer says whether it was.
-/
def unregister (r : Registry ε η) (event : ε) (id : HandlerId) : Bool × Registry ε η :=
  if r.event? id = some event then
    (true, { r with
      free := ⟨id.place, id.round + 1⟩ :: r.free
      events := r.events.filter fun entry => entry.1 != id
      handlers := r.change event (·.filter fun entry => entry.1 != id) })
  else (false, r)

theorem handlers_register (r : Registry ε η) (event other : ε) (handler : η) :
    (r.register event handler).2.handlers other
      = r.handlers other ++ if event = other then [(r.nextId, handler)] else [] := by
  by_cases h : event = other <;> simp [register, change, h]

theorem handlers_unregister (r : Registry ε η) (event other : ε) (id : HandlerId) :
    (r.unregister event id).2.handlers other
      = if r.event? id = some event ∧ event = other
        then (r.handlers other).filter fun entry => entry.1 != id
        else r.handlers other := by
  unfold unregister
  by_cases hevent : r.event? id = some event
  · by_cases h : event = other <;> simp [change, hevent, h]
  · simp [hevent]

end Registry

end FormTree
