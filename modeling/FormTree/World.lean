import FormTree.Program

/-!
# Forms in a world

A world holds the forms that host code can reach, the host's memory, and a journal of what happened,
newest entry first.  The journal is never read by a running program; it is what statements about the
order of things are about.  It has every change of a store and of the registered handlers, and what
host code saw that looked at a store, counted a queue or counted handlers.  Every emitted event
stands in it between its beginning and its completion, with all that happened in between, so that
nested events can be told apart.
-/

namespace FormTree

/-- A form: its store, its channels and what it was set up with. -/
structure LiveForm (κ : Type) where
  store : Store κ
  channels : Channels κ
  profile : Profile

namespace LiveForm

variable {κ : Type}

/-- A form that is only a store: nothing is connected and nothing announced. -/
def bare (initial : Data) (policy : Policy) : LiveForm κ :=
  ⟨.create initial policy false, .unwired, { settings := { policy := policy } }⟩

/-- A new form: its channels are connected, the given handlers are registered, and every new state
is announced. -/
def create (profile : Profile) (handlers : List (HostEvent × κ)) (initial : Data) :
    LiveForm κ where
  store := .create initial profile.settings.policy true
  channels := Channels.connected.registerAll
    (handlers.map fun (event, name) => (.external event, .host name))
  profile := profile

instance : Inhabited (LiveForm κ) := ⟨bare .null .queue⟩

end LiveForm

/-- Something that happened to a form. -/
inductive Occurrence (κ : Type) where
  /-- A form was set up with handlers of its own and an initial state. -/
  | created (form : FormId) (handlers : List (HostEvent × κ)) (initial : Data)
  /-- The application of a batch begins, against a state. -/
  | began (form : FormId) (batch : Batch κ) (state : Data)
  /-- A batch was applied and gave a new version and state. -/
  | applied (form : FormId) (version : Nat) (state : Data)
  /-- A batch failed. -/
  | failed (form : FormId) (error : Fault)
  /-- A batch was put behind those that wait. -/
  | queued (form : FormId) (submission : Submission κ)
  /-- A batch was refused because of another dispatch. -/
  | rejected (form : FormId) (submission : Submission κ)
  /-- A listener was registered. -/
  | subscribed (form : FormId) (id : ListenerId) (name : κ)
  /-- A listener was to be removed, and was or was not there. -/
  | unsubscribed (form : FormId) (id : ListenerId) (found : Bool)
  /-- A listener is called with a state. -/
  | notified (form : FormId) (listener : Listener κ) (state : Data)
  /-- The listeners were called, and what comes after the batch, if anything, is done with the
  state. -/
  | followed (form : FormId) (after : Option (After κ)) (state : Data)
  /-- An empty batch was submitted; what comes after it, if anything, is done with the state. -/
  | skipped (form : FormId) (after : Option (After κ)) (state : Data)
  /-- Host code looked at a store. -/
  | looked (form : FormId) (view : StoreView)
  /-- A handler was registered for an event. -/
  | registered (form : FormId) (event : Event) (id : HandlerId) (name : κ)
  /-- The handler of an event was to be removed, and was or was not there. -/
  | removed (form : FormId) (event : Event) (id : HandlerId) (found : Bool)
  /-- An event is emitted. -/
  | emitted (form : FormId) (event : Event) (payload : Payload)
  /-- A handler is called. -/
  | delivered (form : FormId) (event : Event) (id : HandlerId) (handler : Handler κ)
    (payload : Payload)
  /-- All handlers of an emitted event have returned; this many were called. -/
  | completed (form : FormId) (event : Event) (calls : Nat)
  /-- Host code asked how many ids a queue holds. -/
  | counted (form : FormId) (queue : Aggregate) (size : Nat)
  /-- Host code asked how many handlers stand behind an event. -/
  | polled (form : FormId) (event : Event) (count : Nat)

/-- The forms, the host's memory and the journal. -/
structure World (σ κ : Type) where
  forms : Array (LiveForm κ)
  memory : σ
  journal : List (Occurrence κ)

namespace World

variable {σ κ : Type}

/-- A world in which nothing has happened yet. -/
def start (forms : Array (LiveForm κ)) (memory : σ) : World σ κ := ⟨forms, memory, []⟩

/-- The form of an id, if it exists. -/
def form? (w : World σ κ) (form : FormId) : Option (LiveForm κ) := w.forms[form]?

/-- The world with a form replaced. -/
def setForm (w : World σ κ) (form : FormId) (live : LiveForm κ) : World σ κ :=
  { w with forms := w.forms.setIfInBounds form live }

/-- The world with a further journal entry. -/
def note (w : World σ κ) (occurrence : Occurrence κ) : World σ κ :=
  { w with journal := occurrence :: w.journal }

end World

end FormTree
