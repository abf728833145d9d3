import FormTree.Channel.Wiring
import FormTree.Settings.Basic

/-!
# Programs that use forms

Host code is a `Program`: a finite tree of calls, each followed by a program for every reply.  A
call asks one form for something, or reads or replaces the host's own memory `σ`.  Programs are the
only way for host code to act, so what holds of every program holds of every host.

A `Host` gives a program for each role that a callback name `κ` can have: computing an update,
finding errors, listening to a store, handling an event, and following up on a batch.  The programs
of the form itself (`Program.follow`) are written with the same calls.
-/

namespace FormTree

/-- Which form a call is about. -/
abbrev FormId := Nat

/-- What a form was set up with. -/
structure Profile where
  settings : Settings := {}
  /-- Child form templates by name. -/
  templates : List (String × Data) := []

instance : Inhabited Profile := ⟨{}⟩

/-- The child form template of a name. -/
def Profile.template? (p : Profile) (name : String) : Option Data := p.templates.lookup name

/-- What a program can ask for. -/
inductive Call (σ κ : Type) where
  /-- Read the host's memory. -/
  | memory
  /-- Replace the host's memory. -/
  | setMemory (memory : σ)
  | look (form : FormId)
  | profile (form : FormId)
  | submit (form : FormId) (submission : Submission κ)
  | subscribe (form : FormId) (listener : κ)
  | unsubscribe (form : FormId) (id : ListenerId)
  | register (form : FormId) (event : Event) (handler : κ)
  | unregister (form : FormId) (event : Event) (id : HandlerId)
  | emit (form : FormId) (event : Event) (payload : Payload)
  | count (form : FormId) (event : Event)
  /-- The number of ids in a queue. -/
  | waiting (form : FormId) (queue : Aggregate)
  /-- Set up a new form; the given handlers are registered before anything happens to it. -/
  | create (profile : Profile) (handlers : List (HostEvent × κ)) (initial : Data)

/-- What a call is answered with. -/
def Call.Reply {σ κ : Type} : Call σ κ → Type
  | .memory => σ
  | .setMemory _ => Unit
  | .look _ => StoreView
  | .profile _ => Profile
  | .submit _ _ => Except Fault Outcome
  | .subscribe _ _ => ListenerId
  | .unsubscribe _ _ => Bool
  | .register _ _ _ => HandlerId
  | .unregister _ _ _ => Bool
  | .emit _ _ _ => Nat
  | .count _ _ => Nat
  | .waiting _ _ => Nat
  | .create _ _ _ => FormId

/-- A finite tree of calls that ends in a result. -/
inductive Program (σ κ α : Type) where
  | done (result : α)
  | ask (call : Call σ κ) (next : call.Reply → Program σ κ α)

namespace Program

variable {σ κ α β : Type}

/-- One program after the other. -/
def andThen (p : Program σ κ α) (f : α → Program σ κ β) : Program σ κ β :=
  match p with
  | .done result => f result
  | .ask call next => .ask call fun reply => (next reply).andThen f

instance : Monad (Program σ κ) where
  pure := .done
  bind := andThen

theorem andThen_done (p : Program σ κ α) : p.andThen .done = p := by
  induction p with
  | done _ => rfl
  | ask _ _ ih => exact congrArg _ (funext ih)

theorem andThen_assoc {γ : Type} (p : Program σ κ α) (f : α → Program σ κ β)
    (g : β → Program σ κ γ) : (p.andThen f).andThen g = p.andThen fun a => (f a).andThen g := by
  induction p with
  | done _ => rfl
  | ask _ _ ih => exact congrArg _ (funext ih)

instance : LawfulMonad (Program σ κ) :=
  LawfulMonad.mk' _ andThen_done (fun _ _ => rfl) andThen_assoc

/-- The program of a single call. -/
def call (c : Call σ κ) : Program σ κ c.Reply := .ask c .done

/-- Interpret a program by interpreting its calls. -/
def interpret {m : Type → Type} [Monad m] (perform : (c : Call σ κ) → m c.Reply) :
    Program σ κ α → m α
  | .done result => pure result
  | .ask c next => perform c >>= fun reply => interpret perform (next reply)

/-! ## Calls by name -/

/-- The host's memory. -/
def memory : Program σ κ σ := call .memory

/-- Replace the host's memory. -/
def setMemory (memory : σ) : Program σ κ Unit := call (.setMemory memory)

/-- Change the host's memory. -/
def change (f : σ → σ) : Program σ κ Unit := do setMemory (f (← memory))

/-- What can be seen of a form's store. -/
def look (form : FormId) : Program σ κ StoreView := call (.look form)

/-- What a form was set up with. -/
def profile (form : FormId) : Program σ κ Profile := call (.profile form)

/-- Submit a batch to a form's store. -/
def submit (form : FormId) (submission : Submission κ) : Program σ κ (Except Fault Outcome) :=
  call (.submit form submission)

/-- Register a listener. -/
def subscribe (form : FormId) (listener : κ) : Program σ κ ListenerId :=
  call (.subscribe form listener)

/-- Remove a listener. -/
def unsubscribe (form : FormId) (id : ListenerId) : Program σ κ Bool := call (.unsubscribe form id)

/-- Register a handler of an event. -/
def register (form : FormId) (event : Event) (handler : κ) : Program σ κ HandlerId :=
  call (.register form event handler)

/-- Remove a handler of an event. -/
def unregister (form : FormId) (event : Event) (id : HandlerId) : Program σ κ Bool :=
  call (.unregister form event id)

/-- Emit an event; the answer is the number of handlers called. -/
def emit (form : FormId) (event : Event) (payload : Payload) : Program σ κ Nat :=
  call (.emit form event payload)

/-- The number of handlers of an event. -/
def count (form : FormId) (event : Event) : Program σ κ Nat := call (.count form event)

/-- The number of ids in a queue. -/
def waiting (form : FormId) (queue : Aggregate) : Program σ κ Nat := call (.waiting form queue)

/-! ## What the form itself does -/

/-- Report the outcome of a validation, if the settings ask for it. -/
def announceValidity (form : FormId) (namePath : String) (errors : List String) :
    Program σ κ Unit := do
  if (← profile form).settings.fieldValidity then
    let event := if errors.isEmpty then Signal.fieldValid else .fieldInvalid
    let _ ← emit form (.internal event) (.field namePath (some (Json.ofStrings errors)))

/-- Announce a new state to the host. -/
def announce (form : FormId) (state : Data) : Program σ κ Unit := do
  let _ ← emit form (.external .change) (.state state)

/-- The slot of a definition that may be missing. -/
def slotOf (definition : Option Data) (slot : Nat) : Option Data := definition.bind (·.child? slot)

/-- The error messages in a slot of a definition that may be missing. -/
def messagesAt (definition : Option Data) (slot : Nat) : List String :=
  ((slotOf definition slot).map Data.texts).getD []

/-- Report that the value at a name path has changed, and its validity if it is validated. -/
def reportChange (form : FormId) (namePath : String) (value : Json) (validated : Bool)
    (errors : List String) : Program σ κ Unit := do
  let _ ← emit form (.internal .fieldChange) (.field namePath (some value))
  if validated then announceValidity form namePath errors

/-- What a handle reports once its batch has been applied, from the state that the batch produced.
Host code follows up by itself and has no report here. -/
def report (form : FormId) (state : Data) : After κ → Program σ κ Unit
  | .host _ => pure ()
  | .fieldEdited path namePath validated =>
    let definition := state.node? path
    let value := ((slotOf definition Kind.valueAt).map Data.toJson).getD .null
    reportChange form namePath value validated (messagesAt definition Kind.field.errorsAt)
  | .fieldRemoved namePath => do
    let _ ← emit form (.internal .fieldRemoved) (.field namePath none)
    announceValidity form namePath []
  | .itemsChanged container path namePath validated =>
    let definition := state.node? path
    let items := Data.itemsJson (slotOf definition container.itemsAt)
    reportChange form namePath items validated (messagesAt definition container.errorsAt)

end Program

/-- The code of a host: a program for each role of a callback name. -/
structure Host (σ κ : Type) where
  /-- Compute the new content of a slot from the previous one. -/
  update : κ → Data → Program σ κ Data
  /-- Find the errors of a value. -/
  errors : κ → Json → Program σ κ (List String)
  /-- Hear of a new state of a form. -/
  listen : κ → FormId → Data → Program σ κ Unit
  /-- Handle an event of a form. -/
  handle : κ → FormId → Payload → Program σ κ Unit
  /-- Follow up on a batch, with the state that it produced. -/
  follow : κ → FormId → Data → Program σ κ Unit

end FormTree
