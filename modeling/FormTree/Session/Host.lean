import FormTree.Session.Computation
import FormTree.Execution

/-!
# The host of a session

What the callbacks of a session do.  Every callback first logs that it was called and with what, and
then carries out its reactions, each of which is logged with its answer.
-/

namespace FormTree.Session

namespace Play

/-- Write a log entry. -/
def log (entry : LogEntry) : Play Unit :=
  Program.change fun memory => { memory with log := entry :: memory.log }

/-- Set up the counts of reactions; the answer is the index of the first. -/
def allot (times : List Nat) : Play Nat := do
  let memory ← Program.memory
  Program.setMemory { memory with left := memory.left ++ times.toArray }
  return memory.left.size

/-- Use up one of the times of a reaction; the answer says whether one was left. -/
def spend (index : Nat) : Play Bool := do
  let memory ← Program.memory
  match memory.left[index]?.getD 0 with
  | 0 => return false
  | times + 1 =>
    Program.setMemory { memory with left := memory.left.setIfInBounds index times }
    return true

/-- Carry out reactions in turn, where `first` is the index of their counts.  A reaction that does
not fit uses up nothing; the others are logged with their answers. -/
def react {α : Type} (id : String) (fits : α → Bool) (perform : α → Play Answer) :
    Nat → List α → Play Unit
  | _, [] => pure ()
  | index, reaction :: rest => do
    if fits reaction then
      if ← spend index then
        let answer ← perform reaction
        log (.reaction id answer)
    react id fits perform (index + 1) rest

/-! ## Stores -/

/-- Submit a request; with a tag, the answer says what became of the batch. -/
def submit (form : FormId) : Request → Play Answer
  | .mk batch none _ => do
    return .ofUnit ((← Program.submit form { batch, after := none }).map fun _ => ())
  | .mk batch (some tag) next => do
    return .ofExcept (fun
      | .applied => .applied
      | .queued => .queued)
      (← Program.submit form { batch, after := some (.host (.follower tag next)) })

/-- Take a step with a store. -/
def storeStep (form : FormId) : StoreStep → Play Answer
  | .submit request => submit form request
  | .subscribe id reactions => do
    let first ← allot (reactions.map fun reaction => reaction.1)
    let listener ← Program.subscribe form (.listener id first reactions)
    Program.change fun memory => { memory with listeners := (id, listener) :: memory.listeners }
    return .ok
  | .unsubscribe id => do
    match (← Program.memory).listeners.lookup id with
    | some listener => return .flag (← Program.unsubscribe form listener)
    | none => return .flag false
  | .debug => do return .text (← Program.look form).describe

/-- Whether a state meets a condition, if there is one. -/
def meets (state : Data) : Option Condition → Bool
  | none => true
  | some condition =>
    match state.node? condition.path with
    | some found => found.same condition.value
    | none => false

/-! ## Channels -/

/-- Register a handler and remember the id of its registration. -/
def register (form : FormId) (event : Event) (id : String) (handler : Callback) :
    Play Answer := do
  let registered ← Program.register form event handler
  Program.change fun memory =>
    { memory with handlers := (id, registered) :: memory.handlers }
  return .ok

/-- Remove the handler that was registered last under an id, on whatever channel that was. -/
def unregister (form : FormId) (event : Event) (id : String) : Play Answer := do
  match (← Program.memory).handlers.lookup id with
  | some handler => return .flag (← Program.unregister form event handler)
  | none => return .flag false

/-- Take a step with the channels of a form. -/
def channelStep (form : FormId) : ChannelStep → Play Answer
  | .on event id reactions => do
    let first ← allot (reactions.map fun reaction => reaction.1)
    register form event id (.channelHandler id event first reactions)
  | .off event id => unregister form event id
  | .emit event payload => do return .number (← Program.emit form event payload)
  | .count event => do return .number (← Program.count form event)
  | .unknown error => pure (.unknownEvent error)

/-! ## Handles -/

/-- Do something with a field handle. -/
def callField (handle : FieldHandle Callback) : HandleCall Callback → Play Answer
  | .edit update => do return .ofUnit (← handle.edit update)
  | .remove => do return .ofUnit (← handle.remove)
  | .value => do return .ofExcept (fun value => .valueOf value.toJson) (← handle.value)
  | .describe => pure (.handle handle.path handle.namePath handle.describe)
  | _ => pure (.failed (.wrongEntry handle.namePath .field))

/-- Do something with a container handle. -/
def callContainer (handle : ContainerHandle Callback) : HandleCall Callback → Play Answer
  | .removeItem index => do return .ofUnit (← handle.removeItem index)
  | .reorder order => do return .ofUnit (← handle.reorder order)
  | .editItems update => do return .ofUnit (← handle.editItems update)
  | .items => do return .ofExcept .json (← handle.items)
  | .append => do return .ofUnit (← handle.append)
  | .appendForm template => do return .ofUnit (← handle.appendForm template)
  | .describe => pure (.handle handle.path handle.namePath handle.describe)
  | _ => pure (.failed (.wrongEntry handle.namePath (.container handle.container)))

/-- Do something with a handle. -/
def callEntry (entry : Entry Callback) (call : HandleCall Callback) : Play Answer :=
  match entry with
  | .field handle => callField handle call
  | .container handle => callContainer handle call

/-- Carry out the reaction of a form's handler. -/
def respond (form : FormId) : Response → Play Answer
  | .call (some entry) call => callEntry entry call
  | .call none _ => pure (.failed (.unknownName ""))
  | .emit event payload => do return .number (← Program.emit form event payload)
  | .unknown error => pure (.unknownEvent error)

/-- What a component does when it is asked to edit or to delete its field. -/
def component (handle : FieldHandle Callback) (deletes : Bool) (payload : Payload) :
    Play Unit := do
  if deletes then
    if payload.id? = some handle.namePath then
      let answer := Answer.ofUnit (← handle.remove)
      log (.componentDelete handle.namePath answer)
  else
    match payload with
    | .field namePath (some value) =>
      if namePath = handle.namePath then
        let answer := Answer.ofUnit (← handle.edit (.fixed (Data.ofJson value)))
        log (.componentEdit handle.namePath answer)
    | _ => pure ()

/-! ## Callbacks -/

/-- Compute an update, for a form whose store it can use or without one. -/
def compute (home : Option FormId) (c : Computation) (previous : Data) : Play Data := do
  match home, c with
  | some form, .version => return c.apply (← Program.look form).version previous
  | some form, .submit request =>
    let answer ← submit form request
    log (.updateSubmit answer)
    return previous
  | _, _ => return c.apply 0 previous

/-- Hear of a new state. -/
def listen (form : FormId) (state : Data) : Callback → Play Unit
  | .listener id first reactions => do
    log (.listener id (← Program.look form).version state)
    react id (fun reaction => meets state reaction.2.1)
      (fun reaction => storeStep form reaction.2.2) first reactions
  | _ => pure ()

/-- Handle an event. -/
def handle (form : FormId) (payload : Payload) : Callback → Play Unit
  | .channelHandler id event first reactions => do
    log (.handler id event payload)
    react id (fun _ => true) (fun reaction => channelStep form reaction.2) first reactions
  | .formHandler id event first reactions => do
    log (.handler id event payload)
    let state := (← Program.look form).state
    react id (fun reaction =>
        (reaction.1.all fun id => payload.id? == some id) && meets state reaction.2.1)
      (fun reaction => respond form reaction.2.2) first reactions
  | .template event => log (.template event payload)
  | .component field deletes => component field deletes payload
  | _ => pure ()

/-- Follow up on a batch. -/
def follow (form : FormId) (state : Data) : Callback → Play Unit
  | .follower tag next => do
    log (.after tag (← Program.look form).version state)
    match next with
    | none => pure ()
    | some request =>
      let answer ← submit form request
      log (.afterSubmit tag answer)
  | _ => pure ()

end Play

/-- The host of a session. -/
def host : Host Memory Callback where
  update name previous :=
    match name with
    | .update home computation => Play.compute home computation previous
    | _ => pure previous
  errors name value :=
    match name with
    | .validator rules => pure (rules.errors value)
    | _ => pure []
  listen name form state := Play.listen form state name
  handle name form payload := Play.handle form payload name
  follow name form state := Play.follow form state name

/-- What the callbacks answer where there is no store to act on. -/
def answers : Answers Callback where
  update name previous :=
    match name with
    | .update _ computation => computation.apply 0 previous
    | _ => previous
  errors name value :=
    match name with
    | .validator rules => rules.errors value
    | _ => []

end FormTree.Session
