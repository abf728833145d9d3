import FormTree.Session.Render

/-!
# Running sessions

A session takes its steps one after the other on one world.  The record of a step is its answer,
what was logged during it, and what can be seen of the store and the queues afterwards.
-/

namespace FormTree.Session

/-- How deep the callbacks of a session may nest, and how many batches one dispatch may work off. -/
def fuel : Nat := 100000

/-- What can be seen of a form after a step. -/
structure Snapshot where
  version : Nat
  state : Data
  busy : Nat
  invalid : Nat

/-- The record of a step. -/
structure Record (α : Type) where
  answer : α
  log : List LogEntry
  snapshot : Option Snapshot

/-- A world of this session. -/
abbrev Stage := World Memory Callback

/-- Run a program on a stage, with an empty log. -/
def perform {α : Type} (p : Play α) (stage : Stage) : Except Halt (α × List LogEntry × Stage) := do
  let stage := { stage with memory := { stage.memory with log := [] } }
  let (result, stage) ← Program.exec host fuel p stage
  return (result, stage.memory.log.reverse, stage)

/-- What can be seen of a form. -/
def snapshot (stage : Stage) (form : FormId) : Option Snapshot :=
  (stage.form? form).map fun live =>
    ⟨live.store.version, live.store.state, live.channels.busy.size,
      live.channels.invalid.size⟩

/-- Take steps one after the other, with a record of each. -/
def records {α β : Type} (step : α → Play β) (form : FormId) :
    List α → Stage → Except Halt (List (Record β))
  | [], _ => .ok []
  | action :: rest, stage => do
    let (answer, log, stage) ← perform (step action) stage
    return ⟨answer, log, snapshot stage form⟩ :: (← records step form rest stage)

/-! ## Stores and channels alone -/

/-- A session with a single store. -/
def runStore (initial : Data) (policy : Policy) (steps : List StoreStep) :
    Except Halt (List (Record Answer)) :=
  records (Play.storeStep 0) 0 steps (.start #[.bare initial policy] {})

/-- A session with the two channels of a form, connected or not. -/
def runChannels (wired : Bool) (steps : List ChannelStep) : Except Halt (List (Record Answer)) :=
  let form : LiveForm Callback := .bare .null .queue
  let form := if wired then { form with channels := .connected } else form
  records (Play.channelStep 0) 0 steps (.start #[form] {})

/-! ## Forms -/

/-- What a handle is looked up as. -/
inductive EntryQuery where
  | any
  | as (sort : EntrySort)

/-- Where a call takes its handle from: a slot that holds one, or the names of a form. -/
inductive HandleSource where
  | slot (name : String)
  | named (query : EntryQuery) (name : String)

/-- A reaction of a form's handler, before its handle has been looked up. -/
inductive ResponsePlan where
  | call (slot : String) (call : HandleCall Callback)
  | emit (event : Event) (payload : Payload)
  | unknown (error : NoSuchEvent)

/-- A planned reaction of a form's handler: how often, for which id, and in which state. -/
structure Reaction where
  times : Nat
  whenId : Option String
  condition : Option Condition
  response : ResponsePlan

/-- A step with a form. -/
inductive FormStep where
  | create (initial : Data)
  | discard
  | render
  | state
  | directory
  | contains (name : String)
  | value (name : String)
  | edit (name : String) (update : Update Callback)
  | hold (query : EntryQuery) (name : String) (slot : String)
  | act (source : HandleSource) (call : HandleCall Callback)
  | on (event : Event) (id : String) (reactions : List Reaction)
  | off (event : Event) (id : String)
  | emit (event : Event) (payload : Payload)
  | count (event : Event)
  | submit (batch : Batch Callback)
  | unknown (error : NoSuchEvent)

/-- The answer to a step with a form. -/
inductive FormAnswer where
  | plain (answer : Answer)
  /-- The output of a render, and the calls of render handlers in their order. -/
  | rendered (result : Except Fault (Rendered Output)) (calls : List String)
  | directory (directory : Directory Callback)

/-- What a session knows of its forms: those it has made, those of them that it has given up, and
the handles it holds. -/
structure Desk where
  forms : Array (Form Callback)
  discarded : List FormId
  slots : List (String × Entry Callback)

/-- How the forms of a session are made. -/
structure Template where
  config : Config Callback
  components : Bool
  events : List HostEvent

namespace Play

/-- Make a form. -/
def createForm (template : Template) (initial : Data) : Play (Form Callback) :=
  Form.create template.config (template.events.map fun event => (event, .template event)) initial

/-- Look a name up. -/
def find (directory : Directory Callback) (name : String) :
    EntryQuery → Except Fault (Entry Callback)
  | .any => directory.entry name
  | .as .field => (directory.field name).map .field
  | .as (.container sort) => (directory.container sort name).map .container

/-- Look up the handles of planned reactions. -/
def resolve (desk : Desk) : ResponsePlan → Response
  | .call slot call => .call (desk.slots.lookup slot) call
  | .emit event payload => .emit event payload
  | .unknown error => .unknown error

/-- Take a step with a form of the session. -/
def formStep (template : Template) (desk : Desk) (form : Form Callback) :
    FormStep → Play (FormAnswer × Desk)
  | .create initial => do
    let new ← createForm template initial
    return (.plain (.number desk.forms.size), { desk with forms := desk.forms.push new })
  | .discard => do
    -- a form is given up once; handles that are still held go on acting on it
    if form.id ∈ desk.discarded then return (.plain .ok, desk)
    form.discard
    return (.plain .ok, { desk with discarded := form.id :: desk.discarded })
  | .render => do
    Program.change fun memory => { memory with calls := [] }
    let renderer := renderer template.components template.config.templateNames
    let (form', result) ← form.render template.config renderer
    let calls := (← Program.memory).calls.reverse
    let forms := desk.forms.map fun other => if other.id = form'.id then form' else other
    return (.rendered result calls, { desk with forms := forms })
  | .state => do return (.plain (.json (← Program.look form.id).state.toJson), desk)
  | .directory => pure (.directory form.directory, desk)
  | .contains name => pure (.plain (.flag (form.directory.contains name)), desk)
  | .value name => do return (.plain (.ofExcept .valueOf (← form.value name)), desk)
  | .edit name update => do return (.plain (.ofUnit (← form.edit name update)), desk)
  | .hold query name slot =>
    match find form.directory name query with
    | .ok entry => pure (.plain .ok, { desk with slots := (slot, entry) :: desk.slots })
    | .error e => pure (.plain (.failed e), desk)
  | .act source call => do
    let entry := match source with
      | .named query name => find form.directory name query
      | .slot name =>
        match desk.slots.lookup name with
        | some entry => .ok entry
        | none => .error (.unknownName name)
    match entry with
    | .ok entry => return (.plain (← callEntry entry call), desk)
    | .error e => return (.plain (.failed e), desk)
  | .on event id reactions => do
    let first ← allot (reactions.map (·.times))
    let reactions := reactions.map fun reaction =>
      (reaction.whenId, reaction.condition, resolve desk reaction.response)
    return (.plain (← register form.id event id (.formHandler id event first reactions)), desk)
  | .off event id => do return (.plain (← unregister form.id event id), desk)
  | .emit event payload => do return (.plain (.number (← Program.emit form.id event payload)), desk)
  | .count event => do return (.plain (.number (← Program.count form.id event)), desk)
  | .submit batch => do return (.plain (.ofUnit (← form.submit batch)), desk)
  | .unknown error => pure (.plain (.unknownEvent error), desk)

end Play

/-- Take steps with the forms of a session, with a record of each.  A step for a form that does not
exist ends the session. -/
def formRecords (template : Template) : List (Nat × FormStep) → Desk → Stage →
    Except Halt (List (Record FormAnswer))
  | [], _, _ => .ok []
  | (index, action) :: rest, desk, stage => do
    match desk.forms[index]? with
    | none => .error (.unknownForm index)
    | some form =>
      let ((answer, desk), log, stage) ← perform (Play.formStep template desk form action) stage
      return ⟨answer, log, snapshot stage form.id⟩ :: (← formRecords template rest desk stage)

/-- A session with forms: what was logged while the first one was made, and the records of the
steps. -/
def runForms (template : Template) (initial : Data) (steps : List (Nat × FormStep)) :
    Except Halt (List LogEntry × List (Record FormAnswer)) := do
  let (form, log, stage) ← perform (Play.createForm template initial) (.start #[] {})
  return (log, ← formRecords template steps ⟨#[form], [], []⟩ stage)

end FormTree.Session
