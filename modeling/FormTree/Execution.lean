import FormTree.World

/-!
# Running programs

`Program.run` performs the calls of a program on a world.  Performing a call can run host code: a
batch asks updates and validators, an applied batch calls listeners and what comes after it, and an
emitted event calls handlers.  Host code can call again, so the depth to which this may nest is
given as fuel; it also bounds the number of waiting batches that one dispatch works off.  A run that
stays within its fuel does not depend on it.

A batch is dispatched like this.  The first batch submitted to a store at rest is applied at once;
then the batches that were queued meanwhile are applied, in the order in which they were queued,
until none is left.  To apply a batch is to compute the new state, swap it in, call the listeners
that are registered at that moment, and do what comes after the batch.  A batch that fails does
nothing.  If the first batch fails, the dispatch ends there, and what was queued meanwhile waits for
the next dispatch.
-/

namespace FormTree

/-- Why a run stopped before its end. -/
inductive Halt where
  | outOfFuel
  | unknownForm (form : FormId)
deriving DecidableEq, Repr

/-- A step of a run: it changes the world, or it stops the run. -/
abbrev Run (σ κ : Type) := StateT (World σ κ) (Except Halt)

namespace Run

variable {σ κ : Type}

/-- Stop the run. -/
def halt {α : Type} (reason : Halt) : Run σ κ α := fun _ => .error reason

/-- A form. -/
def live (form : FormId) : Run σ κ (LiveForm κ) := do
  match (← get).form? form with
  | some live => pure live
  | none => halt (.unknownForm form)

/-- Change a form. -/
def setLiveForm (form : FormId) (live : LiveForm κ) : Run σ κ Unit :=
  modify (·.setForm form live)

/-- Write a journal entry. -/
def note (occurrence : Occurrence κ) : Run σ κ Unit := modify (·.note occurrence)

/-- The store of a form. -/
def store (form : FormId) : Run σ κ (Store κ) := do return (← live form).store

/-- Change the store of a form, with an answer. -/
def changeStore {α : Type} (form : FormId) (f : Store κ → α × Store κ) : Run σ κ α := do
  let live ← Run.live form
  let (answer, store) := f live.store
  setLiveForm form { live with store := store }
  pure answer

/-- Change the channels of a form, with an answer. -/
def changeChannels {α : Type} (form : FormId) (f : Channels κ → α × Channels κ) : Run σ κ α := do
  let live ← Run.live form
  let (answer, channels) := f live.channels
  setLiveForm form { live with channels := channels }
  pure answer

/-! ## Single calls

Host code is run by `exec`, which `Program.run` provides. -/

section Calls

variable (host : Host σ κ) (exec : {α : Type} → Program σ κ α → Run σ κ α)

/-- What a connection does with an event. -/
def connect (form : FormId) (payload : Payload) : Connection → Run σ κ Unit
  | .relays target => do let _ ← exec (Program.emit form target payload)
  | .enters queue =>
    match payload.id? with
    | none => pure ()
    | some id => do
      if ← changeChannels form (·.insertId queue id) then
        let _ ← exec (Program.emit form (.external queue.onFirst) payload)
  | .leaves queue =>
    match payload.id? with
    | none => pure ()
    | some id => do
      if ← changeChannels form (·.eraseId queue id) then
        let _ ← exec (Program.emit form (.external queue.onEmpty) payload)

/-- What a handler does with an event. -/
def deliver (form : FormId) (payload : Payload) : Handler κ → Run σ κ Unit
  | .connection connection => connect exec form payload connection
  | .host name => exec (host.handle name form payload)

/-- Call everything that stands behind an event at this moment; the answer is the number of calls.
-/
def emit (form : FormId) (event : Event) (payload : Payload) : Run σ κ Nat := do
  note (.emitted form event payload)
  let handlers := (← live form).channels.handlers event
  handlers.forM fun (id, handler) => do
    note (.delivered form event id handler payload)
    deliver host exec form payload handler
  note (.completed form event handlers.length)
  pure handlers.length

/-- What a listener does with a new state. -/
def notify (form : FormId) (state : Data) : Listener κ → Run σ κ Unit
  | .announces => exec (Program.announce form state)
  | .host _ name => exec (host.listen name form state)

/-- Do what comes after a batch, with a state. -/
def follow (form : FormId) (state : Data) : Option (After κ) → Run σ κ Unit
  | none => pure ()
  | some (.host name) => exec (host.follow name form state)
  | some after => exec (Program.report form state after)

/-- Compute the state that a batch makes of the current one, asking host code. -/
def compute (form : FormId) (batch : Batch κ) : Run σ κ (Except Fault Data) := do
  let state := (← store form).state
  note (.began form batch state)
  Batch.applyM (fun name previous => exec (host.update name previous))
    (fun name value => exec (host.errors name value)) state batch

/-- Apply a batch, call the listeners, and do what comes after it. -/
def apply (form : FormId) (submission : Submission κ) : Run σ κ (Except Fault Unit) := do
  match ← compute host exec form submission.batch with
  | .error e =>
    note (.failed form e)
    pure (.error e)
  | .ok next =>
    -- who hears of the new state is fixed before the first listener is called
    let audience ← changeStore form fun s => (s.audience, s.advance next)
    note (.applied form (← store form).version next)
    audience.forM fun listener => do
      note (.notified form listener next)
      notify host exec form next listener
    note (.followed form submission.after next)
    follow host exec form next submission.after
    pure (.ok ())

/-- Apply the batches that wait, at most `fuel` of them. -/
def drain (form : FormId) : Nat → Run σ κ Unit
  | 0 => do
    match (← store form).pending with
    | [] => pure ()
    | _ :: _ => halt .outOfFuel
  | fuel + 1 => do
    match (← store form).pending with
    | [] => pure ()
    | submission :: rest =>
      -- out of the queue before it is applied: what it queues goes behind the others
      changeStore form fun s => ((), { s with pending := rest })
      let _ ← apply host exec form submission
      drain form fuel

/-- Mark the store of a form as dispatching, or as at rest. -/
def setDispatching (form : FormId) (dispatching : Bool) : Run σ κ Unit :=
  changeStore form fun s => ((), { s with dispatching := dispatching })

/-- Submit a batch: nothing is to be done for an empty one, and during a dispatch the policy
decides. -/
def submit (fuel : Nat) (form : FormId) (submission : Submission κ) :
    Run σ κ (Except Fault Outcome) := do
  let s ← store form
  if submission.batch.isEmpty then
    note (.skipped form submission.after s.state)
    follow host exec form s.state submission.after
    pure (.ok .applied)
  else if s.dispatching then
    match s.policy with
    | .reject =>
      note (.rejected form submission)
      pure (.error .reentrantDispatch)
    | .queue =>
      note (.queued form submission)
      changeStore form fun s => (.ok .queued, s.enqueue submission)
  else
    setDispatching form true
    match ← apply host exec form submission with
    | .error e =>
      setDispatching form false
      pure (.error e)
    | .ok () =>
      drain host exec form fuel
      setDispatching form false
      pure (.ok .applied)

/-- Perform one call. -/
def perform (fuel : Nat) : (c : Call σ κ) → Run σ κ c.Reply
  | .memory => do return (← get).memory
  | .setMemory memory => modify fun w => { w with memory := memory }
  | .look form => do
    let view := (← store form).view
    note (.looked form view)
    return view
  | .profile form => do return (← live form).profile
  | .submit form submission => submit host exec fuel form submission
  | .subscribe form name => do
    let id ← changeStore form (·.subscribe name)
    note (.subscribed form id name)
    return id
  | .unsubscribe form id => do
    let found ← changeStore form (·.unsubscribe id)
    note (.unsubscribed form id found)
    return found
  | .register form event name => do
    let id ← changeChannels form (·.register event (.host name))
    note (.registered form event id name)
    return id
  | .unregister form event id => do
    let found ← changeChannels form (·.unregister event id)
    note (.removed form event id found)
    return found
  | .emit form event payload => emit host exec form event payload
  | .count form event => do
    let count := (← live form).channels.count event
    note (.polled form event count)
    return count
  | .waiting form queue => do
    let size := ((← live form).channels.queue queue).size
    note (.counted form queue size)
    return size
  | .create profile handlers initial => do
    let form := (← get).forms.size
    modify fun w => { w with forms := w.forms.push (.create profile handlers initial) }
    note (.created form handlers initial)
    return form

end Calls

end Run

namespace Program

variable {σ κ : Type}

/-- Run a program, with host code nested at most `fuel` deep. -/
def run (host : Host σ κ) : Nat → {α : Type} → Program σ κ α → Run σ κ α
  | 0, _, _ => Run.halt .outOfFuel
  | fuel + 1, _, p => p.interpret (Run.perform host (run host fuel) fuel)

/-- Run a program on a world: its result and the world it leaves, or why it stopped. -/
def exec {α : Type} (host : Host σ κ) (fuel : Nat) (p : Program σ κ α) (w : World σ κ) :
    Except Halt (α × World σ κ) :=
  (p.run host fuel).run w

end Program

end FormTree
