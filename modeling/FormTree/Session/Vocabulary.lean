import FormTree.Form.Basic
import FormTree.Path.Key
import FormTree.Session.Rules

/-!
# The vocabulary of sessions

A session is a list of steps that a host takes with stores, channels or forms, together with what
its callbacks do when they are called.  Everything here is data.  A callback name says in full what
the callback does: the rules of a validator, the computation of an update, or the reactions of a
listener or handler, which are steps again.

Every reaction may be carried out a limited number of times, counted per registration.
-/

namespace FormTree.Session

/-- What a handle is asked to do. -/
inductive HandleCall (κ : Type) where
  | edit (update : Update κ)
  | remove
  | value
  | removeItem (index : Nat)
  | reorder (order : List Nat)
  | editItems (update : Update κ)
  | items
  | append
  | appendForm (template : String)
  | describe

/-- A condition on the state of a form: the value at a path. -/
structure Condition where
  path : Path
  value : Data

mutual

/-- What an update computes from the previous value. -/
inductive Computation where
  | identity
  | increment
  | halve
  | negate
  | append (text : Option String)
  | wrap
  | reverse
  | push (item : Data)
  | pop
  /-- Append the version of the store. -/
  | version
  /-- Submit a batch while the update is being computed. -/
  | submit (request : Request)

/-- A batch to be submitted, with the tag under which the follow-up is logged, and what the
follow-up submits in turn. -/
inductive Request where
  | mk (batch : List (Action Callback)) (tag : Option String) (next : Option Request)

/-- A step with a store. -/
inductive StoreStep where
  | submit (request : Request)
  | subscribe (id : String) (reactions : List (Nat × Option Condition × StoreStep))
  | unsubscribe (id : String)
  | debug

/-- A step with the channels of a form. -/
inductive ChannelStep where
  | on (event : Event) (id : String) (reactions : List (Nat × ChannelStep))
  | off (event : Event) (id : String)
  | emit (event : Event) (payload : Payload)
  | count (event : Event)
  | unknown (error : NoSuchEvent)

/-- What a handler of a form reacts with: a call on the handle that it was registered with, an event
on one of the channels of its form, or a name that is no event. -/
inductive Response where
  | call (handle : Option (Entry Callback)) (call : HandleCall Callback)
  | emit (event : Event) (payload : Payload)
  | unknown (error : NoSuchEvent)

/-- The name of a callback. -/
inductive Callback where
  | validator (rules : Rules)
  /-- An update; `home` is the form whose store it can use. -/
  | update (home : Option FormId) (computation : Computation)
  | follower (tag : String) (next : Option Request)
  /-- A listener of a store, whose reactions count from `first` on. -/
  | listener (id : String) (first : Nat) (reactions : List (Nat × Option Condition × StoreStep))
  /-- A handler of a channel. -/
  | channelHandler (id : String) (event : Event) (first : Nat)
      (reactions : List (Nat × ChannelStep))
  /-- A handler of a form; a reaction may depend on the id of the payload and on the state. -/
  | formHandler (id : String) (event : Event) (first : Nat)
      (reactions : List (Option String × Option Condition × Response))
  /-- A handler that every form of the session has from the start. -/
  | template (event : HostEvent)
  /-- A component that edits or deletes its field when it is asked to. -/
  | component (handle : FieldHandle Callback) (deletes : Bool)

end

instance : Inhabited Request := ⟨.mk [] none none⟩

/-! ## What is recorded -/

/-- What a step is answered with. -/
inductive Answer where
  | ok
  | applied
  | queued
  | failed (error : Fault)
  | unknownEvent (error : NoSuchEvent)
  | flag (value : Bool)
  | number (value : Nat)
  | text (value : String)
  /-- A plain value. -/
  | json (value : Json)
  /-- The value of something. -/
  | valueOf (value : Json)
  /-- The path, name path and description of a handle. -/
  | handle (path : Path) (namePath : String) (description : String)

/-- The answer of an operation that succeeds with nothing. -/
def Answer.ofUnit : Except Fault Unit → Answer
  | .ok () => .ok
  | .error e => .failed e

/-- The answer of an operation that succeeds with something. -/
def Answer.ofExcept {α : Type} (f : α → Answer) : Except Fault α → Answer
  | .ok result => f result
  | .error e => .failed e

/-- Something that host code saw or did. -/
inductive LogEntry where
  | listener (id : String) (version : Nat) (state : Data)
  | reaction (id : String) (answer : Answer)
  | after (tag : String) (version : Nat) (state : Data)
  | afterSubmit (tag : String) (answer : Answer)
  | updateSubmit (answer : Answer)
  | handler (id : String) (event : Event) (payload : Payload)
  | template (event : HostEvent) (payload : Payload)
  | componentEdit (namePath : String) (answer : Answer)
  | componentDelete (namePath : String) (answer : Answer)

/-- The memory of a session's host. -/
structure Memory where
  /-- What was logged since the last step, newest first. -/
  log : List LogEntry := []
  /-- How often each registered reaction may still be carried out. -/
  left : Array Nat := #[]
  /-- The listeners by the id of their registration, newest first. -/
  listeners : List (String × ListenerId) := []
  /-- The handlers of all channels by the id of their registration, newest first. -/
  handlers : List (String × HandlerId) := []
  /-- The keys of the paths of rendered nodes, in order of first appearance. -/
  keys : List UInt64 := []
  /-- The render handlers called since the last render, newest first. -/
  calls : List String := []

instance : Inhabited Memory := ⟨{}⟩

/-- Programs of a session's host. -/
abbrev Play (α : Type) := Program Memory Callback α

end FormTree.Session
