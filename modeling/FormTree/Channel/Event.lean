import FormTree.Data.Json

/-!
# Events

A form talks on two channels.  On the internal one, handles and components signal what happens to
single fields; on the external one, the form tells its host what happened to it, and the host asks
for edits.  An event carries a payload, and some payloads name what they are about by an id.
-/

namespace FormTree

/-- What a form tells its host, and what the host asks of the components of a form. -/
inductive HostEvent where
  | change
  | busy
  | idle
  | valid
  | invalid
  | fieldChange
  | fieldRemoved
  | formInitialised
  | formRemoved
  | fieldEdit
  | fieldDelete
deriving DecidableEq, Repr

/-- What handles and components signal inside a form. -/
inductive Signal where
  | fieldBusy
  | fieldIdle
  | fieldValid
  | fieldInvalid
  | fieldChange
  | fieldRemoved
  | formInitialised
  | formRemoved
  | fieldEdit
  | fieldDelete
deriving DecidableEq, Repr

/-- An event of either channel. -/
inductive Event where
  | internal (event : Signal)
  | external (event : HostEvent)
deriving DecidableEq, Repr

namespace HostEvent

/-- Every external event. -/
def all : List HostEvent :=
  [.change, .busy, .idle, .valid, .invalid, .fieldChange, .fieldRemoved, .formInitialised,
    .formRemoved, .fieldEdit, .fieldDelete]

/-- The name of the event. -/
def name : HostEvent → String
  | .change => "change"
  | .busy => "busy"
  | .idle => "idle"
  | .valid => "valid"
  | .invalid => "invalid"
  | .fieldChange => "field:change"
  | .fieldRemoved => "field:removed"
  | .formInitialised => "form:initialised"
  | .formRemoved => "form:removed"
  | .fieldEdit => "field:edit"
  | .fieldDelete => "field:delete"

/-- The event of a name. -/
def ofName? (name : String) : Option HostEvent := all.find? (·.name == name)

theorem ofName?_name (e : HostEvent) : ofName? e.name = some e := by cases e <;> decide

end HostEvent

namespace Signal

/-- Every internal event. -/
def all : List Signal :=
  [.fieldBusy, .fieldIdle, .fieldValid, .fieldInvalid, .fieldChange, .fieldRemoved,
    .formInitialised, .formRemoved, .fieldEdit, .fieldDelete]

/-- The name of the event. -/
def name : Signal → String
  | .fieldBusy => "field:busy"
  | .fieldIdle => "field:idle"
  | .fieldValid => "field:valid"
  | .fieldInvalid => "field:invalid"
  | .fieldChange => "field:change"
  | .fieldRemoved => "field:removed"
  | .formInitialised => "form:initialised"
  | .formRemoved => "form:removed"
  | .fieldEdit => "field:edit"
  | .fieldDelete => "field:delete"

/-- The event of a name. -/
def ofName? (name : String) : Option Signal := all.find? (·.name == name)

theorem ofName?_name (e : Signal) : ofName? e.name = some e := by cases e <;> decide

end Signal

/-- The name of an event of either channel. -/
def Event.name : Event → String
  | .internal e => e.name
  | .external e => e.name

/-- A name that no event of the asked channel has. -/
structure NoSuchEvent where
  name : String

/-- The wording of the error. -/
def NoSuchEvent.message (e : NoSuchEvent) : String := s!"unknown event `{e.name}`"

/-! ## Payloads -/

/-- What an event carries. -/
inductive Payload where
  | none
  /-- The id of a component, for the busy and validity signals. -/
  | component (id : String)
  /-- A field or container by its name path. -/
  | field (namePath : String) (value : Option Json)
  /-- The whole state of a form. -/
  | state (state : Data)
  | custom (value : Json)

instance : Inhabited Payload := ⟨.none⟩

/-- The id that a payload is about: a component or a name path. -/
def Payload.id? : Payload → Option String
  | .component id => some id
  | .field namePath _ => some namePath
  | _ => Option.none

end FormTree
