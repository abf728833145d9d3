import FormTree.Action.Apply

/-!
# The store of a form

A store holds the current state of a form, the number of batches applied so far, the listeners that
hear of every new state, and the batches that wait.  While a batch is being dispatched, further
batches are queued or rejected, as the policy says.  Here are the data; `FormTree.Execution` says
how a batch is dispatched.

A form announces every new state to its host itself.  It registers for that when it is set up, before
anybody else can, and tells nobody the id, so it always hears of a state first: a flag of the store
stands for this one listener, and the table of listeners holds host code only.

Listeners are numbered, and no number is given out again.  A number means something to the store that
gave it out and to no other.  What an id of one store takes off from another is not said here; for the
ids of handlers it is (`HandlerId`).
-/

namespace FormTree

/-- What becomes of a batch that is submitted while another is being dispatched. -/
inductive Policy where
  | queue
  | reject
deriving DecidableEq, Repr

/-- The policy in words. -/
def Policy.describe : Policy → String
  | .queue => "Queue"
  | .reject => "Reject"

/-- The id of a registered listener, for the store that gave it out. -/
abbrev ListenerId := Nat

/-- Who hears of a new state: the form itself, which announces it to its host, or host code. -/
inductive Listener (κ : Type) where
  | announces
  | host (id : ListenerId) (name : κ)

/-- What is done once with the state that a batch produced: host code, or the reports of a handle.
-/
inductive After (κ : Type) where
  | host (name : κ)
  /-- A field handle has edited the field at a path. -/
  | fieldEdited (path : Path) (namePath : String) (validated : Bool)
  /-- A field handle has removed its field. -/
  | fieldRemoved (namePath : String)
  /-- A container handle has changed the items of the container at a path. -/
  | itemsChanged (container : Container) (path : Path) (namePath : String) (validated : Bool)

/-- Whether something can come after a batch: host code after any batch, the reports of a handle only
after the batch that the handle submits. -/
def After.Suits {κ : Type} (batch : Batch κ) : After κ → Prop
  | .host _ => True
  | .fieldEdited path _ validated => ∃ update, ∃ validator : Option κ,
      batch = .editField path update :: validator.toList.map (.checkField path ·)
        ∧ validated = validator.isSome
  | .fieldRemoved _ => ∃ path, batch = [.removeField path]
  | .itemsChanged container path _ validated => ∃ action, ∃ validator : Option κ,
      batch = [action, .validateItems container path validator] ∧ validated = validator.isSome

/-- A batch with what is to be done after it. -/
structure Submission (κ : Type) where
  batch : Batch κ
  after : Option (After κ)
  suits : ∀ report ∈ after, report.Suits batch := by simp [After.Suits]

/-- What became of a submitted batch. -/
inductive Outcome where
  | applied
  /-- Submitted during another dispatch; it is applied later in that dispatch. -/
  | queued
deriving DecidableEq, Repr

/-- The store of a form. -/
structure Store (κ : Type) where
  state : Data
  /-- The number of batches applied so far. -/
  version : Nat
  policy : Policy
  /-- Whether the form announces every new state to its host. -/
  announces : Bool
  /-- The id that the next listener gets. -/
  nextListener : ListenerId
  /-- The registered listeners, in the order of registration. -/
  listeners : List (ListenerId × κ)
  /-- The batches that wait, the next one first. -/
  pending : List (Submission κ)
  /-- Whether a batch is being dispatched. -/
  dispatching : Bool

namespace Store

variable {κ : Type}

/-- A new store. -/
def create (initial : Data) (policy : Policy) (announces : Bool) : Store κ :=
  ⟨initial, 0, policy, announces, 0, [], [], false⟩

instance : Inhabited (Store κ) := ⟨create .null .queue false⟩

/-- Everybody who hears of a new state, in the order in which they are called. -/
def audience (s : Store κ) : List (Listener κ) :=
  (if s.announces then [.announces] else []) ++ s.listeners.map fun (id, name) => .host id name

/-- Register a listener. -/
def subscribe (s : Store κ) (name : κ) : ListenerId × Store κ :=
  (s.nextListener, { s with
    nextListener := s.nextListener + 1
    listeners := s.listeners ++ [(s.nextListener, name)] })

/-- Remove a listener; the answer says whether it was there. -/
def unsubscribe (s : Store κ) (id : ListenerId) : Bool × Store κ :=
  if s.listeners.any (·.1 == id) then
    (true, { s with listeners := s.listeners.filter (·.1 != id) })
  else (false, s)

/-- Put a batch behind those that wait. -/
def enqueue (s : Store κ) (submission : Submission κ) : Store κ :=
  { s with pending := s.pending ++ [submission] }

/-- Swap in the state that a batch produced. -/
def advance (s : Store κ) (next : Data) : Store κ :=
  { s with state := next, version := s.version + 1 }

end Store

/-- What can be seen of a store from outside. -/
structure StoreView where
  state : Data
  version : Nat
  policy : Policy
  listeners : Nat

/-- What can be seen of a store. -/
def Store.view {κ : Type} (s : Store κ) : StoreView :=
  ⟨s.state, s.version, s.policy, s.audience.length⟩

/-- A store in words. -/
def StoreView.describe (v : StoreView) : String :=
  "Store \x7b version: " ++ toString v.version ++ ", policy: " ++ v.policy.describe
    ++ ", listeners: " ++ toString v.listeners ++ " \x7d"

end FormTree
