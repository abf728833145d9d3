import FormTree.Node.Attribute
import FormTree.Path.Key
import FormTree.Action.Apply

/-!
# Sessions with plain values

Sequences of steps with a tree of form data, with a path, with an attribute tree, and with actions
on a state.  Nothing is listened to and nothing is rendered, so these sessions are plain functions:
they pass the current value from one step to the next.
-/

namespace FormTree.Session

/-! ## Form data -/

/-- A step with a tree of form data. -/
inductive DataStep where
  | describe
  | child (index : Nat)
  | node (path : Path)
  | replace (path : Path) (value : Data)
  | erase (path : Path)
  | compare (other : Data)

/-- The answer to a step with a tree of form data. -/
inductive DataAnswer where
  | described (current : Data)
  | found (result : Option Data)
  | flag (value : Bool)

/-- Take a step: its answer, and the tree that the next step starts from.  A change that is found
possible is made. -/
def DataStep.take (current : Data) : DataStep → DataAnswer × Data
  | .describe => (.described current, current)
  | .child index => (.found (current.child? index), current)
  | .node path => (.found (current.node? path), current)
  | .replace path value =>
    let next := current.replace? path value
    (.found next, next.getD current)
  | .erase path =>
    let next := current.erase? path
    (.found next, next.getD current)
  | .compare other => (.flag (current.same other), current)

/-- Take steps with a tree of form data. -/
def runData (current : Data) : List DataStep → List DataAnswer
  | [] => []
  | step :: rest => (step.take current).1 :: runData (step.take current).2 rest

/-! ## Paths -/

/-- A step with a path. -/
inductive PathStep where
  | descend (index : Nat) (offsets : List Nat)
  | join (offsets : List Nat)
  | parent
  | compare (other : Path)

/-- The answer to a step with a path. -/
inductive PathAnswer where
  | reached (path : Path)
  | compared (equal sameKey : Bool)

/-- Take a step: its answer, and the path that the next step starts from.  The root is its own
parent here. -/
def PathStep.take (current : Path) : PathStep → PathAnswer × Path
  | .descend index offsets =>
    let next := current.descend index offsets
    (.reached next, next)
  | .join offsets => (.reached (current ++ offsets), current ++ offsets)
  | .parent =>
    let next := (Path.parent? current).getD current
    (.reached next, next)
  | .compare other => (.compared (current == other) (current.key == other.key), current)

/-- Take steps with a path. -/
def runPath (current : Path) : List PathStep → List PathAnswer
  | [] => []
  | step :: rest => (step.take current).1 :: runPath (step.take current).2 rest

/-- The name paths on the way from a base through segments. -/
def runNames (separator : String) (base : Option String) : List String → List String
  | [] => []
  | segment :: rest =>
    let name := NamePath.append separator base segment
    name :: runNames separator (some name) rest

/-! ## Attributes -/

/-- A step into an attribute tree: to the value of a key, or to an item. -/
inductive AttributeStep where
  | key (name : String)
  | item (index : Nat)

/-- Where steps into an attribute tree lead. -/
def lookUp (a : Attribute) : List AttributeStep → Option Attribute
  | [] => some a
  | .key name :: rest => (a.get? name).bind (lookUp · rest)
  | .item index :: rest => (a.toArray?.bind (·[index]?)).bind (lookUp · rest)

/-! ## Actions -/

/-- What became of a state: the new one and whether it is equal to the old one, or a failure. -/
abbrev Change := Except Fault (Data × Bool)

/-- The result of a change to a state, compared with the state. -/
def compared (state : Data) (result : Except Fault Data) : Change :=
  result.map fun next => (next, next.same state)

/-- Apply actions one by one; an action that fails leaves the state as it was. -/
def runActions {κ : Type} (answers : Answers κ) (state : Data) : List (Action κ) → List Change
  | [] => []
  | action :: rest =>
    let result := Action.apply answers state action
    compared state result :: runActions answers (result.toOption.getD state) rest

/-- Apply actions as one batch. -/
def runBatch {κ : Type} (answers : Answers κ) (state : Data) (batch : Batch κ) : Change :=
  compared state (Batch.apply answers state batch)

end FormTree.Session
