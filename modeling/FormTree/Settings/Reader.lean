import FormTree.Settings.Basic
import FormTree.Toml.Document

/-!
# Reading settings

The settings stand in three sections of a document, each with one key.  Missing sections and keys
keep their defaults, and unknown ones are ignored.  A section may also be written as an array of its
values, or as a date, which has none of the keys; and a policy as a table with its name as the only
key and nothing under it.

A file must be text in UTF-8 before it is read as settings.
-/

namespace FormTree.Settings

/-- Why settings could not be loaded. -/
inductive LoadError where
  /-- There is no file, or it is not text. -/
  | unreadable
  /-- The text is not a document with settings. -/
  | invalid
deriving DecidableEq, Repr

/-- The value of a key in a section; a section that is an array holds it in front. -/
def sectionKey (root : Toml.Value) (name key : String) : Option (Option Toml.Value) :=
  match root.get? name with
  | none => some none
  | some (.table _ entries) => some (entries.lookup key)
  | some (.array items) => some items.head?
  | some (.tables items) => some items.getLast?
  | some .dateTime => some none
  | some _ => none

/-- The policy of a name. -/
def policyOfName? (name : String) : Option Policy :=
  if name = "queue" then some .queue else if name = "reject" then some .reject else none

/-- Whether a value is a table or array with nothing in it. -/
def isHollow : Toml.Value → Bool
  | .table _ entries => entries.isEmpty
  | .array items | .tables items => items.isEmpty
  | _ => false

/-- The policy that a value stands for. -/
def policyOf? : Toml.Value → Option Policy
  | .string name => policyOfName? name
  | .table _ [(name, inner)] => if isHollow inner then policyOfName? name else none
  | _ => none

/-- The settings in a document. -/
def ofDocument? (root : Toml.Value) : Option Settings := do
  let separator ← match ← sectionKey root "compiler" "name_separator" with
    | none => some NamePath.defaultSeparator
    | some (.string separator) => some separator
    | some _ => none
  let validity ← match ← sectionKey root "events" "field_validity" with
    | none => some true
    | some (.boolean validity) => some validity
    | some _ => none
  let policy ← match ← sectionKey root "store" "reentrancy" with
    | none => some .queue
    | some value => policyOf? value
  return ⟨separator, validity, policy⟩

/-- The settings in the text of a document. -/
def ofText (text : String) : Except LoadError Settings :=
  match (Toml.parse text).bind ofDocument? with
  | some settings => .ok settings
  | none => .error .invalid

/-- The settings in a file, given by its content if it exists. -/
def load (content : Option ByteArray) : Except LoadError Settings :=
  match content.bind String.fromUTF8? with
  | some text => ofText text
  | none => .error .unreadable

end FormTree.Settings
