/-!
# Values of a settings document

A settings document is a tree of tables.  A table remembers how it came to be, because that decides
who may add to it later: a table under a header of its own can be entered by longer headers, a table
that dotted keys made can be extended by dotted keys, a table that only longer headers imply can
still get its header once, and a table written in line is closed.
-/

namespace FormTree.Toml

/-- How a table came to be. -/
inductive Origin where
  /-- By a header of its own; the root counts as such. -/
  | header
  /-- By a header for something inside it. -/
  | implied
  /-- By a dotted key. -/
  | dotted
  /-- By an expression in braces. -/
  | inline
deriving DecidableEq, Repr

/-- A value of a document.  Numbers that are not whole and dates carry nothing: no setting has one.
-/
inductive Value where
  | string (text : String)
  | integer (value : Int)
  | float
  | boolean (value : Bool)
  | dateTime
  | array (items : List Value)
  | table (origin : Origin) (entries : List (String × Value))
  /-- Tables that share a doubly bracketed header, the latest first. -/
  | tables (items : List Value)

namespace Value

/-- The document without entries. -/
def empty : Value := .table .header []

instance : Inhabited Value := ⟨empty⟩

/-- Change the entry of a key, or make it from nothing; new entries go to the end. -/
def alter (key : String) (f : Option Value → Option Value) :
    List (String × Value) → Option (List (String × Value))
  | [] => (f none).map fun new => [(key, new)]
  | entry :: rest =>
    if entry.1 = key then (f (some entry.2)).map fun new => (key, new) :: rest
    else (alter key f rest).map (entry :: ·)

/-- Whether a dotted key may go on inside a table. -/
def Origin.extensible : Origin → Bool
  | .implied | .dotted => true
  | .header | .inline => false

/-- Follow a path of keys from a table and change the table at its end.  Missing tables on the way
are made with the given origin.  Dotted keys go only into tables that they may extend, headers into
every table that is not in line; both go into the latest of tables that share a header. -/
def enter (origin : Origin) (f : Value → Option Value) : List String → Value → Option Value
  | [], target => f target
  | key :: rest, .table own entries =>
    (alter key (fun
      | none => enter origin f rest (.table origin [])
      | some (.table o inner) =>
        if (origin = .dotted ∧ !Origin.extensible o) ∨ o = .inline then none
        else enter origin f rest (.table o inner)
      | some (.tables (latest :: others)) =>
        (enter origin f rest latest).map fun latest => .tables (latest :: others)
      | some _ => none) entries).map (.table own)
  | _ :: _, _ => none

/-- Add a new key to a table.  At the end of a dotted key the table must be one that dotted keys
made; otherwise it must not. -/
def addKey (isDotted : Bool) (key : String) (value : Value) : Value → Option Value
  | .table origin entries =>
    if decide (origin = .dotted) != isDotted then none
    else (alter key (fun
      | none => some value
      | some _ => none) entries).map (.table origin)
  | _ => none

/-- Add a value under a dotted key, whose last part is `key`. -/
def addPath (path : List String) (key : String) (value : Value) : Value → Option Value :=
  enter .dotted (addKey (!path.isEmpty) key value) path

/-- Open a table under a header, whose last part is `key`. -/
def openTable (path : List String) (key : String) (root : Value) : Option Value :=
  enter .implied (fun
    | .table origin entries =>
      (alter key (fun
        | none => some (.table .header [])
        | some (.table .implied inner) => some (.table .header inner)
        | some _ => none) entries).map (.table origin)
    | _ => none) path root

/-- Open one more table under a doubly bracketed header, whose last part is `key`. -/
def openElement (path : List String) (key : String) (root : Value) : Option Value :=
  enter .implied (fun
    | .table origin entries =>
      (alter key (fun
        | none => some (.tables [.table .header []])
        | some (.tables items) => some (.tables (.table .header [] :: items))
        | some _ => none) entries).map (.table origin)
    | _ => none) path root

/-- The value under a key of a table. -/
def get? (key : String) : Value → Option Value
  | .table _ entries => entries.lookup key
  | _ => none

end Value

end FormTree.Toml
