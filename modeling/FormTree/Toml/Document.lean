import FormTree.Toml.Scalar

/-!
# Reading a settings document

`Toml.parse` reads a whole document: lines that are blank or a comment, headers of tables in single
or double brackets, and keys with values.  Arrays may run over several lines and end in a comma;
tables in braces may not.  Arrays and braces nest less than 80 deep, and a key has fewer than 80
parts.
-/

namespace FormTree.Toml

/-! ## Keys -/

/-- Whether a character may stand in a key without quotes. -/
def isKeyChar (c : Char) : Bool := c.isAlphanum || c == '_' || c == '-'

/-- One part of a key. -/
def scanKeyPart : Scan String
  | '"' :: rest => scanLine '"' (rest.length + 1) [] rest
  | '\'' :: rest => scanLine '\'' (rest.length + 1) [] rest
  | cs =>
    match cs.takeWhile isKeyChar with
    | [] => none
    | part => some (String.ofList part, cs.dropWhile isKeyChar)

/-- How deep values may nest, and how many parts a key may have: less than this. -/
def limit : Nat := 80

/-- A key of at most `parts` parts, with blanks around each: the parts before the last, and the
last. -/
def scanKey : Nat → Scan (List String × String)
  | 0, _ => none
  | parts + 1, cs => do
    let (part, rest) ← scanKeyPart (skipBlanks cs)
    match skipBlanks rest with
    | '.' :: rest =>
      let ((path, last), rest) ← scanKey parts rest
      return ((part :: path, last), rest)
    | rest => return (([], part), rest)

/-! ## Values -/

/-- Skip blanks, line endings and comments. -/
def skipLines : Nat → List Char → List Char
  | 0, cs => cs
  | fuel + 1, cs =>
    match skipBlanks cs with
    | '#' :: rest =>
      let behind := rest.dropWhile isCommentChar
      match newline? behind with
      | some rest => skipLines fuel rest
      | none => behind
    | cs =>
      match newline? cs with
      | some rest => skipLines fuel rest
      | none => cs

/-- Skip everything between the items of an array. -/
def skipSpace (cs : List Char) : List Char := skipLines (cs.length + 1) cs

mutual

/-- A value that may nest `depth` deep. -/
def scanValue : Nat → Nat → Scan Value
  | 0, _, _ => none
  | fuel + 1, depth, cs =>
    match cs with
    | '"' :: _ | '\'' :: _ => (scanString cs).map fun (s, rest) => (.string s, rest)
    | 't' :: 'r' :: 'u' :: 'e' :: rest => some (.boolean true, rest)
    | 'f' :: 'a' :: 'l' :: 's' :: 'e' :: rest => some (.boolean false, rest)
    | '[' :: rest =>
      match depth with
      | 0 => none
      | depth + 1 => scanItems fuel depth [] rest
    | '\x7b' :: rest =>
      match depth, skipBlanks rest with
      | 0, _ => none
      | _ + 1, '\x7d' :: rest => some (.table .inline [], rest)
      | depth + 1, _ => scanPairs fuel depth (.table .inline []) rest
    | c :: _ =>
      if c.isDigit ∨ c = '+' ∨ c = '-' ∨ c = 'i' ∨ c = 'n' then
        -- a date starts with the digits of a number, so it is tried first
        match scanDateTime cs with
        | some found => some found
        | none => scanNumber cs
      else none
    | [] => none

/-- The items of an array behind those read so far, up to its closing bracket. -/
def scanItems : Nat → Nat → List Value → Scan Value
  | 0, _, _, _ => none
  | fuel + 1, depth, read, cs =>
    match skipSpace cs with
    | ']' :: rest => some (.array read.reverse, rest)
    | cs =>
      match scanValue fuel depth cs with
      | none => none
      | some (item, rest) =>
        match skipSpace rest with
        | ',' :: rest => scanItems fuel depth (item :: read) rest
        | ']' :: rest => some (.array (item :: read).reverse, rest)
        | _ => none

/-- The keys with values in braces, added to those read so far, up to the closing brace. -/
def scanPairs : Nat → Nat → Value → Scan Value
  | 0, _, _, _ => none
  | fuel + 1, depth, read, cs =>
    match scanKey (limit - 1) cs with
    | some ((path, key), '=' :: rest) =>
      match scanValue fuel depth (skipBlanks rest) with
      | none => none
      | some (value, rest) =>
        match Value.addPath path key value read with
        | none => none
        | some read =>
          match skipBlanks rest with
          | ',' :: rest => scanPairs fuel depth read rest
          | '\x7d' :: rest => some (read, rest)
          | _ => none
    | _ => none

end

/-! ## Lines -/

/-- The text behind the end of a line, which may carry blanks and a comment. -/
def endLine? (cs : List Char) : Option (List Char) :=
  match skipComment (skipBlanks cs) with
  | [] => some []
  | rest => newline? rest

/-- A document under construction: the root table, and the header that is open. -/
structure Draft where
  root : Value
  current : List String

namespace Draft

/-- The draft of an empty document. -/
def empty : Draft := ⟨.empty, []⟩

/-- Add a value under a key to the table that is open. -/
def add (d : Draft) (path : List String) (key : String) (value : Value) : Option Draft :=
  (Value.enter .implied (Value.addPath path key value) d.current d.root).map (⟨·, d.current⟩)

/-- Open a table under a header. -/
def openTable (d : Draft) (path : List String) (key : String) : Option Draft :=
  (d.root.openTable path key).map (⟨·, path ++ [key]⟩)

/-- Open one more table under a doubly bracketed header. -/
def openElement (d : Draft) (path : List String) (key : String) : Option Draft :=
  (d.root.openElement path key).map (⟨·, path ++ [key]⟩)

end Draft

/-- Read one line, which is not blank, into a draft. -/
def scanEntry (d : Draft) : Scan Draft
  | '[' :: '[' :: rest =>
    match scanKey (limit - 1) rest with
    | some ((path, key), ']' :: ']' :: rest) => do
      return (← d.openElement path key, ← endLine? rest)
    | _ => none
  | '[' :: rest =>
    match scanKey (limit - 1) rest with
    | some ((path, key), ']' :: rest) => do
      return (← d.openTable path key, ← endLine? rest)
    | _ => none
  | cs =>
    match scanKey (limit - 1) cs with
    | some ((path, key), '=' :: rest) => do
      let rest := skipBlanks rest
      let (value, rest) ← scanValue (2 * rest.length + 2) (limit - 1) rest
      return (← d.add path key value, ← endLine? rest)
    | _ => none

/-- Read the lines of a document into a draft. -/
def scanDocument : Nat → Draft → List Char → Option Draft
  | 0, _, _ => none
  | fuel + 1, d, cs =>
    match skipSpace cs with
    | [] => some d
    | cs =>
      match scanEntry d cs with
      | some (d, rest) => scanDocument fuel d rest
      | none => none

/-- The root table of a document; a byte-order mark in front is skipped. -/
def parse (text : String) : Option Value :=
  let cs := match text.toList with
    | '\ufeff' :: rest => rest
    | cs => cs
  (scanDocument (cs.length + 1) .empty cs).map (·.root)

end FormTree.Toml
