import FormTree.Json.Basic
import FormTree.Number.Scan

/-!
# Reading JSON text

`Json.parse` reads exactly one value, with blanks around it, and refuses everything outside the
grammar: a byte-order mark, comments, trailing commas, leading zeros, raw control characters and
lone surrogates.  Arrays and objects nest at most 127 deep.  The members of an object are put into
order, and of a repeated key the last value counts.
-/

namespace FormTree.Json

/-- Blanks between tokens. -/
def isBlank (c : Char) : Bool := c == ' ' || c == '\n' || c == '\t' || c == '\r'

/-- The text without its leading blanks. -/
def skipBlanks (cs : List Char) : List Char := cs.dropWhile isBlank

/-! ## Strings -/

/-- The value of a hexadecimal digit of either case. -/
def hexValue? (c : Char) : Option Nat :=
  if c.isDigit then some (c.toNat - '0'.toNat)
  else if 'a' ≤ c ∧ c ≤ 'f' then some (c.toNat - 'a'.toNat + 10)
  else if 'A' ≤ c ∧ c ≤ 'F' then some (c.toNat - 'A'.toNat + 10)
  else none

/-- The number of four hexadecimal digits. -/
def hexUnit? (a b c d : Char) : Option Nat := do
  return (((← hexValue? a) * 16 + (← hexValue? b)) * 16 + (← hexValue? c)) * 16 + (← hexValue? d)

/-- The character that a letter stands for after a backslash. -/
def unescapeLetter? (c : Char) : Option Char :=
  match c with
  | '"' => some '"'
  | '\\' => some '\\'
  | '/' => some '/'
  | 'b' => some '\x08'
  | 'f' => some '\x0c'
  | 'n' => some '\n'
  | 'r' => some '\r'
  | 't' => some '\t'
  | _ => none

/-- The leading half of a pair of surrogates. -/
def isHighSurrogate (unit : Nat) : Bool := 0xD800 ≤ unit && unit < 0xDC00

/-- The trailing half of a pair of surrogates. -/
def isLowSurrogate (unit : Nat) : Bool := 0xDC00 ≤ unit && unit < 0xE000

/-- The characters of a string up to its closing quote, put in front of `read` backwards, and the
rest of the text. -/
def scanString (read : List Char) : List Char → Option (String × List Char)
  | '"' :: rest => some (String.ofList read.reverse, rest)
  | '\\' :: 'u' :: a :: b :: c :: d :: rest => do
    let unit ← hexUnit? a b c d
    if isHighSurrogate unit then
      match rest with
      -- a character above U+FFFF is written as two units
      | '\\' :: 'u' :: a :: b :: c :: d :: rest =>
        let low ← hexUnit? a b c d
        if isLowSurrogate low then
          let code := 0x10000 + (unit - 0xD800) * 0x400 + (low - 0xDC00)
          scanString (Char.ofNat code :: read) rest
        else none
      | _ => none
    else if isLowSurrogate unit then none
    else scanString (Char.ofNat unit :: read) rest
  | '\\' :: letter :: rest => do scanString ((← unescapeLetter? letter) :: read) rest
  | c :: rest => if c.toNat < 0x20 ∨ c = '\\' then none else scanString (c :: read) rest
  | [] => none

/-! ## Values -/

mutual

/-- A value at the front of a text that may nest `depth` deep, and the rest of the text. -/
def scanValue : Nat → Nat → List Char → Option (Json × List Char)
  | 0, _, _ => none
  | fuel + 1, depth, cs =>
    match skipBlanks cs with
    | 'n' :: 'u' :: 'l' :: 'l' :: rest => some (.null, rest)
    | 't' :: 'r' :: 'u' :: 'e' :: rest => some (.bool true, rest)
    | 'f' :: 'a' :: 'l' :: 's' :: 'e' :: rest => some (.bool false, rest)
    | '"' :: rest => (scanString [] rest).map fun (s, rest) => (.string s, rest)
    | '[' :: rest =>
      match depth, skipBlanks rest with
      | 0, _ => none
      | _ + 1, ']' :: rest => some (.array [], rest)
      | depth + 1, _ => scanItems fuel depth [] rest
    | '\x7b' :: rest =>
      match depth, skipBlanks rest with
      | 0, _ => none
      | _ + 1, '\x7d' :: rest => some (.object [], rest)
      | depth + 1, _ => scanFields fuel depth [] rest
    | rest => (Number.scan rest).map fun (n, rest) => (.number n, rest)

/-- The items of an array up to its closing bracket, behind the items read so far. -/
def scanItems : Nat → Nat → List Json → List Char → Option (Json × List Char)
  | 0, _, _, _ => none
  | fuel + 1, depth, read, cs =>
    match scanValue fuel depth cs with
    | none => none
    | some (item, rest) =>
      match skipBlanks rest with
      | ',' :: rest => scanItems fuel depth (item :: read) rest
      | ']' :: rest => some (.array (item :: read).reverse, rest)
      | _ => none

/-- The members of an object up to its closing brace, behind the members read so far. -/
def scanFields : Nat → Nat → List (String × Json) → List Char → Option (Json × List Char)
  | 0, _, _, _ => none
  | fuel + 1, depth, read, cs =>
    match skipBlanks cs with
    | '"' :: rest =>
      match scanString [] rest with
      | none => none
      | some (key, rest) =>
        match skipBlanks rest with
        | ':' :: rest =>
          match scanValue fuel depth rest with
          | none => none
          | some (value, rest) =>
            match skipBlanks rest with
            | ',' :: rest => scanFields fuel depth ((key, value) :: read) rest
            | '\x7d' :: rest => some (.ofFields ((key, value) :: read).reverse, rest)
            | _ => none
        | _ => none
    | _ => none

end

/-- How deep arrays and objects may nest. -/
def maxDepth : Nat := 127

/-- The value that a text holds, if it holds exactly one.  Every second call passes a character, so
the length of the text bounds the recursion. -/
def parse (text : String) : Option Json :=
  let cs := text.toList
  match scanValue (2 * cs.length + 2) maxDepth cs with
  | some (value, rest) => if (skipBlanks rest).isEmpty then some value else none
  | none => none

end FormTree.Json
