import FormTree.Json.Parser
import FormTree.Toml.Value

/-!
# Strings, numbers and dates of a settings document

Readers for the front of a text: each gives what it read and the rest of the text, or nothing.
-/

namespace FormTree.Toml

/-- A reader of the front of a text. -/
abbrev Scan (α : Type) := List Char → Option (α × List Char)

/-- Blanks inside a line. -/
def isBlank (c : Char) : Bool := c == ' ' || c == '\t'

/-- The text without its leading blanks. -/
def skipBlanks (cs : List Char) : List Char := cs.dropWhile isBlank

/-- The text behind the line ending at its front. -/
def newline? : List Char → Option (List Char)
  | '\n' :: rest => some rest
  | '\r' :: '\n' :: rest => some rest
  | _ => none

/-- Whether a character may stand in a comment: no control character but the tab. -/
def isCommentChar (c : Char) : Bool := c == '\t' || (0x20 ≤ c.toNat && c.toNat != 0x7f)

/-- The text behind the comment at its front, which may be missing. -/
def skipComment : List Char → List Char
  | '#' :: rest => rest.dropWhile isCommentChar
  | cs => cs

/-! ## Strings -/

/-- The character of a code point in hexadecimal digits; surrogates have none. -/
def ofHex? (digits : List Char) : Option Char := do
  let code ← digits.foldlM (fun n c => return 16 * n + (← Json.hexValue? c)) 0
  if h : code.isValidChar then some (Char.ofNatAux code h) else none

/-- The character of the escape behind a backslash. -/
def scanEscape : Scan Char
  | 'b' :: rest => some ('\x08', rest)
  | 't' :: rest => some ('\t', rest)
  | 'n' :: rest => some ('\n', rest)
  | 'f' :: rest => some ('\x0c', rest)
  | 'r' :: rest => some ('\r', rest)
  | '"' :: rest => some ('"', rest)
  | '\\' :: rest => some ('\\', rest)
  | 'u' :: rest =>
    if rest.length < 4 then none else (ofHex? (rest.take 4)).map fun c => (c, rest.drop 4)
  | 'U' :: rest =>
    if rest.length < 8 then none else (ofHex? (rest.take 8)).map fun c => (c, rest.drop 8)
  | _ => none

/-- A string of one line up to its closing quote.  Escapes count only between double quotes. -/
def scanLine (quote : Char) : Nat → List Char → Scan String
  | 0, _, _ => none
  | _ + 1, _, [] => none
  | fuel + 1, read, c :: rest =>
    if c = quote then some (String.ofList read.reverse, rest)
    else if c = '\\' ∧ quote = '"' then
      match scanEscape rest with
      | some (c, rest) => scanLine quote fuel (c :: read) rest
      | none => none
    else if isCommentChar c then scanLine quote fuel (c :: read) rest
    else none

/-- The text behind a backslash at the end of a line, without the blanks and line endings that
follow. -/
def skipContinuation (cs : List Char) : Option (List Char) :=
  (newline? (skipBlanks cs)).map skipAll
where
  /-- Skip blanks and line endings. -/
  skipAll : List Char → List Char
    | '\n' :: rest => skipAll rest
    | '\r' :: '\n' :: rest => skipAll rest
    | c :: rest => if isBlank c then skipAll rest else c :: rest
    | [] => []

/-- A string of several lines up to its three closing quotes.  One or two quotes may stand anywhere,
also right before the closing ones. -/
def scanLines (quote : Char) : Nat → List Char → Scan String
  | 0, _, _ => none
  | _ + 1, _, [] => none
  | fuel + 1, read, c :: rest =>
    if c = quote then
      -- the last three of three to five quotes close the string
      let quotes := ((c :: rest).takeWhile (· == quote)).length
      let rest := (c :: rest).dropWhile (· == quote)
      if quotes < 3 then scanLines quote fuel (List.replicate quotes quote ++ read) rest
      else if quotes < 6 then
        some (String.ofList (List.replicate (quotes - 3) quote ++ read).reverse, rest)
      else none
    else if c = '\\' ∧ quote = '"' then
      match scanEscape rest, skipContinuation rest with
      | some (c, rest), _ => scanLines quote fuel (c :: read) rest
      | none, some rest => scanLines quote fuel read rest
      | none, none => none
    else
      match newline? (c :: rest) with
      | some rest => scanLines quote fuel ('\n' :: read) rest
      | none => if isCommentChar c then scanLines quote fuel (c :: read) rest else none

/-- The text without a line ending at its front. -/
def skipNewline (cs : List Char) : List Char := (newline? cs).getD cs

/-- A string of any of the four forms. -/
def scanString : Scan String
  | '"' :: '"' :: '"' :: rest => scanLines '"' (rest.length + 1) [] (skipNewline rest)
  | '\'' :: '\'' :: '\'' :: rest => scanLines '\'' (rest.length + 1) [] (skipNewline rest)
  | '"' :: rest => scanLine '"' (rest.length + 1) [] rest
  | '\'' :: rest => scanLine '\'' (rest.length + 1) [] rest
  | _ => none

/-! ## Numbers -/

/-- Digits with single underscores between them, at least one digit. -/
def scanDigits (isDigit : Char → Bool) : Scan (List Char) := fun cs =>
  match cs with
  | c :: rest => if isDigit c then some (go [c] rest) else none
  | [] => none
where
  /-- The digits that follow those read so far. -/
  go (read : List Char) : List Char → List Char × List Char
    | '_' :: c :: rest =>
      if isDigit c then go (c :: read) rest else (read.reverse, '_' :: c :: rest)
    | c :: rest => if isDigit c then go (c :: read) rest else (read.reverse, c :: rest)
    | [] => (read.reverse, [])

/-- The digits of a whole decimal number: no zero in front of other digits. -/
def scanWhole : Scan (List Char)
  | '0' :: rest => some (['0'], rest)
  | cs => scanDigits Char.isDigit cs

/-- The sign at the front of a text: whether it is a minus. -/
def scanSign : List Char → Bool × List Char
  | '+' :: rest => (false, rest)
  | '-' :: rest => (true, rest)
  | cs => (false, cs)

/-- A signed integer of 64 bits. -/
def int64? (i : Int) : Option Value :=
  if -Nat.pow 2 63 ≤ i ∧ i < Nat.pow 2 63 then some (.integer i) else none

/-- An integer in a base other than ten. -/
def scanBased (base : Nat) (isDigit : Char → Bool) : Scan Value := fun cs => do
  let (digits, rest) ← scanDigits isDigit cs
  let value := digits.foldl (fun n c => base * n + (Json.hexValue? c).getD 0) 0
  return (← int64? value, rest)

/-- A decimal exponent. -/
def scanExponent : Scan (List Char)
  | e :: rest =>
    if e = 'e' ∨ e = 'E' then
      let (negative, rest) := scanSign rest
      (scanDigits Char.isDigit rest).map fun (digits, rest) =>
        (if negative then '-' :: digits else digits, rest)
    else none
  | [] => none

/-- The fraction behind a decimal point. -/
def scanFraction : Scan (List Char)
  | '.' :: rest => scanDigits Char.isDigit rest
  | _ => none

/-- Whether a decimal number is at most the greatest double, or negative. -/
def inFloatRange (negative : Bool) (whole fraction exponent : List Char) : Bool :=
  let exponent : Int := match exponent with
    | '-' :: digits => -(Number.ofDigits digits : Int)
    | digits => Number.ofDigits digits
  negative ||
    (Binary64.ofDecimal false (Number.ofDigits (whole ++ fraction))
      (exponent - fraction.length)).isSome

/-- A decimal number: an integer, or a float if it has a fraction or an exponent. -/
def scanDecimal : Scan Value := fun cs => do
  let (negative, cs) := scanSign cs
  let (whole, rest) ← scanWhole cs
  match scanFraction rest, scanExponent rest with
  | some (fraction, rest), _ =>
    let (exponent, rest) := (scanExponent rest).getD (['0'], rest)
    if inFloatRange negative whole fraction exponent then some (.float, rest) else none
  | none, some (exponent, rest) =>
    if inFloatRange negative whole [] exponent then some (.float, rest) else none
  | none, none =>
    let value : Int := Number.ofDigits whole
    return (← int64? (if negative then -value else value), rest)

/-- A number that is not a date. -/
def scanNumber : Scan Value := fun cs =>
  match cs with
  | '0' :: 'x' :: rest => scanBased 16 (fun c => (Json.hexValue? c).isSome) rest
  | '0' :: 'o' :: rest => scanBased 8 (fun c => '0' ≤ c && c ≤ '7') rest
  | '0' :: 'b' :: rest => scanBased 2 (fun c => c == '0' || c == '1') rest
  | _ =>
    match (scanSign cs).2 with
    | 'i' :: 'n' :: 'f' :: rest => some (.float, rest)
    | 'n' :: 'a' :: 'n' :: rest => some (.float, rest)
    | _ => scanDecimal cs

/-! ## Dates and times -/

/-- A number of exactly `count` digits between two bounds. -/
def scanFixed (count least greatest : Nat) : Scan Nat := fun cs =>
  let digits := cs.take count
  let value := Number.ofDigits digits
  if digits.length = count ∧ digits.all Char.isDigit ∧ least ≤ value ∧ value ≤ greatest then
    some (value, cs.drop count)
  else none

/-- The text behind a character at its front. -/
def expect (c : Char) : List Char → Option (List Char)
  | d :: rest => if c = d then some rest else none
  | [] => none

/-- The number of days of a month. -/
def daysOf (year month : Nat) : Nat :=
  if month = 2 then
    if year % 4 = 0 ∧ (year % 100 ≠ 0 ∨ year % 400 = 0) then 29 else 28
  else if month = 4 ∨ month = 6 ∨ month = 9 ∨ month = 11 then 30 else 31

/-- The text behind the date at its front. -/
def skipDate (cs : List Char) : Option (List Char) := do
  let (year, rest) ← scanFixed 4 0 9999 cs
  let (month, rest) ← scanFixed 2 1 12 (← expect '-' rest)
  let (day, rest) ← scanFixed 2 1 31 (← expect '-' rest)
  if day ≤ daysOf year month then some rest else none

/-- The text behind the time at its front; seconds may have a fraction. -/
def skipTime (cs : List Char) : Option (List Char) := do
  let (_, rest) ← scanFixed 2 0 23 cs
  let (_, rest) ← scanFixed 2 0 59 (← expect ':' rest)
  let (_, rest) ← scanFixed 2 0 60 (← expect ':' rest)
  match rest with
  | '.' :: c :: fraction => if c.isDigit then some (fraction.dropWhile Char.isDigit) else some rest
  | _ => some rest

/-- The text behind the time offset at its front. -/
def skipOffset : List Char → Option (List Char)
  | 'Z' :: rest | 'z' :: rest => some rest
  | '+' :: rest | '-' :: rest => do
    let (_, rest) ← scanFixed 2 0 23 rest
    let (_, rest) ← scanFixed 2 0 59 (← expect ':' rest)
    return rest
  | _ => none

/-- A date, a time, or both with an offset that may be missing. -/
def scanDateTime : Scan Value := fun cs =>
  match skipDate cs with
  | none => (skipTime cs).map fun rest => (.dateTime, rest)
  | some rest =>
    let time? := match rest with
      | d :: rest => if d = 'T' ∨ d = 't' ∨ d = ' ' then skipTime rest else none
      | [] => none
    match time? with
    | none => some (.dateTime, rest)
    | some rest => some (.dateTime, (skipOffset rest).getD rest)

end FormTree.Toml
