import FormTree.Json.Basic

/-!
# Compact JSON text

A value is written without blanks, its members in their order.  A string escapes the quote, the
backslash and the control characters below U+0020: five of them have letters of their own, the
others are written with four hexadecimal digits.
-/

namespace FormTree.Json

/-- A digit in lower-case hexadecimal, for a number below sixteen. -/
def hexDigit (n : Nat) : Char := if n < 10 then Char.ofNat (48 + n) else Char.ofNat (87 + n)

/-- The letter that stands for a character after a backslash, where there is one. -/
def escapeLetter? (c : Char) : Option Char :=
  match c with
  | '"' => some '"'
  | '\\' => some '\\'
  | '\n' => some 'n'
  | '\r' => some 'r'
  | '\t' => some 't'
  | '\x08' => some 'b'
  | '\x0c' => some 'f'
  | _ => none

/-- A character inside a quoted string. -/
def escapeChar (c : Char) : List Char :=
  match escapeLetter? c with
  | some letter => ['\\', letter]
  | none =>
    if c.toNat < 0x20 then
      ['\\', 'u', '0', '0', hexDigit (c.toNat / 16), hexDigit (c.toNat % 16)]
    else [c]

/-- A string between quotes. -/
def quote (s : String) : String := String.ofList ('"' :: s.toList.flatMap escapeChar ++ ['"'])

mutual

/-- The compact text of a value. -/
def text : Json → String
  | .null => "null"
  | .bool true => "true"
  | .bool false => "false"
  | .number n => n.text
  | .string s => quote s
  | .array items => "[" ++ ",".intercalate (textItems items) ++ "]"
  | .object fields => "\x7b" ++ ",".intercalate (textFields fields) ++ "\x7d"

/-- The texts of the items of an array. -/
def textItems : List Json → List String
  | [] => []
  | item :: rest => text item :: textItems rest

/-- The texts of the members of an object. -/
def textFields : List (String × Json) → List String
  | [] => []
  | (key, value) :: rest => (quote key ++ ":" ++ text value) :: textFields rest

end

end FormTree.Json
