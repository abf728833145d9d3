import FormTree.Text.Visible

/-!
# Quoted text for people

The form in which descriptions show a string: between quotes, with letters for the usual controls,
and every other character that does not stand alone in print as its code point in hexadecimal.
-/

namespace FormTree.Text

/-- A character inside a quoted text. -/
def escape (c : Char) : String :=
  match c with
  | '\x00' => "\\0"
  | '\t' => "\\t"
  | '\r' => "\\r"
  | '\n' => "\\n"
  | '\\' => "\\\\"
  | '"' => "\\\""
  | _ =>
    if isVisible c then c.toString
    else "\\u\x7b" ++ String.ofList (Nat.toDigits 16 c.toNat) ++ "\x7d"

/-- A string between quotes. -/
def quoted (s : String) : String := "\"" ++ String.join (s.toList.map escape) ++ "\""

/-- Texts in brackets, separated by commas. -/
def bracketed (texts : List String) : String := "[" ++ ", ".intercalate texts ++ "]"

end FormTree.Text
