import FormTree.Number.Basic

/-!
# Reading numbers

`Number.scan` reads a JSON number from the front of a text.  Its digits are gathered in 64 bits: an
integer digit that no longer fits is dropped and counted as a power of ten, and so are all integer
digits after it; a fraction digit that no longer fits ends the gathering.  A number without fraction
and exponent that lost no digit is an integer, unless it is negative zero or below the signed range.
Everything else is the double of the gathered digits, scaled once by a power of ten, and scaling
beyond the finite doubles is an error.

`Binary64.parse?` reads the decimal text of a double by correct rounding instead, and knows the
names of infinity and of undefined numbers, which have no finite double.
-/

namespace FormTree

namespace Number

/-- The value of a decimal digit. -/
def digitValue (c : Char) : Nat := c.toNat - '0'.toNat

/-- The number written by decimal digits. -/
def ofDigits (digits : List Char) : Nat := digits.foldl (fun n c => 10 * n + digitValue c) 0

/-- Gather decimal digits onto `value` while the result fits 64 bits.  Gives the number gathered,
how many digits that took, how many further digits stand there, and the rest of the text. -/
def gather (value : Nat) (taken : Nat) : List Char → Nat × Nat × Nat × List Char
  | [] => (value, taken, 0, [])
  | c :: rest =>
    if c.isDigit then
      let next := 10 * value + digitValue c
      if next < Nat.pow 2 64 then gather next (taken + 1) rest
      else (value, taken, (rest.takeWhile Char.isDigit).length + 1, rest.dropWhile Char.isDigit)
    else (value, taken, 0, c :: rest)

/-- `x · 10^exponent`, rounding after each step; a very small exponent is taken in steps of 308, of
which `fuel` many are enough to reach zero. -/
def scaleByTen : Nat → Binary64 → Int → Option Binary64
  | 0, x, _ => some x
  | fuel + 1, x, exponent =>
    if exponent.natAbs ≤ 308 then
      match Binary64.ofDecimal false 1 exponent.natAbs with
      | some power => if 0 ≤ exponent then x.mul power else x.div power
      | none => none
    else if x.isZero then some x
    else if 0 ≤ exponent then none
    else
      match (Binary64.ofDecimal false 1 308).bind x.div with
      | some y => scaleByTen fuel y (exponent + 308)
      | none => none

/-- The double `± digits · 10^exponent`, scaled from the double of the digits. -/
def scaled (negative : Bool) (digits : Nat) (exponent : Int) : Option Binary64 :=
  (scaleByTen 4 (Binary64.ofInt digits) exponent).map fun x => if negative then x.neg else x

/-- A signed decimal exponent of at least one digit, and the rest of the text. -/
def scanExponent (cs : List Char) : Option (Int × List Char) :=
  let (negative, cs) := match cs with
    | '+' :: rest => (false, rest)
    | '-' :: rest => (true, rest)
    | _ => (false, cs)
  match cs.takeWhile Char.isDigit with
  | [] => none
  | digits =>
    let n : Int := ofDigits digits
    some (if negative then -n else n, cs.dropWhile Char.isDigit)

/-- The double of gathered digits and an exponent so far, with the exponent part that may follow. -/
def scanDouble (negative : Bool) (digits : Nat) (exponent : Int) (cs : List Char) :
    Option (Number × List Char) := do
  let (shift, rest) ← match cs with
    | 'e' :: rest | 'E' :: rest => scanExponent rest
    | _ => some (0, cs)
  -- an exponent outside 32 bits is settled by its sign: too large, or zero
  if digits ≠ 0 ∧ shift ≥ Nat.pow 2 31 then none
  else if shift.natAbs ≥ Nat.pow 2 31 then some (.double (.zero negative), rest)
  else return (.double (← scaled negative digits (exponent + shift)), rest)

/-- The number without its sign that stands at the front of a text, and the rest of the text. -/
def scanUnsigned (negative : Bool) (cs : List Char) : Option (Number × List Char) := do
  let startsWell := match cs with
    | '0' :: c :: _ => !c.isDigit
    | c :: _ => c.isDigit
    | [] => false
  if !startsWell then none else
  let (digits, _, dropped, rest) := gather 0 0 cs
  match rest with
  | '.' :: fraction =>
    match fraction with
    | c :: _ =>
      if c.isDigit then
        let (digits, places, _, rest) := gather digits 0 fraction
        scanDouble negative digits ((dropped : Int) - places) rest
      else none
    | [] => none
  | _ =>
    let isInteger := dropped = 0 && match rest with
      | 'e' :: _ | 'E' :: _ => false
      | _ => true
    let value : Int := if negative then -digits else digits
    if isInteger ∧ (negative → digits ≠ 0 ∧ digits ≤ Nat.pow 2 63) then
      return (← ofInt? value, rest)
    else scanDouble negative digits dropped rest

/-- The number at the front of a text, and the rest of the text. -/
def scan : List Char → Option (Number × List Char)
  | '-' :: rest => scanUnsigned true rest
  | cs => scanUnsigned false cs

end Number

namespace Binary64

/-- What the text of a double can stand for. -/
inductive Reading where
  | finite (value : Binary64)
  | notFinite

/-- Read the decimal text of a double: a sign, digits with at most one point among or beside them,
and an exponent, all rounded once; or a name of infinity or of an undefined number. -/
def parse? (text : String) : Option Reading :=
  let (negative, cs) := match text.toList with
    | '+' :: rest => (false, rest)
    | '-' :: rest => (true, rest)
    | cs => (false, cs)
  if String.ofList (cs.map Char.toLower) ∈ ["inf", "infinity", "nan"] then some .notFinite else
  let whole := cs.takeWhile Char.isDigit
  let rest := cs.dropWhile Char.isDigit
  let (fraction, rest) := match rest with
    | '.' :: rest => (rest.takeWhile Char.isDigit, rest.dropWhile Char.isDigit)
    | _ => ([], rest)
  let digits := whole ++ fraction
  if digits.isEmpty then none else
  let shift? : Option Int := match rest with
    | [] => some 0
    | 'e' :: rest | 'E' :: rest =>
      match Number.scanExponent rest with
      | some (n, []) => some n
      | _ => none
    | _ => none
  shift?.map fun shift =>
    match ofDecimal negative (Number.ofDigits digits) (shift - fraction.length) with
    | some x => .finite x
    | none => .notFinite

end Binary64

end FormTree
