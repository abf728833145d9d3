import FormTree.Number.Shortest

/-!
# Numbers of a value tree

A number is an integer of 64 bits, signed or unsigned, or a finite double.  The two kinds never
compare equal: `1` and `1.0` are different numbers.  Within the doubles, `0.0` and `-0.0` are equal
but written differently.

`Number.text` writes integers in plain decimal, and doubles with the fewest digits that read back:
positionally between `10^-5` and `10^16`, with `.0` after a whole number, and otherwise with a
signed exponent.
-/

namespace FormTree

/-- The integers that a number can hold: those of 64 bits, signed or unsigned. -/
def Number.InRange (i : Int) : Prop := -Nat.pow 2 63 ≤ i ∧ i < Nat.pow 2 64

instance (i : Int) : Decidable (Number.InRange i) := by unfold Number.InRange; infer_instance

/-- An integer of 64 bits or a finite double. -/
inductive Number where
  | integer (value : Int) (inRange : Number.InRange value)
  | double (value : Binary64)
deriving DecidableEq

namespace Number

instance : Inhabited Number := ⟨.integer 0 (by decide)⟩

/-- The number of an integer, if it fits 64 bits. -/
def ofInt? (i : Int) : Option Number := if h : InRange i then some (.integer i h) else none

/-- The number of an integer, taken to the nearest end of the range if it is outside. -/
def clamp (i : Int) : Number :=
  if h : InRange i then .integer i h
  else if i < 0 then .integer (-Nat.pow 2 63) (by decide)
  else .integer (Nat.pow 2 64 - 1) (by decide)

/-- The value as a signed integer of 64 bits, if it is an integer and fits. -/
def toInt64? : Number → Option Int
  | .integer i _ => if i < Nat.pow 2 63 then some i else none
  | .double _ => none

/-- The value as an unsigned integer of 64 bits, if it is an integer and not negative. -/
def toNat64? : Number → Option Nat
  | .integer i _ => if 0 ≤ i then some i.toNat else none
  | .double _ => none

/-- The nearest double. -/
def toDouble : Number → Binary64
  | .integer i _ => Binary64.ofInt i
  | .double x => x

/-! ## Equality -/

/-- Equality of numbers: integers by value, doubles numerically, never across the two kinds. -/
def same : Number → Number → Bool
  | .integer i _, .integer j _ => i == j
  | .double x, .double y => x.same y
  | _, _ => false

@[simp] theorem same_refl (n : Number) : n.same n = true := by
  cases n <;> simp [same]

theorem same_comm (m n : Number) : m.same n = n.same m := by
  cases m <;> cases n <;> simp [same, Binary64.same_comm, BEq.comm]

theorem same_trans {l m n : Number} (hlm : l.same m = true) (hmn : m.same n = true) :
    l.same n = true := by
  cases l <;> cases m <;> cases n <;> simp_all [same]
  exact Binary64.same_trans hlm hmn

/-! ## Text -/

/-- How doubles are laid out in text. -/
structure DoubleFormat where
  /-- The least decimal exponent of the leading digit that is still written positionally. -/
  leastPositional : Int
  /-- The greatest decimal exponent of the leading digit that is still written positionally. -/
  greatestPositional : Int
  /-- What ends a positional number that has no fraction. -/
  wholeEnding : String
  /-- What stands before a negative exponent. -/
  negativeMark : String
  /-- What stands before an exponent that is not negative. -/
  positiveMark : String

/-- Doubles are positional from `10^-5` to below `10^16`, keep `.0`, and sign their exponents. -/
def doubleFormat : DoubleFormat := ⟨-5, 15, ".0", "e-", "e+"⟩

/-- `n` zeros. -/
def zeros (n : Nat) : String := String.ofList (List.replicate n '0')

/-- A decimal number laid out by a format. -/
def DoubleFormat.write (format : DoubleFormat) (d : Decimal) : String :=
  let digits := toString d.digits
  let count : Int := digits.length
  let lead : Int := d.exponent + count - 1
  if lead < format.leastPositional ∨ format.greatestPositional < lead then
    let mantissa := String.ofList (digits.toList.take 1)
    let rest := String.ofList (digits.toList.drop 1)
    let mantissa := if rest.isEmpty then mantissa else mantissa ++ "." ++ rest
    if lead < 0 then mantissa ++ format.negativeMark ++ toString (-lead).toNat
    else mantissa ++ format.positiveMark ++ toString lead.toNat
  else if 0 ≤ d.exponent then digits ++ zeros d.exponent.toNat ++ format.wholeEnding
  else if 0 ≤ lead then
    String.ofList (digits.toList.take (lead + 1).toNat) ++ "."
      ++ String.ofList (digits.toList.drop (lead + 1).toNat)
  else "0." ++ zeros (-lead - 1).toNat ++ digits

/-- A double in text. -/
def doubleText (x : Binary64) : String :=
  let magnitude :=
    if x.isZero then "0" ++ doubleFormat.wholeEnding else doubleFormat.write x.shortest
  if x.negative then "-" ++ magnitude else magnitude

/-- A number in text. -/
def text : Number → String
  | .integer i _ => toString i
  | .double x => doubleText x

end Number

end FormTree
