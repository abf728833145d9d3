/-!
# Finite double-precision numbers

A finite IEEE 754 double is a sign, a significand below `2^53` and an exponent: the number is
`± significand · 2^exponent`.  Every double has exactly one such triple whose significand is either
normal (at least `2^52`) or sits at the least exponent, and `Canonical` asks for that one.  Both
zeros are kept, because they are written differently.

Arithmetic goes through one function, `ofRatio`, which rounds a non-negative fraction to the nearest
double, a half going to the even significand, and gives nothing above the largest finite double.
Products, quotients and conversions are the exact rational result, rounded once.
-/

namespace FormTree

/-- Exactly one triple for every finite double: a full significand, or the least exponent. -/
def Binary64.Canonical (significand : Nat) (exponent : Int) : Prop :=
  significand < Nat.pow 2 53 ∧ -1074 ≤ exponent ∧ exponent ≤ 971 ∧
    (Nat.pow 2 52 ≤ significand ∨ exponent = -1074)

instance (significand : Nat) (exponent : Int) :
    Decidable (Binary64.Canonical significand exponent) := by
  unfold Binary64.Canonical; infer_instance

/-- A finite double, `± significand · 2^exponent`. -/
structure Binary64 where
  negative : Bool
  significand : Nat
  exponent : Int
  canonical : Binary64.Canonical significand exponent
deriving DecidableEq

namespace Binary64

/-- Zero of either sign. -/
def zero (negative : Bool) : Binary64 := ⟨negative, 0, -1074, by decide⟩

instance : Inhabited Binary64 := ⟨zero false⟩

/-- Both zeros are zero. -/
def isZero (x : Binary64) : Bool := x.significand == 0

/-- Numerical equality: the two zeros are equal, all else agrees in every part. -/
def same (x y : Binary64) : Bool := (x.isZero && y.isZero) || decide (x = y)

@[simp] theorem same_refl (x : Binary64) : x.same x = true := by simp [same]

theorem same_comm (x y : Binary64) : x.same y = y.same x := by
  simp [same, Bool.and_comm, eq_comm]

theorem same_trans {x y z : Binary64} (hxy : x.same y = true) (hyz : y.same z = true) :
    x.same z = true := by
  simp only [same, Bool.or_eq_true, Bool.and_eq_true, decide_eq_true_eq] at *
  rcases hxy with ⟨hx, hy⟩ | rfl
  · rcases hyz with ⟨_, hz⟩ | rfl
    · exact .inl ⟨hx, hz⟩
    · exact .inl ⟨hx, hy⟩
  · exact hyz

/-- The double with the given parts, if they are canonical. -/
def mk? (negative : Bool) (significand : Nat) (exponent : Int) : Option Binary64 :=
  if h : Canonical significand exponent then some ⟨negative, significand, exponent, h⟩ else none

/-! ## Rounding -/

/-- `num / den` rounded to the nearest natural number, a half to the even neighbour. -/
def divideToEven (num den : Nat) : Nat :=
  let quotient := num / den
  let twice := 2 * (num % den)
  if twice < den ∨ (twice = den ∧ quotient % 2 = 0) then quotient else quotient + 1

/-- The fraction `num / den` scaled by `2^-exponent`, as a fraction. -/
def scale (num den : Nat) (exponent : Int) : Nat × Nat :=
  if 0 ≤ exponent then (num, den * Nat.pow 2 exponent.toNat) else (num * Nat.pow 2 (-exponent).toNat, den)

/-- The exponent at which `num / den` has a significand of 53 bits, or the least exponent. -/
def exponentOf (num den : Nat) : Int :=
  -- with `l` for the difference of the logarithms, `num / den` lies between `2^(l-1)` and
  -- `2^(l+1)`, so the guess is right or one too small
  let guess : Int := (num.log2 : Int) - den.log2 - 53
  let (n, d) := scale num den guess
  max (if n < d * Nat.pow 2 53 then guess else guess + 1) (-1074)

/-- The double nearest to `± num / den`, a half going to the even significand; nothing if that
exceeds the largest finite double. -/
def ofRatio (negative : Bool) (num den : Nat) : Option Binary64 :=
  if num = 0 then some (zero negative) else
  let exponent := exponentOf num den
  let (n, d) := scale num den exponent
  let significand := divideToEven n d
  -- rounding up can carry out of the 53 bits
  if significand = Nat.pow 2 53 then mk? negative (Nat.pow 2 52) (exponent + 1)
  else mk? negative significand exponent

/-- The magnitude of a double as a fraction. -/
def magnitude (x : Binary64) : Nat × Nat := scale x.significand 1 (-x.exponent)

/-! ## Arithmetic -/

/-- The double nearest to an integer; every integer that a form holds is in range. -/
def ofInt (i : Int) : Binary64 := (ofRatio (i < 0) i.natAbs 1).getD (zero (i < 0))

/-- The same magnitude with the other sign. -/
def neg (x : Binary64) : Binary64 := { x with negative := !x.negative }

/-- The rounded product; nothing if it is not finite. -/
def mul (x y : Binary64) : Option Binary64 :=
  let (a, b) := x.magnitude
  let (c, d) := y.magnitude
  ofRatio (x.negative != y.negative) (a * c) (b * d)

/-- The rounded quotient; nothing if the divisor is zero or the quotient is not finite. -/
def div (x y : Binary64) : Option Binary64 :=
  if y.isZero then none else
  let (a, b) := x.magnitude
  let (c, d) := y.magnitude
  ofRatio (x.negative != y.negative) (a * d) (b * c)

/-- Half of a double. -/
def half (x : Binary64) : Binary64 :=
  let (n, d) := x.magnitude
  (ofRatio x.negative n (2 * d)).getD x

/-- The double nearest to `± digits · 10^exponent`; nothing if that is not finite.  An exponent
far beyond the range of doubles is settled without computing the power. -/
def ofDecimal (negative : Bool) (digits : Nat) (exponent : Int) : Option Binary64 :=
  let size : Int := digits.log2
  if digits = 0 ∨ exponent < -400 - size then some (zero negative)
  else if 400 < exponent then none
  else if 0 ≤ exponent then ofRatio negative (digits * Nat.pow 10 exponent.toNat) 1
  else ofRatio negative digits (Nat.pow 10 (-exponent).toNat)

end Binary64

end FormTree
