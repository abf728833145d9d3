import FormTree.Number.Binary64

/-!
# Shortest decimal digits of a double

`shortest` gives the fewest decimal digits that read back as the same double.  The reals that round
to a double form an interval around it, ends included exactly when the significand is even.  For one
digit, two digits and so on, the two neighbours of the double on the grid of that many digits are
tested against the interval in exact arithmetic; the first grid with a hit wins, and of two hits the
nearer one, a tie going to the even digit.
-/

namespace FormTree

/-- A decimal number `digits · 10^exponent`. -/
structure Decimal where
  digits : Nat
  exponent : Int
deriving DecidableEq, Repr

namespace Decimal

/-- The value as a fraction. -/
def fraction (d : Decimal) : Nat × Nat :=
  if 0 ≤ d.exponent then (d.digits * Nat.pow 10 d.exponent.toNat, 1)
  else (d.digits, Nat.pow 10 (-d.exponent).toNat)

/-- The same number without trailing zeros in its digits, taking off at most `fuel` of them. -/
def trim : Nat → Decimal → Decimal
  | 0, d => d
  | fuel + 1, d =>
    if d.digits % 10 = 0 ∧ d.digits ≠ 0 then trim fuel ⟨d.digits / 10, d.exponent + 1⟩ else d

end Decimal

namespace Binary64

/-- Whether the fraction `num / den` rounds to `x`, for a positive `x`.  In quarters of the last
place the interval reaches two up, and two down, or one down below a power of two. -/
def rounds (x : Binary64) (num den : Nat) : Bool :=
  let lower := if x.significand = Nat.pow 2 52 ∧ -1074 < x.exponent then 1 else 2
  let (n, d) := scale num den (x.exponent - 2)
  let least := (4 * x.significand - lower) * d
  let greatest := (4 * x.significand + 2) * d
  if x.significand % 2 = 0 then least ≤ n && n ≤ greatest else least < n && n < greatest

/-- The exponent of the leading decimal digit of a positive fraction, found by counting down from
`start` for at most `fuel` steps. -/
def leading (num den : Nat) : Nat → Int → Int
  | 0, start => start
  | fuel + 1, start =>
    let (n, d) := (Decimal.mk 1 start).fraction
    if n * den ≤ num * d then start else leading num den fuel (start - 1)

/-- The nearer of the two neighbours of `num / den` on the grid of `10^exponent` that round to `x`,
if one does. -/
def onGrid (x : Binary64) (num den : Nat) (exponent : Int) : Option Decimal :=
  let (n, d) := (Decimal.mk 1 exponent).fraction
  let below := (num * d) / (den * n)
  let rest := (num * d) % (den * n)
  let hits (digits : Nat) : Bool :=
    let (p, q) := (Decimal.mk digits exponent).fraction
    digits != 0 && x.rounds p q
  match hits below, hits (below + 1) with
  | true, true =>
    if 2 * rest < den * n ∨ (2 * rest = den * n ∧ below % 2 = 0) then some ⟨below, exponent⟩
    else some ⟨below + 1, exponent⟩
  | true, false => some ⟨below, exponent⟩
  | false, true => some ⟨below + 1, exponent⟩
  | false, false => none

/-- The fewest decimal digits that read back as the magnitude of `x`. -/
def shortest (x : Binary64) : Decimal :=
  if x.isZero then ⟨0, 0⟩ else
  let (num, den) := x.magnitude
  -- 0.30103 is close to the decimal logarithm of two, and one more makes the guess large enough
  let guess : Int := (((num.log2 : Int) - den.log2 + 1) * 30103).fdiv 100000 + 1
  let top := leading num den 4 guess
  match (List.range 17).findSome? (fun (n : Nat) => x.onGrid num den (top - n)) with
  | some d => d.trim 20
  | none => (Decimal.mk ((num * Nat.pow 10 (16 - top).toNat) / den) (top - 16)).trim 20

end Binary64

end FormTree
