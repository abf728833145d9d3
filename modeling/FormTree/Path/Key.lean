import FormTree.Path

/-!
# Keys of paths

The key of a path is a word of 64 bits by which a host tells render outputs apart.  It is a digest
of the indices, so equal paths have equal keys; unequal paths nearly always have unequal keys, but
not always, as `key_eq_of_first` shows.  Only whether keys are equal means anything.

The indices go through two lanes.  While more than two are left, two of them are mixed into one new
lane; the last two go into one lane each.  A single index goes into both lanes.
-/

namespace FormTree.Path

/-- What the two lanes hold before the first index. -/
def laneSeeds : UInt64 × UInt64 := (0x243f6a8885a308d3, 0x13198a2e03707344)

/-- What keeps an index that is zero from emptying a lane. -/
def laneGuard : UInt64 := 0xa4093822299f31d0

/-- The factor by which the length of a path counts. -/
def lengthFactor : UInt64 := 0xf1357aea2e62a9c5

/-- The two halves of the full product of two words, combined bit by bit. -/
def mix (x y : UInt64) : UInt64 :=
  let product := x.toNat * y.toNat
  product.toUInt64 ^^^ (product / Nat.pow 2 64).toUInt64

/-- The two lanes after all indices.  The last two indices count in full, also where the one before
the last was mixed in already. -/
def lanes (first second : UInt64) : List UInt64 → UInt64 × UInt64
  | [] => (first, second)
  | [a] => (first ^^^ a, second ^^^ a)
  | [a, b] => (first ^^^ a, second ^^^ b)
  | [a, b, c] => (second ^^^ b, mix (first ^^^ a) (laneGuard ^^^ b) ^^^ c)
  | a :: b :: c :: d :: rest =>
    lanes second (mix (first ^^^ a) (laneGuard ^^^ b)) (c :: d :: rest)

/-- The digest of indices, into which their size in bytes goes as well. -/
def digest (words : List UInt64) : UInt64 :=
  let (first, second) := lanes laneSeeds.1 laneSeeds.2 words
  mix first second ^^^ (8 * words.length).toUInt64

/-- The key of a path whose indices fit 64 bits. -/
def key (p : Path) : UInt64 :=
  p.length.toUInt64 * lengthFactor + digest (p.map Nat.toUInt64)

@[simp] theorem mix_zero_left (y : UInt64) : mix 0 y = 0 := by
  simp [mix]

/-- An index that empties the first lane hides the index behind it. -/
theorem key_eq_of_first (i j : Nat) :
    key [laneSeeds.1.toNat, i] = key [laneSeeds.1.toNat, j] := by
  simp [key, digest, lanes]

end FormTree.Path
