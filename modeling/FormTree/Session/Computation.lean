import FormTree.Session.Vocabulary

/-!
# Computations of updates

What the updates of a session make of the previous value, given the version of the store.  A value
of another type than a computation expects counts as the neutral one: zero, false, the empty text or
no items.
-/

namespace FormTree.Session.Computation

/-- The integer after the one that a value is, at most the greatest of 64 bits. -/
def successor (previous : Data) : Data :=
  let i := (previous.toNumber?.bind Number.toInt64?).getD 0
  .number (Number.clamp (min (i + 1) ((Nat.pow 2 63 : Int) - 1)))

/-- Half of the number that a value is, as a double. -/
def halved (previous : Data) : Data :=
  match previous.toNumber? with
  | some n => .number (.double n.toDouble.half)
  | none => .number (.double (.zero false))

/-- The text that a value is, with more text behind it. -/
def appendText (previous : Data) (text : String) : Data :=
  .string (previous.toString?.getD "" ++ text)

/-- The new value. -/
def apply (version : Nat) (c : Computation) (previous : Data) : Data :=
  match c with
  | .identity | .submit _ => previous
  | .increment => successor previous
  | .halve => halved previous
  | .negate => .bool !(previous.toBool?.getD false)
  | .append text => appendText previous (text.getD "")
  | .wrap => .list [previous]
  | .reverse => .list previous.items.reverse
  | .push item => .list (previous.items ++ [item])
  | .pop => .list previous.items.dropLast
  | .version => appendText previous s!"v{version}"

end FormTree.Session.Computation
