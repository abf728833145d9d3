import FormTree.Path
import FormTree.Store

/-!
# Settings of a form

What joins the segments of a name path, whether handles report validity, and what becomes of batches
that are submitted during a dispatch.
-/

namespace FormTree

/-- The settings of a form, with their defaults. -/
structure Settings where
  nameSeparator : String := NamePath.defaultSeparator
  fieldValidity : Bool := true
  policy : Policy := .queue
deriving DecidableEq, Repr

instance : Inhabited Settings := ⟨{}⟩

end FormTree
