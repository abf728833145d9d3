import FormTree.Form.Handle
import FormTree.Proofs.Action.Reordering

/-!
# Taking an added item out again

An item is put at the end of a container through the definition of the container: one of its slots is
read and written.  It is taken out through a path of its own, which leads through that slot, as every
list item is.  `apply_added_removed` brings the two together: an addition and then a removal write the
slot once, with the items that are left.  So the removal of the last item takes the addition back,
down to the same state, and the removal of any other item leaves the added one where it was put.
-/

namespace FormTree

variable {κ : Type}

/-- What puts an item at the end of the container with a definition at a path: the container's own
template, or a given form. -/
inductive Action.Appends (path : Path) (definition : List Data) :
    Action κ → Container → Data → Prop where
  | content : Appends path definition (.addContent path) .many (templateOf definition)
  | childForm (form : Data) : Appends path definition (.addChildForm path form) .childForms form

/-- Take the item at an index out of the container at a path. -/
def Container.delete (c : Container) (path : Path) (index : Nat) : Action κ :=
  .deleteItem c (path ++ [c.itemsAt, index])

section

variable {s between : Data} {path : Path} {definition items : List Data} {slot index : Nat}

/-- A slot that was written holds what is put in its place afterwards. -/
theorem replace?_writtenSlot (definition : List Data) (slot : Nat) (value other : Data) :
    (Data.list (putSlot definition slot value)).replace? [slot] other
      = some (.list (putSlot definition slot other)) := by
  have hset : (putSlot definition slot value).set slot other = putSlot definition slot other := by
    rw [putSlot, List.set_set, putSlot]
  rw [Data.replace?, getElem?_putSlot_self]
  simp only [Data.replace?_nil, Option.map_some, hset]

/-- Taking an item out of a slot that was written is writing the slot without the item. -/
theorem removeAt_writtenSlot
    (hbetween : s.replace? path (.list (putSlot definition slot (.list items))) = some between)
    (hinside : index < items.length) : removeAt between (path ++ [slot, index])
      = writeSlot s path definition slot (.list (items.eraseIdx index)) := by
  have hdefinition := Data.node?_replace? hbetween
  have hitems : between.node? (path ++ [slot]) = some (.list items) := by
    rw [Data.node?_concat hdefinition, Data.child?_list, getElem?_putSlot_self]
  have hreplace : between.replace? (path ++ [slot]) (.list (items.eraseIdx index))
      = s.replace? path (.list (putSlot definition slot (.list (items.eraseIdx index)))) := by
    rw [Data.replace?_append, hdefinition, Option.bind_some, replace?_writtenSlot, Option.bind_some,
      Data.replace?_replace? hbetween]
  obtain ⟨next, hnext⟩ := Data.exists_replace? hitems (.list (items.eraseIdx index))
  have hremoved : removeAt between (path ++ [slot, index]) = .ok next := by
    rw [removeAt_eq_ok, List.append_cons, Data.erase?_concat]
    exact ⟨items, hitems, hinside, hnext⟩
  rw [hremoved, eq_comm, writeSlot_eq_ok, ← hreplace, hnext]

end

section

variable (answers : Answers κ) {s : Data} {path : Path} {definition items : List Data}
  {c : Container} {item : Data} {addition : Action κ} {index : Nat}

/-- An addition writes the slot of the items. -/
theorem Action.apply_of_appends (hs : s.node? path = some (.list definition))
    (hadds : addition.Appends path definition c item) : addition.apply answers s
      = writeSlot s path definition c.itemsAt (appended (slotAt definition c.itemsAt) item) := by
  rw [Action.apply_eq]
  cases hadds <;> exact Effect.apply_writes answers hs

/-- An item is put at the end and then one is taken out: the slot is written once, with the items
that are left. -/
theorem apply_added_removed (hs : s.node? path = some (.list definition))
    (hslot : definition[c.itemsAt]? = some (.list items))
    (hadds : addition.Appends path definition c item) (hindex : index ≤ items.length) :
    Batch.apply answers s [addition, c.delete path index]
      = writeSlot s path definition c.itemsAt (.list ((items ++ [item]).eraseIdx index)) := by
  obtain ⟨between, hwrite, hbetween⟩ :=
    exists_writeSlot hs c.itemsAt (.list (items ++ [item]))
  have hadded : addition.apply answers s = .ok between := by
    rw [Action.apply_of_appends answers hs hadds, slotAt_of_some hslot]
    exact hwrite
  have hinside : index < (items ++ [item]).length := by
    rw [List.length_append, List.length_singleton]
    omega
  rw [Batch.apply_cons, hadded, ← removeAt_writtenSlot hbetween hinside]
  change (removeAt between (path ++ [c.itemsAt, index])).bind pure = _
  cases removeAt between (path ++ [c.itemsAt, index]) <;> rfl

end

/-- For a container whose definition is at a path and whose slot holds a list of items: an item that is
put at the end, the container's own template or any form, is taken back by the removal of the last
item, and the state is the one before.  The removal of any other item leaves the items without that
one, with the added item behind them; nothing else is written, and that is what the handle of the
container reads. -/
theorem additions_taken_back (answers : Answers κ) {s : Data} {path : Path}
    {definition items : List Data} {c : Container} {item : Data} {addition : Action κ}
    (hs : s.node? path = some (.list definition))
    (hslot : definition[c.itemsAt]? = some (.list items))
    (hadds : addition.Appends path definition c item) :
    Batch.apply answers s [addition, c.delete path items.length] = .ok s
    ∧ ∀ index < items.length, ∃ s',
      Batch.apply answers s [addition, c.delete path index] = .ok s'
      ∧ SlotWritten s path definition c.itemsAt (.list (items.eraseIdx index ++ [item])) s'
      ∧ ∀ h : ContainerHandle κ, h.container = c → h.path = path →
        h.itemsIn s' = .ok (.array ((items.eraseIdx index ++ [item]).map Data.toJson)) := by
  have hwritten (index : Nat) (hindex : index ≤ items.length) :=
    apply_added_removed answers hs hslot hadds hindex
  refine ⟨?_, fun index hindex => ?_⟩
  · have hlast : (items ++ [item]).eraseIdx items.length = items := by
      rw [List.eraseIdx_append_of_length_le (Nat.le_refl _), Nat.sub_self, List.eraseIdx_cons_zero,
        List.append_nil]
    rw [hwritten _ (Nat.le_refl _), hlast, writeSlot_eq_ok, putSlot_self hslot]
    exact Data.replace?_self hs
  · have hleft := hwritten index (Nat.le_of_lt hindex)
    rw [List.eraseIdx_append_of_lt_length hindex] at hleft
    obtain ⟨s', hwrite, hreplace⟩ :=
      exists_writeSlot hs c.itemsAt (.list (items.eraseIdx index ++ [item]))
    refine ⟨s', hleft.trans hwrite, .of_replace? hs hreplace, ?_⟩
    rintro h rfl rfl
    rw [ContainerHandle.itemsIn, locate, Data.node?_replace? hreplace]
    simp only [Except.map, Data.child?_list, getElem?_putSlot_self, Data.itemsJson]

/-! ## A container inside an item of another -/

namespace Returning

/-- A field without a value. -/
def field (name : String) : Data := .list [.string "field", .list [.string name]]

/-- A container of three items, one of them empty. -/
def parts : List Data :=
  [.string "parts", .null, .null, .null, .list [field "new"],
    .list [.list [field "a"], .list [], .list [field "b"]]]

/-- A container of child forms whose second form holds the other container. -/
def forms : List Data :=
  [.string "forms", .null, .null, .null, .list [field "c", .list [.string "many", .list parts]]]

/-- The container of child forms, behind a field. -/
def state : Data := .list [field "label", .list [.string "many_child_forms", .list forms]]

/-- The handle of the container inside. -/
def handle : ContainerHandle Nat := ⟨0, .many, [1, 1, 4, 1, 1], "forms.1.parts", none⟩

/-- Host code that leaves everything as it is. -/
def answers : Answers Nat := ⟨fun _ previous => previous, fun _ _ => []⟩

end Returning

open Returning in
theorem additions_taken_back_inside :
    state.node? handle.path = some (.list parts)
    ∧ Batch.apply answers state [.addContent handle.path, Container.many.delete handle.path 3]
      = .ok state
    ∧ (∃ s', Batch.apply answers state [.addContent handle.path, Container.many.delete handle.path 1]
        = .ok s'
      ∧ handle.itemsIn s' = .ok (.array
        [(Data.list [field "a"]).toJson, (Data.list [field "b"]).toJson,
          (Data.list [field "new"]).toJson])
      ∧ s'.node? [1, 1, 4, 0] = some (field "c"))
    ∧ ∀ form, Batch.apply answers state
      [.addChildForm [1, 1] form, Container.childForms.delete [1, 1] 2] = .ok state := by
  have hparts : state.node? handle.path = some (.list parts) := rfl
  have hforms : state.node? [1, 1] = some (.list forms) := rfl
  obtain ⟨hback, hothers⟩ := additions_taken_back answers hparts rfl .content
  obtain ⟨s', happly, hwritten, hread⟩ := hothers 1 (by decide)
  have hfull (index : Nat) (hle : parts.length ≤ index) :
      ¬ index < Container.many.itemsAt := Nat.not_lt.2 (Nat.le_trans (by decide) hle)
  refine ⟨hparts, hback, ⟨s', happly, hread handle rfl rfl, ?_⟩, fun form => ?_⟩
  · rw [hwritten.frame [1, 1, 4, 0] (by decide) (by decide)
      fun index hle hlt => absurd hlt (hfull index hle)]
    rfl
  · obtain ⟨hback', -⟩ := additions_taken_back answers hforms rfl (.childForm form)
    exact hback'

end FormTree
