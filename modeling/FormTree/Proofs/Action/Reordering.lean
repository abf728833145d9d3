import FormTree.Proofs.Action.Failure
import Mathlib.Data.List.Nodup

/-!
# Reordering items

A reordering is given by the list of the indices that the items come from.  It is accepted if that
list names every index once; the items are then the same ones in another order.  Two reorderings in a
row are one, whose list is the first one read at the places of the second, and every reordering is
undone by another.  `reorderings_act` says this of the action on a form: what it leaves in the state
is that order of the items and nothing else, and a slot that held a list is restored exactly.
-/

namespace FormTree

variable {κ : Type}

/-! ## Orders -/

/-- Every index below `count` occurs once in an order, and nothing else does. -/
def EachOnce (order : List Nat) (count : Nat) : Prop :=
  ∀ index, order.count index = if index < count then 1 else 0

/-- The order that is two orders one after the other: place `i` gets the item from
`first[second[i]]`. -/
def orderAfter (first second : List Nat) : List Nat := second.map fun index => first.getD index 0

/-- The order that brings every item back to where it was. -/
def inverseOrder (order : List Nat) : List Nat :=
  (List.range order.length).map fun index => order.idxOf index

section Orders

variable {order first second : List Nat} {count : Nat} {items : List Data}

theorem isPermutation_iff_eachOnce : IsPermutation order count ↔ EachOnce order count := by
  have hrange : ∀ index, (List.range count).count index = if index < count then 1 else 0 := by
    intro index
    rw [List.nodup_range.count]
    simp only [List.mem_range]
  rw [isPermutation_iff_perm, List.perm_iff_count]
  exact forall_congr' fun index => by rw [hrange]

theorem IsPermutation.mem (h : IsPermutation order count) {index : Nat} (hlt : index < count) :
    index ∈ order :=
  (isPermutation_iff_perm.1 h).mem_iff.2 (List.mem_range.2 hlt)

/-- Reading an order at all its places in turn gives the order. -/
theorem orderAfter_range (order : List Nat) : orderAfter order (List.range order.length) = order := by
  refine List.ext_getElem (by simp [orderAfter]) fun index _ hlt => ?_
  simp [orderAfter, List.getD_eq_getElem?_getD, hlt]

theorem IsPermutation.orderAfter (hfirst : IsPermutation first count)
    (hsecond : IsPermutation second count) : IsPermutation (orderAfter first second) count := by
  have hplaces : (FormTree.orderAfter first second).Perm
      (FormTree.orderAfter first (List.range first.length)) := by
    rw [hfirst.1]
    exact (isPermutation_iff_perm.1 hsecond).map _
  rw [orderAfter_range] at hplaces
  exact isPermutation_iff_perm.2 (hplaces.trans (isPermutation_iff_perm.1 hfirst))

theorem IsPermutation.inverseOrder (h : IsPermutation order count) :
    IsPermutation (inverseOrder order) count := by
  have hmem : ∀ index ∈ List.range order.length, index ∈ order := by
    intro index hindex
    rw [List.mem_range, h.1] at hindex
    exact h.mem hindex
  refine ⟨by simp [FormTree.inverseOrder, h.1], ?_, ?_⟩
  · refine List.Nodup.map_on (fun index hindex other _ heq => ?_) List.nodup_range
    exact (List.idxOf_inj (hmem index hindex)).1 heq
  · intro place hplace
    obtain ⟨index, hindex, rfl⟩ := List.mem_map.1 hplace
    rw [← h.1]
    exact List.idxOf_lt_length_of_mem (hmem index hindex)

/-- Bringing every item back comes to leaving every item where it is. -/
theorem orderAfter_inverseOrder (h : IsPermutation order count) :
    orderAfter order (inverseOrder order) = List.range count := by
  rw [orderAfter, inverseOrder, List.map_map, h.1]
  refine (List.map_congr_left fun index hindex => ?_).trans (List.map_id _)
  have hmem := h.mem (List.mem_range.1 hindex)
  rw [Function.comp_apply, List.getD_eq_getElem?_getD,
    List.getElem?_eq_getElem (List.idxOf_lt_length_of_mem hmem), List.getElem_idxOf]
  rfl

/-! ## Items in a new order -/

@[simp] theorem length_permuted (items : List Data) (order : List Nat) :
    (permuted items order).length = order.length := List.length_map _

theorem permuted_range (items : List Data) : permuted items (List.range items.length) = items := by
  refine List.ext_getElem (by simp) fun index hindex hlt => ?_
  simp [permuted, List.getD_eq_getElem?_getD, hlt]

/-- Every place gets the item from the index that its order names there. -/
theorem getElem?_permuted_bind (h : ∀ index ∈ order, index < items.length) (place : Nat) :
    (permuted items order)[place]? = order[place]?.bind fun index => items[index]? := by
  rw [permuted, List.getElem?_map]
  cases hplace : order[place]? with
  | none => rfl
  | some index =>
    have hlt := h index (List.mem_of_getElem? hplace)
    simp [List.getD_eq_getElem?_getD, hlt]

/-- The items in a new order are the same items. -/
theorem IsPermutation.permuted_perm (h : IsPermutation order items.length) :
    (permuted items order).Perm items := by
  have hperm := (isPermutation_iff_perm.1 h).map fun index => items.getD index .null
  rw [← permuted, ← permuted, permuted_range] at hperm
  exact hperm

/-- Two orders one after the other are one order. -/
theorem permuted_permuted (h : ∀ index ∈ second, index < first.length) :
    permuted (permuted items first) second = permuted items (orderAfter first second) := by
  rw [permuted, orderAfter, permuted, permuted, List.map_map]
  refine List.map_congr_left fun index hindex => ?_
  simp [List.getD_eq_getElem?_getD, h index hindex]

end Orders

/-! ## The action -/

/-- Bring the items of the container at a path into an order. -/
def Container.reorder (c : Container) (answers : Answers κ) (path : Path) (order : List Nat)
    (state : Data) : Except Fault Data :=
  (Action.reorderItems c path order : Action κ).apply answers state

section Action

variable {answers : Answers κ} {c : Container} {s s' : Data} {path : Path}
  {definition items : List Data} {order first second : List Nat}

/-- A reordering succeeds if its order fits, and writes the items in that order. -/
theorem Container.reorder_eq_ok (hs : s.node? path = some (.list definition)) :
    c.reorder answers path order s = .ok s'
      ↔ IsPermutation order (slotAt definition c.itemsAt).items.length
        ∧ s.replace? path (.list (putSlot definition c.itemsAt
            (.list (permuted (slotAt definition c.itemsAt).items order)))) = some s' := by
  rw [reorder, Action.apply_eq, Action.effect, Effect.apply_writes answers hs, reordered_eq]
  split
  · next horder =>
    rw [Except.bind, writeSlot_eq_ok]
    exact (and_iff_right horder).symm
  · next horder => exact iff_of_false (by rintro ⟨⟩) fun h => horder h.1

theorem Container.exists_reorder (answers : Answers κ) (hs : s.node? path = some (.list definition))
    (horder : IsPermutation order (slotAt definition c.itemsAt).items.length) :
    ∃ s', c.reorder answers path order s = .ok s' := by
  obtain ⟨s', hs'⟩ := Data.exists_replace? hs (.list (putSlot definition c.itemsAt
    (.list (permuted (slotAt definition c.itemsAt).items order))))
  exact ⟨s', (reorder_eq_ok hs).2 ⟨horder, hs'⟩⟩

/-- What is reordered again is written again, so that only the second writing counts. -/
theorem Container.reorder_again (hs : s.node? path = some (.list definition))
    (hfirst : IsPermutation first (slotAt definition c.itemsAt).items.length)
    (hsecond : IsPermutation second (slotAt definition c.itemsAt).items.length) :
    (c.reorder answers path first s).bind (c.reorder answers path second)
      = c.reorder answers path (orderAfter first second) s := by
  obtain ⟨between, hbetween⟩ := exists_reorder answers hs hfirst
  obtain ⟨last, hlast⟩ :=
    exists_reorder answers hs (hfirst.orderAfter hsecond)
  obtain ⟨-, hwritten⟩ := (reorder_eq_ok hs).1 hbetween
  obtain ⟨-, hwritten'⟩ := (reorder_eq_ok hs).1 hlast
  have hbound : ∀ index ∈ second, index < first.length := by
    rw [hfirst.1]
    exact hsecond.2.2
  rw [hbetween, hlast, Except.bind, reorder_eq_ok (Data.node?_replace? hwritten)]
  rw [slotAt_putSlot_self, Data.items_list, length_permuted, hfirst.1, putSlot_putSlot,
    permuted_permuted hbound, Data.replace?_replace? hwritten]
  exact ⟨hsecond, hwritten'⟩

/-- Bringing every item of a list back gives the state back. -/
theorem Container.reorder_inverse (hs : s.node? path = some (.list definition))
    (hslot : definition[c.itemsAt]? = some (.list items))
    (horder : IsPermutation order items.length) :
    (c.reorder answers path order s).bind (c.reorder answers path (inverseOrder order)) = .ok s := by
  have hitems : slotAt definition c.itemsAt = .list items := slotAt_of_some hslot
  have hrange : IsPermutation (List.range items.length) items.length :=
    isPermutation_iff_perm.2 (List.Perm.refl _)
  rw [reorder_again hs (by rwa [hitems]) (by rw [hitems]; exact horder.inverseOrder),
    orderAfter_inverseOrder horder, reorder_eq_ok hs, hitems, Data.items_list,
    permuted_range, putSlot_self hslot]
  exact ⟨hrange, Data.replace?_self hs⟩

end Action

/-- For a container whose definition is at a path: an order is accepted exactly if it names every
index of the items once.  The slot of the items then holds, at place `i`, the item from `order[i]`,
so that the items are the old ones up to order, and nothing else is written.  Two orders in a row are
one; and if the slot held a list, every order is undone by another, down to the same state. -/
theorem reorderings_act (answers : Answers κ) (c : Container) {s : Data} {path : Path}
    {definition items : List Data} (hs : s.node? path = some (.list definition))
    (hitems : items = (slotAt definition c.itemsAt).items) :
    (∀ order, (∃ s', c.reorder answers path order s = .ok s') ↔ EachOnce order items.length)
    ∧ (∀ order s', c.reorder answers path order s = .ok s' → ∃ items' : List Data,
        (∀ place : Nat, items'[place]? = order[place]?.bind fun index => items[index]?)
        ∧ items'.Perm items
        ∧ SlotWritten s path definition c.itemsAt (.list items') s')
    ∧ (∀ first second, EachOnce first items.length → EachOnce second items.length →
        EachOnce (orderAfter first second) items.length
        ∧ (c.reorder answers path first s).bind (c.reorder answers path second)
          = c.reorder answers path (orderAfter first second) s)
    ∧ ∀ order, EachOnce order items.length → definition[c.itemsAt]? = some (.list items) →
        ∃ back, EachOnce back items.length
          ∧ (c.reorder answers path order s).bind (c.reorder answers path back) = .ok s := by
  subst hitems
  simp only [← isPermutation_iff_eachOnce]
  refine ⟨fun order => ⟨?_, Container.exists_reorder answers hs⟩, fun order s' hs' => ?_,
    fun first second hfirst hsecond => ?_, fun order horder hslot => ?_⟩
  · rintro ⟨s', hs'⟩
    exact ((Container.reorder_eq_ok hs).1 hs').1
  · obtain ⟨horder, hwritten⟩ := (Container.reorder_eq_ok hs).1 hs'
    exact ⟨_, getElem?_permuted_bind horder.2.2, horder.permuted_perm, .of_replace? hs hwritten⟩
  · exact ⟨hfirst.orderAfter hsecond, Container.reorder_again hs hfirst hsecond⟩
  · exact ⟨inverseOrder order, horder.inverseOrder,
      Container.reorder_inverse hs hslot horder⟩

/-! ## Turning three items around -/

namespace Turning

/-- A field without a value. -/
def field (name : String) : Data := .list [.string "field", .list [.string name]]

/-- The items of the container, two of which are equal. -/
def items : List Data := [field "a", field "b", field "a"]

/-- The definition of the container. -/
def definition : List Data := [.string "forms", .null, .null, .null, .list items]

/-- The container behind a field. -/
def state : Data := .list [field "label", .list [.string "many_child_forms", .list definition]]

/-- Host code that leaves everything as it is. -/
def answers : Answers Nat := ⟨fun _ previous => previous, fun _ _ => []⟩

/-- Bring the items of the container into an order. -/
def turned (order : List Nat) (state : Data) : Except Fault Data :=
  Container.childForms.reorder answers [1, 1] order state

end Turning

open Turning in
theorem reorderings_act_three : ∃ between last back, turned [1, 2, 0] state = .ok between
    ∧ between.node? [1, 1, 4] = some (.list [field "b", field "a", field "a"])
    ∧ turned [0, 2, 1] between = .ok last ∧ turned [1, 0, 2] state = .ok last
    ∧ turned back between = .ok state
    ∧ ¬ ∃ s', turned [0, 0, 2] state = .ok s' := by
  have hfits : ∀ order ∈ [[1, 2, 0], [0, 2, 1], [1, 0, 2]],
      EachOnce order items.length := by
    intro order horder
    exact isPermutation_iff_eachOnce.1 (by revert order; decide)
  have hunfit : ¬ EachOnce [0, 0, 2] items.length :=
    fun h => absurd (h 0) (by decide)
  have hs : state.node? [1, 1] = some (.list definition) := rfl
  have hslot : items = (slotAt definition Container.childForms.itemsAt).items := rfl
  obtain ⟨haccepted, hitems, hafter, hback⟩ := reorderings_act answers .childForms hs hslot
  obtain ⟨between, hbetween⟩ := (haccepted [1, 2, 0]).2 (hfits _ (by decide))
  obtain ⟨last, hlast⟩ := (haccepted [1, 0, 2]).2 (hfits _ (by decide))
  have hcomposed : orderAfter [1, 2, 0] [0, 2, 1] = [1, 0, 2] := by decide
  obtain ⟨-, htwice⟩ := hafter [1, 2, 0] [0, 2, 1] (hfits _ (by decide)) (hfits _ (by decide))
  obtain ⟨back, -, hundone⟩ := hback [1, 2, 0] (hfits _ (by decide)) rfl
  obtain ⟨items', hplaces, -, hwritten⟩ := hitems _ _ hbetween
  have hnext : items' = [field "b", field "a", field "a"] := by
    refine List.ext_getElem? fun place => (hplaces place).trans ?_
    rcases place with _ | _ | _ | place <;> rfl
  rw [hbetween, hcomposed, hlast, Except.bind] at htwice
  rw [hbetween, Except.bind] at hundone
  exact ⟨between, last, back, hbetween, hnext ▸ hwritten.written, htwice, hlast, hundone,
    fun hs' => hunfit ((haccepted _).1 hs')⟩

end FormTree
