import FormTree.Action.Apply
import FormTree.Proofs.Data.Laws

/-!
# What an action touches

An action keeps the state, writes one slot of one definition, or takes one list item out;
`Action.effect` says which, and for a slot also what is written, from the definition alone.
`apply_framed` then says what every path reads after the action: what it read before, except at the
slot and below, at slots that the definition had to be filled up with, and, where an item is taken
out, at the items behind it, which move down by one.
-/

namespace FormTree

variable {κ : Type}

/-! ## Writing a slot of a definition -/

section Slots

variable {definition : List Data} {slot index : Nat} {value : Data}

@[simp] theorem length_putSlot (definition : List Data) (slot : Nat) (value : Data) :
    (putSlot definition slot value).length = max definition.length (slot + 1) := by
  simp only [putSlot, List.length_set, List.length_append, List.length_replicate]
  omega

@[simp] theorem getElem?_putSlot_self (definition : List Data) (slot : Nat) (value : Data) :
    (putSlot definition slot value)[slot]? = some value := by
  refine List.getElem?_set_self ?_
  simp only [List.length_append, List.length_replicate]
  omega

/-- Slots that were there stay as they are. -/
theorem getElem?_putSlot_of_lt (hne : index ≠ slot) (hlt : index < definition.length) :
    (putSlot definition slot value)[index]? = definition[index]? := by
  rw [putSlot, List.getElem?_set_ne (Ne.symm hne), List.getElem?_append_left hlt]

/-- Slots before the written one are filled up with nulls. -/
theorem getElem?_putSlot_pad (hle : definition.length ≤ index) (hlt : index < slot) :
    (putSlot definition slot value)[index]? = some .null := by
  rw [putSlot, List.getElem?_set_ne (by omega), List.getElem?_append_right hle,
    List.getElem?_replicate, if_pos (by omega)]

/-- Nothing is added behind the written slot. -/
theorem getElem?_putSlot_end (hle : definition.length ≤ index) (hlt : slot < index) :
    (putSlot definition slot value)[index]? = none :=
  List.getElem?_eq_none (by rw [length_putSlot]; omega)

/-- A slot behind the written one stays as it is, and stays missing if it was. -/
theorem getElem?_putSlot_behind (hlt : slot < index) :
    (putSlot definition slot value)[index]? = definition[index]? := by
  by_cases hinside : index < definition.length
  · exact getElem?_putSlot_of_lt (Nat.ne_of_gt hlt) hinside
  · have hle := Nat.le_of_not_lt hinside
    rw [getElem?_putSlot_end hle hlt, List.getElem?_eq_none hle]

/-- Writing what a slot holds changes nothing. -/
theorem putSlot_self (h : definition[slot]? = some value) :
    putSlot definition slot value = definition := by
  obtain ⟨hlt, rfl⟩ := List.getElem?_eq_some_iff.1 h
  have hfull : slot + 1 - definition.length = 0 := by omega
  rw [putSlot, hfull, List.replicate_zero, List.append_nil, List.set_getElem_self]

/-- Of two contents of one slot the second counts. -/
@[simp] theorem putSlot_putSlot (definition : List Data) (slot : Nat) (value other : Data) :
    putSlot (putSlot definition slot value) slot other = putSlot definition slot other := by
  have hfull : slot + 1 - (putSlot definition slot value).length = 0 := by
    rw [length_putSlot]
    omega
  rw [putSlot, hfull, List.replicate_zero, List.append_nil, putSlot, List.set_set, putSlot]

@[simp] theorem slotAt_putSlot_self (definition : List Data) (slot : Nat) (value : Data) :
    slotAt (putSlot definition slot value) slot = value := by
  rw [slotAt, List.getD_eq_getElem?_getD, getElem?_putSlot_self, Option.getD_some]

/-- The other slots read as before, those that were missing as null. -/
theorem slotAt_putSlot_ne (hne : index ≠ slot) :
    slotAt (putSlot definition slot value) index = slotAt definition index := by
  simp only [slotAt, List.getD_eq_getElem?_getD]
  by_cases hlt : index < definition.length
  · rw [getElem?_putSlot_of_lt hne hlt]
  · have hle := Nat.le_of_not_lt hlt
    rw [List.getElem?_eq_none hle]
    rcases Nat.lt_or_gt_of_ne hne with hbefore | hbehind
    · rw [getElem?_putSlot_pad hle hbefore]
      rfl
    · rw [getElem?_putSlot_end hle hbehind]

theorem definitionAt_eq_ok {state : Data} {path : Path} :
    definitionAt state path = .ok definition ↔ state.node? path = some (.list definition) := by
  unfold definitionAt
  split <;> simp_all

theorem writeSlot_eq_ok {state next : Data} {path : Path} :
    writeSlot state path definition slot value = .ok next
      ↔ state.replace? path (.list (putSlot definition slot value)) = some next := by
  unfold writeSlot
  split <;> simp_all

theorem Plan.withDefinition_of_node? {state : Data} {path : Path} {next : List Data → Plan κ}
    (hdefinition : state.node? path = some (.list definition)) :
    Plan.withDefinition state path next = next definition := by
  rw [withDefinition, definitionAt_eq_ok.2 hdefinition]

/-- A slot whose content can be adjusted is written. -/
theorem Plan.adjust_of_node? {state next : Data} {path : Path} {f : Data → Except Fault Data}
    (hdefinition : state.node? path = some (.list definition))
    (hvalue : f (slotAt definition slot) = .ok value)
    (hnext : state.replace? path (.list (putSlot definition slot value)) = some next) :
    (Plan.adjust state path slot f : Plan κ) = .settled (.ok next) := by
  rw [adjust, withDefinition_of_node? hdefinition, hvalue]
  exact congrArg Plan.settled (writeSlot_eq_ok.2 hnext)

theorem removeAt_eq_ok {state next : Data} {path : Path} :
    removeAt state path = .ok next ↔ state.erase? path = some next := by
  unfold removeAt
  split <;> simp_all

end Slots

/-! ## The effect of an action -/

/-- What an update puts in the place of a content. -/
def Update.answer (answers : Answers κ) (previous : Data) : Update κ → Data
  | .fixed value => value
  | .computed name => answers.update name previous

/-- What an action does to a state. -/
inductive Effect (κ : Type) where
  | keeps
  /-- Write a slot of the definition at a path; the content comes from the definition alone. -/
  | writes (path : Path) (slot : Nat) (content : Answers κ → List Data → Except Fault Data)
  /-- Take the list item at a path out. -/
  | takesOut (path : Path)

/-- The effect of an action. -/
def Action.effect : Action κ → Effect κ
  | .removeField path => .takesOut path
  | .editField path update => .writes path Kind.valueAt fun answers definition =>
      .ok (update.answer answers (slotAt definition Kind.valueAt))
  | .validateField _ none => .keeps
  | .validateField path (some errors) => .writes path Kind.field.errorsAt fun _ _ =>
      .ok (Data.ofTexts errors)
  | .checkField path validator => .writes path Kind.field.errorsAt fun answers definition =>
      .ok (Data.ofTexts (answers.errors validator (slotAt definition Kind.valueAt).toJson))
  | .addContent path => .writes path Container.many.itemsAt fun _ definition =>
      .ok (appended (slotAt definition Container.many.itemsAt) (templateOf definition))
  | .addChildForm path form => .writes path Container.childForms.itemsAt fun _ definition =>
      .ok (appended (slotAt definition Container.childForms.itemsAt) form)
  | .deleteItem _ path => .takesOut path
  | .editItems container path update => .writes path container.itemsAt fun answers definition =>
      .ok (update.answer answers (slotAt definition container.itemsAt))
  | .reorderItems container path order => .writes path container.itemsAt fun _ definition =>
      reordered order (slotAt definition container.itemsAt)
  | .validateItems _ _ none => .keeps
  | .validateItems container path (some validator) =>
    .writes path container.errorsAt fun answers definition =>
      .ok (Data.ofTexts (answers.errors validator (Data.itemsJson definition[container.itemsAt]?)))
  | .custom _ _ => .keeps

/-- Bring about an effect. -/
def Effect.apply (answers : Answers κ) (state : Data) : Effect κ → Except Fault Data
  | .keeps => .ok state
  | .writes path slot content => do
    let definition ← definitionAt state path
    let value ← content answers definition
    writeSlot state path definition slot value
  | .takesOut path => removeAt state path

/-- Applying an action is bringing about its effect. -/
theorem Action.apply_eq (answers : Answers κ) (state : Data) (action : Action κ) :
    action.apply answers state = action.effect.apply answers state := by
  -- the actions that write a slot all begin by looking for the definition
  cases action with
  | removeField | deleteItem | custom => rfl
  | validateField path errors =>
    cases errors with
    | none => rfl
    | some errors =>
      simp only [apply, plan, Plan.adjust, Plan.withDefinition, effect, Effect.apply]
      cases definitionAt state path <;> rfl
  | validateItems container path validator =>
    cases validator with
    | none => rfl
    | some validator =>
      simp only [apply, plan, Plan.check, Plan.withDefinition, effect, Effect.apply]
      cases definitionAt state path <;> rfl
  | editField path update | editItems container path update =>
    simp only [apply, plan, Plan.update, Plan.withDefinition, effect, Effect.apply]
    cases definitionAt state path <;> cases update <;> rfl
  | checkField path =>
    simp only [apply, plan, Plan.check, Plan.withDefinition, effect, Effect.apply]
    cases definitionAt state path <;> rfl
  | addContent path | addChildForm path | reorderItems container path =>
    simp only [apply, plan, Plan.adjust, Plan.withDefinition, effect, Effect.apply]
    cases definitionAt state path <;> rfl

/-! ## What paths read -/

/-- A slot of the definition at a path was written, and nothing else. -/
structure SlotWritten (s : Data) (path : Path) (definition : List Data) (slot : Nat)
    (value s' : Data) :
    Prop where
  found : s.node? path = some (.list definition)
  written : s'.node? (path ++ [slot]) = some value
  length : ∃ next, s'.node? path = some (.list next)
    ∧ next.length = max definition.length (slot + 1)
  padded : ∀ index, definition.length ≤ index → index < slot →
    s.node? (path ++ [index]) = none ∧ s'.node? (path ++ [index]) = some .null
  above : SpineKept s path s'
  frame : ∀ q, ¬ path ++ [slot] <+: q → ¬ q <+: path →
    (∀ index, definition.length ≤ index → index < slot → q ≠ path ++ [index]) →
    s'.node? q = s.node? q

/-- A state differs from another by an effect, and by nothing else. -/
def Effect.Framed (answers : Answers κ) (s s' : Data) : Effect κ → Prop
  | .keeps => s' = s
  | .writes path slot content => ∃ definition value, content answers definition = .ok value
    ∧ SlotWritten s path definition slot value s'
  | .takesOut path => ∃ list items index, path = list ++ [index] ∧ ItemTakenOut s list items index s'

section Frames

variable {s s' value : Data} {path : Path} {definition items : List Data} {slot index : Nat}

theorem SlotWritten.of_replace? (hdefinition : s.node? path = some (.list definition))
    (h : s.replace? path (.list (putSlot definition slot value)) = some s') :
    SlotWritten s path definition slot value s' := by
  have hnext := Data.node?_replace? h
  refine ⟨hdefinition, ?_, ⟨_, hnext, length_putSlot ..⟩, fun index hle hlt => ?_,
    spineKept_of_replace? h, fun q hslot habove hpad => ?_⟩
  · rw [node?_below hnext, getElem?_putSlot_self]
    rfl
  · rw [node?_below hdefinition, node?_below hnext, List.getElem?_eq_none hle,
      getElem?_putSlot_pad hle hlt]
    exact ⟨rfl, rfl⟩
  · by_cases hbelow : path <+: q
    · obtain ⟨rest, rfl⟩ := hbelow
      cases rest with
      | nil => simp at habove
      | cons index rest =>
        have hne : index ≠ slot := by
          rintro rfl
          exact hslot ⟨rest, by simp⟩
        rw [node?_below hdefinition, node?_below hnext]
        by_cases hlt : index < definition.length
        · rw [getElem?_putSlot_of_lt hne hlt]
        · have hle := Nat.le_of_not_lt hlt
          rw [List.getElem?_eq_none hle]
          by_cases hbefore : index < slot
          · -- a slot that is filled up has nothing below it
            rw [getElem?_putSlot_pad hle hbefore]
            cases rest with
            | nil => exact absurd rfl (hpad index hle hbefore)
            | cons => rfl
          · rw [getElem?_putSlot_end hle (by omega)]
    · exact Data.node?_replace?_apart h hbelow habove

end Frames

/-- An action that succeeds does what its effect says, and nothing else. -/
theorem apply_framed {answers : Answers κ} {s s' : Data} {action : Action κ}
    (h : action.apply answers s = .ok s') : action.effect.Framed answers s s' := by
  rw [Action.apply_eq] at h
  cases heffect : action.effect with
  | keeps =>
    rw [heffect] at h
    exact (Except.ok.inj h).symm
  | writes path slot content =>
    rw [heffect] at h
    cases hdefinition : definitionAt s path with
    | error e => simp [Effect.apply, hdefinition, bind, Except.bind] at h
    | ok definition =>
      cases hcontent : content answers definition with
      | error e => simp [Effect.apply, hdefinition, hcontent, bind, Except.bind] at h
      | ok value =>
        simp only [Effect.apply, hdefinition, hcontent, bind, Except.bind] at h
        exact ⟨definition, value, hcontent,
          .of_replace? (definitionAt_eq_ok.1 hdefinition) (writeSlot_eq_ok.1 h)⟩
  | takesOut path =>
    rw [heffect] at h
    have herase := removeAt_eq_ok.1 h
    rcases List.eq_nil_or_concat path with rfl | ⟨list, index, rfl⟩
    · rw [Data.erase?_nil] at herase
      cases herase
    · rw [List.concat_eq_append] at herase ⊢
      obtain ⟨items, htaken⟩ := ItemTakenOut.of_erase? herase
      exact ⟨list, items, index, rfl, htaken⟩

/-! ## Writing far into a short definition -/

namespace Padding

/-- A field inside the only item of a container. -/
def state : Data := .list [.list [.string "many", .list [.string "items", .null, .null, .null, .null,
  .list [.list [.list [.string "field", .list [.string "label"]]]]]]]

/-- The errors of the field, whose definition has a name only. -/
def action : Action Nat := .validateField [0, 1, 5, 0, 0, 1] (some ["missing"])

/-- Host code that leaves everything as it is. -/
def answers : Answers Nat := ⟨fun _ previous => previous, fun _ _ => []⟩

end Padding

open Padding in
theorem apply_framed_padded : ∃ s', action.apply answers state = .ok s'
    ∧ SlotWritten state [0, 1, 5, 0, 0, 1] [.string "label"] 3 (Data.ofTexts ["missing"]) s'
    ∧ s'.node? [0, 1, 5, 0, 0, 1, 2] = some .null
    ∧ s'.node? [0, 1, 5, 0, 0, 0] = some (.string "field") := by
  obtain ⟨s', happly⟩ : ∃ s', action.apply answers state = .ok s' := ⟨_, rfl⟩
  obtain ⟨definition, value, hcontent, hwritten⟩ := apply_framed happly
  obtain rfl : definition = [.string "label"] := by
    have hfound := hwritten.found
    cases hfound
    rfl
  obtain rfl := Except.ok.inj hcontent
  refine ⟨s', happly, hwritten, (hwritten.padded 2 (by decide) (by decide)).2, ?_⟩
  rw [hwritten.frame [0, 1, 5, 0, 0, 0] (by decide) (by decide) (by simp)]
  rfl

end FormTree
