import FormTree.Form.Handle
import FormTree.Proofs.Action.Failure
import FormTree.Proofs.Execution.Steps

/-!
# Stored errors and stored contents

A handle submits an action on its node together with a validation of that node.  The validator is
given what the action left, and what it answers is stored beside it: `stored_errors_agree` says that
the errors of a container are those of the items that the state holds afterwards, for every way of
changing items and both kinds of containers, and that the handle of the container reads and reports
these items; and that the errors of a field are those of its value.  Validating once more changes
nothing.
-/

namespace FormTree

variable {κ : Type}

theorem Container.errorsAt_lt_itemsAt (c : Container) : c.errorsAt < c.itemsAt := by
  cases c <;> decide

/-! ## Changing items -/

/-- The ways of changing the items of a container. -/
inductive ItemsEdit (κ : Type) : Container → Type where
  /-- Append the container's own template. -/
  | addContent : ItemsEdit κ .many
  | addChildForm (form : Data) : ItemsEdit κ .childForms
  | delete (container : Container) (index : Nat) : ItemsEdit κ container
  | replace (container : Container) (update : Update κ) : ItemsEdit κ container
  | reorder (container : Container) (order : List Nat) : ItemsEdit κ container

namespace ItemsEdit

variable {container : Container} {answers : Answers κ} {path : Path} {s s' : Data}

/-- The action on the container whose definition stands at a path. -/
def action (path : Path) : ItemsEdit κ container → Action κ
  | .addContent => .addContent path
  | .addChildForm form => .addChildForm path form
  | .delete container index => .deleteItem container (path ++ [container.itemsAt, index])
  | .replace container update => .editItems container path update
  | .reorder container order => .reorderItems container path order

/-- What the slot of the items holds afterwards, from the definition before. -/
def content (answers : Answers κ) (definition : List Data) : ItemsEdit κ container → Data
  | .addContent => appended (slotAt definition Container.many.itemsAt) (templateOf definition)
  | .addChildForm form => appended (slotAt definition Container.childForms.itemsAt) form
  | .delete container index =>
    .list ((slotAt definition container.itemsAt).items.eraseIdx index)
  | .replace container update => update.answer answers (slotAt definition container.itemsAt)
  | .reorder container order =>
    .list (permuted (slotAt definition container.itemsAt).items order)

/-- An effect that writes the slot of the items leaves what it writes there. -/
theorem left_of_writes {slot : Nat} {content : Answers κ → List Data → Except Fault Data}
    (h : (Effect.writes path slot content).apply answers s = .ok s') :
    ∃ definition value changed, s.node? path = some (.list definition)
      ∧ content answers definition = .ok value ∧ s'.node? path = some (.list changed)
      ∧ changed[slot]? = some value := by
  obtain ⟨definition, value, hdefinition, hvalue, hreplace⟩ := Effect.apply_writes_eq_ok.1 h
  exact ⟨definition, value, _, hdefinition, hvalue, Data.node?_replace? hreplace,
    getElem?_putSlot_self ..⟩

/-- A change of the items that succeeds leaves its content in their slot. -/
theorem left_of_apply (edit : ItemsEdit κ container)
    (h : (edit.action path).apply answers s = .ok s') :
    ∃ definition changed, s.node? path = some (.list definition)
      ∧ s'.node? path = some (.list changed)
      ∧ changed[container.itemsAt]? = some (edit.content answers definition) := by
  rw [Action.apply_eq] at h
  cases edit with
  | addContent | addChildForm form | replace _ update =>
    obtain ⟨definition, value, changed, hdefinition, hvalue, hchanged, hslot⟩ := left_of_writes h
    obtain rfl := Except.ok.inj hvalue
    exact ⟨definition, changed, hdefinition, hchanged, hslot⟩
  | reorder _ order =>
    obtain ⟨definition, value, changed, hdefinition, hvalue, hchanged, hslot⟩ := left_of_writes h
    refine ⟨definition, changed, hdefinition, hchanged, ?_⟩
    rw [reordered_eq] at hvalue
    split at hvalue
    · obtain rfl := Except.ok.inj hvalue
      exact hslot
    · cases hvalue
  | delete _ index =>
    have herase : s.erase? ((path ++ [container.itemsAt]) ++ [index]) = some s' := by
      rw [List.append_assoc]
      exact removeAt_eq_ok.1 h
    obtain ⟨items, hitems, -, hreplace⟩ := Data.erase?_concat.1 herase
    obtain ⟨definition, hdefinition, hslot⟩ := Data.node?_concat_eq_some.1 hitems
    obtain ⟨changed, hchanged, hleft⟩ :=
      Data.node?_concat_eq_some.1 (Data.node?_replace? hreplace)
    refine ⟨definition, changed, hdefinition, hchanged, ?_⟩
    rw [hleft, content, slotAt, List.getD_eq_getElem?_getD, hslot, Option.getD_some,
      Data.items_list]

end ItemsEdit

/-! ## Validating -/

section Validate

variable {answers : Answers κ} {container : Container} {path : Path} {s s' : Data}
  {definition : List Data} {validator : κ}

/-- The definition of a container with the errors that a validator finds in its items. -/
def checkedItems (answers : Answers κ) (container : Container) (validator : κ)
    (definition : List Data) : List Data :=
  putSlot definition container.errorsAt (Data.ofTexts
    (answers.errors validator (Data.itemsJson definition[container.itemsAt]?)))

/-- The definition of a field with the errors that a validator finds in its value. -/
def checkedValue (answers : Answers κ) (validator : κ) (definition : List Data) : List Data :=
  putSlot definition Kind.field.errorsAt (Data.ofTexts
    (answers.errors validator (slotAt definition Kind.valueAt).toJson))

theorem getElem?_checkedItems :
    (checkedItems answers container validator definition)[container.itemsAt]?
      = definition[container.itemsAt]? :=
  getElem?_putSlot_behind container.errorsAt_lt_itemsAt

theorem getElem?_checkedItems_errors :
    (checkedItems answers container validator definition)[container.errorsAt]?
      = some (Data.ofTexts
        (answers.errors validator (Data.itemsJson definition[container.itemsAt]?))) :=
  getElem?_putSlot_self ..

/-- Errors that are found once more are there already. -/
theorem checkedItems_checkedItems : checkedItems answers container validator
    (checkedItems answers container validator definition)
      = checkedItems answers container validator definition := by
  rw [checkedItems, getElem?_checkedItems]
  exact putSlot_self getElem?_checkedItems_errors

theorem slotAt_checkedValue :
    slotAt (checkedValue answers validator definition) Kind.valueAt
      = slotAt definition Kind.valueAt :=
  slotAt_putSlot_ne (by decide)

theorem checkedValue_checkedValue :
    checkedValue answers validator (checkedValue answers validator definition)
      = checkedValue answers validator definition := by
  rw [checkedValue, slotAt_checkedValue]
  exact putSlot_self (getElem?_putSlot_self ..)

theorem apply_validateItems :
    Action.apply answers s (.validateItems container path (some validator)) = .ok s'
      ↔ ∃ definition, s.node? path = some (.list definition)
        ∧ s.replace? path (.list (checkedItems answers container validator definition))
          = some s' := by
  rw [Action.apply_eq, Action.effect, Effect.apply_writes_eq_ok]
  simp [checkedItems]

theorem apply_checkField :
    Action.apply answers s (.checkField path validator) = .ok s'
      ↔ ∃ definition, s.node? path = some (.list definition)
        ∧ s.replace? path (.list (checkedValue answers validator definition)) = some s' := by
  rw [Action.apply_eq, Action.effect, Effect.apply_writes_eq_ok]
  simp [checkedValue]

/-- A container whose errors were stored is left as it is by the same validation. -/
theorem apply_validateItems_again
    (h : s.node? path = some (.list (checkedItems answers container validator definition))) :
    Action.apply answers s (.validateItems container path (some validator)) = .ok s := by
  refine apply_validateItems.2 ⟨_, h, ?_⟩
  rw [checkedItems_checkedItems]
  exact Data.replace?_self h

/-- A field whose errors were stored is left as it is by the same validation. -/
theorem apply_checkField_again
    (h : s.node? path = some (.list (checkedValue answers validator definition))) :
    Action.apply answers s (.checkField path validator) = .ok s := by
  refine apply_checkField.2 ⟨_, h, ?_⟩
  rw [checkedValue_checkedValue]
  exact Data.replace?_self h

end Validate

/-! ## What handles read and report -/

/-- A container handle reads the items of a state, and a change that led to this state is reported by
an event with these items and, where the container is validated and the form reports verdicts, by the
verdict with these errors. -/
structure ContainerHandle.Shows (h : ContainerHandle κ) (s : Data) (items : Json)
    (errors : List String) : Prop where
  read : ∀ {σ : Type} (host : Host σ κ) (fuel : Nat) (w : World σ κ) (live : LiveForm κ),
    w.form? h.form = some live → live.store.state = s →
    ∃ w', h.items.run host (fuel + 1) w = .ok (.ok items, w')
  reported : ∀ {σ : Type} (action : Action κ), ∀ after ∈ (h.changeSubmission action).after,
    (Program.report h.form s after : Program σ κ Unit) = do
      let _ ← Program.emit h.form (.internal .fieldChange) (.field h.namePath (some items))
      if h.validator.isSome then
        if (← Program.profile h.form).settings.fieldValidity then
          let _ ← Program.emit h.form
            (.internal (if errors.isEmpty then .fieldValid else .fieldInvalid))
            (.field h.namePath (some (Json.ofStrings errors)))

theorem ContainerHandle.run_items {σ : Type} {host : Host σ κ} {fuel : Nat} {w : World σ κ}
    {live : LiveForm κ} (h : ContainerHandle κ) (hlive : w.form? h.form = some live) :
    h.items.run host (fuel + 1) w
      = .ok (h.itemsIn live.store.state, w.note (.looked h.form live.store.view)) := by
  have hlook : (Program.look h.form).run host (fuel + 1) w
      = .ok (live.store.view, w.note (.looked h.form live.store.view)) :=
    (congrFun (Program.run_call (.look h.form)) w).trans (Run.perform_look hlive)
  exact Program.run_bind_eq_ok.2
    ⟨_, _, hlook, Program.run_done.2 ⟨Nat.succ_pos _, rfl, rfl⟩⟩

/-- The handle of a container shows the items and the errors that its definition holds. -/
theorem ContainerHandle.shows {h : ContainerHandle κ} {s : Data} {definition : List Data}
    {errors : List String} (hdefinition : s.node? h.path = some (.list definition))
    (herrors : definition[h.container.errorsAt]? = some (Data.ofTexts errors)) :
    h.Shows s (Data.itemsJson definition[h.container.itemsAt]?) errors where
  read host fuel w live hlive hstate := by
    refine ⟨w.note (.looked h.form live.store.view), ?_⟩
    rw [h.run_items hlive, hstate, itemsIn, locate, hdefinition]
    rfl
  reported action after hafter := by
    obtain rfl := Option.some.inj hafter
    rw [Program.report, hdefinition]
    simp only [Program.slotOf, Program.messagesAt, Option.bind_some, Data.child?_list, herrors,
      Option.map_some, Option.getD_some, Data.texts_ofTexts]
    rfl

/-- After a change of the items of a container together with its validation, the slot of the errors
holds what the validator says to the items in the slot of the items, which are those that the change
left; the handles of the container read and report these items and errors; and validating once more
changes nothing.  Likewise after an edit of a field together with its validation. -/
theorem stored_errors_agree (answers : Answers κ) (validator : κ) (s s' : Data) (path : Path) :
    (∀ (container : Container) (edit : ItemsEdit κ container),
      Batch.apply answers s [edit.action path, .validateItems container path (some validator)]
        = .ok s' →
      ∃ definition items, s.node? path = some (.list definition)
        ∧ s'.node? (path ++ [container.itemsAt]) = some (edit.content answers definition)
        ∧ items = .array ((edit.content answers definition).items.map Data.toJson)
        ∧ s'.node? (path ++ [container.errorsAt])
          = some (Data.ofTexts (answers.errors validator items))
        ∧ (∀ h : ContainerHandle κ, h.container = container → h.path = path →
          h.Shows s' items (answers.errors validator items))
        ∧ Action.apply answers s' (.validateItems container path (some validator)) = .ok s')
    ∧ ∀ update : Update κ,
      Batch.apply answers s [.editField path update, .checkField path validator] = .ok s' →
      ∃ definition value, s.node? path = some (.list definition)
        ∧ value = update.answer answers (slotAt definition Kind.valueAt)
        ∧ s'.node? (path ++ [Kind.valueAt]) = some value
        ∧ s'.node? (path ++ [Kind.field.errorsAt])
          = some (Data.ofTexts (answers.errors validator value.toJson))
        ∧ Action.apply answers s' (.checkField path validator) = .ok s' := by
  constructor
  · intro container edit h
    obtain ⟨between, hedit, h⟩ := (Batch.apply_cons_eq_ok answers).1 h
    obtain ⟨_, hvalidate, ⟨⟩⟩ := (Batch.apply_cons_eq_ok answers).1 h
    obtain ⟨definition, changed, hdefinition, hchanged, hslot⟩ := edit.left_of_apply hedit
    obtain ⟨_, hfound, hreplace⟩ := apply_validateItems.1 hvalidate
    -- the validation finds the definition that the change has left
    obtain ⟨rfl⟩ := Option.some.inj (hchanged.symm.trans hfound)
    have hnext := Data.node?_replace? hreplace
    refine ⟨definition, _, hdefinition, ?_, rfl, ?_, ?_, apply_validateItems_again hnext⟩
    · rw [Data.node?_concat hnext, Data.child?_list, getElem?_checkedItems, hslot]
    · rw [Data.node?_concat hnext, Data.child?_list, getElem?_checkedItems_errors, hslot,
        Data.itemsJson_some]
    · rintro handle rfl rfl
      rw [← Data.itemsJson_some, ← hslot,
        ← @getElem?_checkedItems κ answers handle.container changed validator]
      refine ContainerHandle.shows hnext ?_
      rw [getElem?_checkedItems_errors, getElem?_checkedItems]
  · intro update h
    obtain ⟨between, hedit, h⟩ := (Batch.apply_cons_eq_ok answers).1 h
    obtain ⟨_, hcheck, ⟨⟩⟩ := (Batch.apply_cons_eq_ok answers).1 h
    rw [Action.apply_eq] at hedit
    obtain ⟨definition, value, hdefinition, hvalue, hreplaced⟩ := Effect.apply_writes_eq_ok.1 hedit
    obtain rfl := Except.ok.inj hvalue
    obtain ⟨_, hfound, hreplace⟩ := apply_checkField.1 hcheck
    obtain ⟨rfl⟩ := Option.some.inj ((Data.node?_replace? hreplaced).symm.trans hfound)
    have hnext := Data.node?_replace? hreplace
    refine ⟨definition, _, hdefinition, rfl, ?_, ?_, apply_checkField_again hnext⟩
    · rw [Data.node?_concat hnext, Data.child?_list, checkedValue, getElem?_putSlot_of_lt,
        getElem?_putSlot_self]
      · decide
      · rw [length_putSlot]
        exact Nat.lt_of_lt_of_le (Nat.lt_succ_self _) (Nat.le_max_right ..)
    · rw [Data.node?_concat hnext, Data.child?_list, checkedValue, getElem?_putSlot_self,
        slotAt_putSlot_self]

/-! ## Definitions that have a name only -/

namespace NameOnly

/-- A container and a field without anything behind their names. -/
def state : Data := .list [.list [.string "many", .list [.string "items"]],
  .list [.string "field", .list [.string "label"]]]

/-- Host code that keeps values as they are, and that finds an error in each item of an array and
another one in what is no array. -/
def answers : Answers Unit where
  update _ previous := previous
  errors _ value := match value with
    | .array items => items.map fun _ => "item"
    | _ => ["no array"]

/-- Put an item into the container. -/
def edit : ItemsEdit Unit .many := .addContent

/-- Put something that is no list in place of the items. -/
def spoil : ItemsEdit Unit .many := .replace .many (.fixed (.bool true))

end NameOnly

open NameOnly in
theorem stored_errors_agree_nameOnly :
    (∃ s', Batch.apply answers state
        [edit.action [0, 1], .validateItems .many [0, 1] (some ())] = .ok s'
      ∧ s'.node? [0, 1, Container.many.errorsAt] = some (Data.ofTexts ["item"])
      ∧ Action.apply answers s' (.validateItems .many [0, 1] (some ())) = .ok s')
    ∧ (∃ s', Batch.apply answers state
        [spoil.action [0, 1], .validateItems .many [0, 1] (some ())] = .ok s'
      ∧ s'.node? [0, 1, Container.many.itemsAt] = some (.bool true)
      ∧ s'.node? [0, 1, Container.many.errorsAt] = some (Data.ofTexts []))
    ∧ ∃ s', Batch.apply answers state [.editField [1, 1] (.computed ()), .checkField [1, 1] ()]
        = .ok s'
      ∧ s'.node? [1, 1, Kind.valueAt] = some .null
      ∧ s'.node? [1, 1, Kind.field.errorsAt] = some (Data.ofTexts ["no array"]) := by
  refine ⟨?_, ?_, ?_⟩
  · obtain ⟨s', hs'⟩ : ∃ s', Batch.apply answers state
        [edit.action [0, 1], .validateItems .many [0, 1] (some ())] = .ok s' := ⟨_, rfl⟩
    obtain ⟨definition, items, hdefinition, -, rfl, herrors, -, hagain⟩ :=
      (stored_errors_agree answers () state s' [0, 1]).1 .many edit hs'
    obtain rfl : [.string "items"] = definition := by cases hdefinition; rfl
    exact ⟨s', hs', herrors, hagain⟩
  · obtain ⟨s', hs'⟩ : ∃ s', Batch.apply answers state
        [spoil.action [0, 1], .validateItems .many [0, 1] (some ())] = .ok s' := ⟨_, rfl⟩
    obtain ⟨definition, items, -, hcontent, rfl, herrors, -⟩ :=
      (stored_errors_agree answers () state s' [0, 1]).1 .many spoil hs'
    exact ⟨s', hs', hcontent, herrors⟩
  · obtain ⟨s', hs'⟩ : ∃ s', Batch.apply answers state
        [.editField [1, 1] (.computed ()), .checkField [1, 1] ()] = .ok s' := ⟨_, rfl⟩
    obtain ⟨definition, value, hdefinition, rfl, hvalue, herrors, -⟩ :=
      (stored_errors_agree answers () state s' [1, 1]).2 (.computed ()) hs'
    obtain rfl : [.string "label"] = definition := by cases hdefinition; rfl
    exact ⟨s', hs', hvalue, herrors⟩

end FormTree
