import FormTree.Action.Basic

/-!
# Applying actions to a form

An action reads the definition it is addressed to, asks the host at most once, and writes one slot
back; or it takes a list item out; or it does nothing.  `Action.plan` says which of these, as data:
either the result is settled, or it waits for the host's answer.  `Plan.run` gets the answer in any
monad, so that the same reading serves pure host code (`Action.apply`) and host code that acts on
the form while it is asked.

A definition that is too short for a slot reads as if the slot held null, and is filled up with
nulls when the slot is written.
-/

namespace FormTree

variable {κ : Type}

/-! ## Slots of a definition -/

/-- The content of a slot; a missing slot reads as null. -/
def slotAt (definition : List Data) (slot : Nat) : Data := definition.getD slot .null

theorem slotAt_of_some {definition : List Data} {slot : Nat} {value : Data}
    (h : definition[slot]? = some value) : slotAt definition slot = value := by
  rw [slotAt, List.getD_eq_getElem?_getD, h, Option.getD_some]

/-- The definition with a slot replaced, after filling it up with nulls as far as needed. -/
def putSlot (definition : List Data) (slot : Nat) (value : Data) : List Data :=
  (definition ++ List.replicate (slot + 1 - definition.length) Data.null).set slot value

/-- The definition at a path. -/
def definitionAt (state : Data) (path : Path) : Except Fault (List Data) :=
  match state.node? path with
  | none => .error (.pathNotFound path)
  | some (.list definition) => .ok definition
  | some found => .error (.malformedNode path (.notDefinition found))

/-- The state with a slot of the definition at a path replaced. -/
def writeSlot (state : Data) (path : Path) (definition : List Data) (slot : Nat)
    (value : Data) : Except Fault Data :=
  match state.replace? path (.list (putSlot definition slot value)) with
  | some next => .ok next
  | none => .error (.pathNotFound path)

/-- The state without the list item at a path. -/
def removeAt (state : Data) (path : Path) : Except Fault Data :=
  match state.erase? path with
  | some next => .ok next
  | none => .error (.pathNotFound path)

/-! ## Reordering -/

/-- Every index below `count` stands in `order` exactly once. -/
def IsPermutation (order : List Nat) (count : Nat) : Prop :=
  order.length = count ∧ order.Nodup ∧ ∀ index ∈ order, index < count

instance (order : List Nat) (count : Nat) : Decidable (IsPermutation order count) := by
  unfold IsPermutation; infer_instance

/-- Whether every index in turn is a place that was not seen before. -/
def allUnseen : List Bool → List Nat → Bool
  | _, [] => true
  | seen, index :: rest => seen[index]? == some false && allUnseen (seen.set index true) rest

/-- The check of an order: as many indices as there are places, and no place met twice. -/
def isPermutation (order : List Nat) (count : Nat) : Bool :=
  order.length == count && allUnseen (List.replicate count false) order

/-- The places that were seen are those of the indices read so far, so that no index is repeated. -/
theorem allUnseen_iff {seen : List Bool} {order : List Nat} :
    allUnseen seen order = true ↔ order.Nodup ∧ ∀ index ∈ order, seen[index]? = some false := by
  induction order generalizing seen with
  | nil => simp [allUnseen]
  | cons index rest ih =>
    have hset : ∀ place, (seen.set index true)[place]? = some false
        ↔ place ≠ index ∧ seen[place]? = some false := by
      intro place
      rw [List.getElem?_set]
      by_cases h : index = place
      · simp [h]
      · simp [h, Ne.symm h]
    rw [allUnseen, Bool.and_eq_true, beq_iff_eq, ih, List.nodup_cons, List.forall_mem_cons]
    simp only [hset]
    constructor
    · rintro ⟨hfirst, hrest, hunseen⟩
      exact ⟨⟨fun hmem => (hunseen index hmem).1 rfl, hrest⟩, hfirst,
        fun place hplace => (hunseen place hplace).2⟩
    · rintro ⟨⟨hnew, hrest⟩, hfirst, hunseen⟩
      refine ⟨hfirst, hrest, fun place hplace => ⟨?_, hunseen place hplace⟩⟩
      rintro rfl
      exact hnew hplace

/-- The check accepts exactly the orders that name every index once. -/
theorem isPermutation_iff {order : List Nat} {count : Nat} :
    isPermutation order count = true ↔ IsPermutation order count := by
  have hplace : ∀ index, (List.replicate count false)[index]? = some false ↔ index < count := by
    intro index
    rw [List.getElem?_replicate]
    by_cases h : index < count <;> simp [h]
  simp only [isPermutation, Bool.and_eq_true, beq_iff_eq, allUnseen_iff, hplace, IsPermutation]

/-- The items in a new order: position `i` gets the item at `order[i]`. -/
def permuted (items : List Data) (order : List Nat) : List Data :=
  order.map fun index => items.getD index .null

/-! ## One action -/

/-- Where an action stands before the host has been asked. -/
inductive Plan (κ : Type) where
  /-- Nothing is asked. -/
  | settled (result : Except Fault Data)
  /-- The host computes a new content from the previous one. -/
  | asksUpdate (name : κ) (previous : Data) (resume : Data → Except Fault Data)
  /-- The host finds the errors of a value. -/
  | asksErrors (validator : κ) (value : Json) (resume : List String → Except Fault Data)

namespace Plan

/-- Go on with the definition at a path, if there is one. -/
def withDefinition (state : Data) (path : Path) (next : List Data → Plan κ) : Plan κ :=
  match definitionAt state path with
  | .error e => .settled (.error e)
  | .ok definition => next definition

/-- Write to a slot what an update makes of its content. -/
def update (state : Data) (path : Path) (slot : Nat) (u : Update κ) : Plan κ :=
  withDefinition state path fun definition =>
    match u with
    | .fixed value => .settled (writeSlot state path definition slot value)
    | .computed name =>
      .asksUpdate name (slotAt definition slot) (writeSlot state path definition slot)

/-- Write to a slot what a function makes of its content, if it allows that. -/
def adjust (state : Data) (path : Path) (slot : Nat) (f : Data → Except Fault Data) :
    Plan κ :=
  withDefinition state path fun definition =>
    .settled ((f (slotAt definition slot)).bind (writeSlot state path definition slot))

/-- Write to the errors slot what a validator finds in a view of the definition. -/
def check (state : Data) (path : Path) (slot : Nat) (validator : κ) (view : List Data → Json) :
    Plan κ :=
  withDefinition state path fun definition =>
    .asksErrors validator (view definition) fun errors =>
      writeSlot state path definition slot (Data.ofTexts errors)

/-- The result, once the host has answered. -/
def run {m : Type → Type} [Monad m] (update : κ → Data → m Data)
    (errors : κ → Json → m (List String)) : Plan κ → m (Except Fault Data)
  | .settled result => pure result
  | .asksUpdate name previous resume => resume <$> update name previous
  | .asksErrors validator value resume => resume <$> errors validator value

end Plan

/-- The items with one more at the end; anything but a list counts as no items. -/
def appended (content item : Data) : Data := .list (content.items ++ [item])

/-- The items of a slot in a new order, if it is a permutation of them. -/
def reordered (order : List Nat) (content : Data) : Except Fault Data :=
  if isPermutation order content.items.length then .ok (.list (permuted content.items order))
  else .error (.invalidOrder order content.items.length)

theorem reordered_eq (order : List Nat) (content : Data) : reordered order content
    = if IsPermutation order content.items.length then .ok (.list (permuted content.items order))
      else .error (.invalidOrder order content.items.length) := by
  simp only [reordered, isPermutation_iff]

/-- The template of a `many` definition; a missing one is an empty list of nodes. -/
def templateOf (definition : List Data) : Data := definition.getD Kind.templateAt (.list [])

/-- What an action does to a state. -/
def Action.plan (state : Data) : Action κ → Plan κ
  | .removeField path => .settled (removeAt state path)
  | .editField path update => .update state path Kind.valueAt update
  | .validateField _ none => .settled (.ok state)
  | .validateField path (some errors) =>
    .adjust state path Kind.field.errorsAt fun _ => .ok (Data.ofTexts errors)
  | .checkField path validator =>
    .check state path Kind.field.errorsAt validator fun definition =>
      (slotAt definition Kind.valueAt).toJson
  | .addContent path =>
    .withDefinition state path fun definition =>
      .adjust state path Container.many.itemsAt fun content =>
        .ok (appended content (templateOf definition))
  | .addChildForm path form =>
    .adjust state path Container.childForms.itemsAt fun content => .ok (appended content form)
  | .deleteItem _ path => .settled (removeAt state path)
  | .editItems container path update => .update state path container.itemsAt update
  | .reorderItems container path order => .adjust state path container.itemsAt (reordered order)
  | .validateItems _ _ none => .settled (.ok state)
  | .validateItems container path (some validator) =>
    .check state path container.errorsAt validator fun definition =>
      Data.itemsJson definition[container.itemsAt]?
  | .custom _ _ => .settled (.ok state)

/-! ## Pure host code -/

/-- What pure host code answers. -/
structure Answers (κ : Type) where
  update : κ → Data → Data
  errors : κ → Json → List String

/-- Apply one action. -/
def Action.apply (answers : Answers κ) (state : Data) (action : Action κ) : Except Fault Data :=
  Id.run ((action.plan state).run (fun k d => pure (answers.update k d))
    (fun k v => pure (answers.errors k v)))

/-- Apply a batch of actions one after the other, up to the first failure. -/
def Batch.apply (answers : Answers κ) (state : Data) (batch : Batch κ) :
    Except Fault Data :=
  batch.foldlM (Action.apply answers) state

/-! ## Host code with effects -/

/-- Apply a batch of actions one after the other, up to the first failure, asking host code that has
effects. -/
def Batch.applyM {m : Type → Type} [Monad m] (update : κ → Data → m Data)
    (errors : κ → Json → m (List String)) (state : Data) :
    Batch κ → m (Except Fault Data)
  | [] => pure (.ok state)
  | action :: rest => do
    match ← (action.plan state).run update errors with
    | .error e => pure (.error e)
    | .ok next => Batch.applyM update errors next rest

/-- Without effects, the two ways of applying a batch agree. -/
theorem Batch.applyM_pure (answers : Answers κ) (state : Data) (batch : Batch κ) :
    Id.run (Batch.applyM (fun k d => pure (answers.update k d))
      (fun k v => pure (answers.errors k v)) state batch) = Batch.apply answers state batch := by
  induction batch generalizing state with
  | nil => rfl
  | cons action rest ih =>
    have hstep : Batch.apply answers state (action :: rest)
        = (Action.apply answers state action).bind fun next => Batch.apply answers next rest := rfl
    rw [hstep]
    simp only [Batch.applyM, Action.apply, Id.run_bind]
    cases Id.run ((action.plan state).run (fun k d => pure (answers.update k d))
      (fun k v => pure (answers.errors k v))) with
    | error e => rfl
    | ok next => exact ih next

end FormTree
