import FormTree.Proofs.Action.Padding
import Mathlib.Data.List.Perm.Subperm

/-!
# When actions fail

An action that takes an item out fails if there is no such item.  An action on a definition fails if
its path leads nowhere, or to something that is not a definition, and a reordering also if its order
is no permutation of the items.  Actions that have nothing to store do not look at the form at all.
`failure_conditions` says that these are all the ways to fail, each with its fault, and that whether
an action fails does not depend on what the host answers.  A batch fails as the first of its actions
that fails on what those before it made.
-/

namespace FormTree

variable {κ : Type}

/-! ## Kinds of actions -/

/-- Actions that have nothing to do with a form: the host's own, and validations that bring no
errors or no validator. -/
inductive Action.Idle : Action κ → Prop where
  | custom (kind : String) (payload : Data) : Idle (.custom kind payload)
  | validateField (path : Path) : Idle (.validateField path none)
  | validateItems (container : Container) (path : Path) : Idle (.validateItems container path none)

/-- The path of the item that an action takes out. -/
def Action.item? : Action κ → Option Path
  | .removeField path | .deleteItem _ path => some path
  | _ => none

/-- Every action takes an item out, is addressed to a definition, or is idle. -/
theorem Action.idle_or_item_or_target (action : Action κ) :
    action.Idle ∨ (∃ path, action.item? = some path) ∨ ∃ path, action.target? = some path := by
  cases action with
  | removeField path | deleteItem _ path => exact .inr (.inl ⟨path, rfl⟩)
  | custom kind payload => exact .inl (.custom kind payload)
  | _ => exact .inr (.inr ⟨_, rfl⟩)

/-- A path leads to an item of a list. -/
def Data.HasItem (s : Data) (path : Path) : Prop :=
  ∃ list index items, path = list ++ [index] ∧ s.node? list = some (.list items)
    ∧ index < items.length

/-- The ways in which an action on the definition at a path can fail.  A slot that does not hold a
list has no items to put in order. -/
inductive Action.FailsAt (s : Data) (path : Path) (action : Action κ) : Fault → Prop where
  | noNode (hnone : s.node? path = none) : FailsAt s path action (.pathNotFound path)
  | noDefinition {found : Data} (hfound : s.node? path = some found)
      (hlist : found.toList? = none) :
      FailsAt s path action (.malformedNode path (.notDefinition found))
  | noPermutation {container : Container} {order : List Nat} {definition items : List Data}
      (haction : action = .reorderItems container path order)
      (hdefinition : s.node? path = some (.list definition))
      (hitems : items = (slotAt definition container.itemsAt).items)
      (horder : ¬ order.Perm (List.range items.length)) :
      FailsAt s path action (.invalidOrder order items.length)

/-! ## Single steps that can fail -/

section Steps

variable {s found : Data} {path : Path} {definition : List Data} {slot : Nat} {e : Fault}

theorem isPermutation_iff_perm {order : List Nat} {count : Nat} :
    IsPermutation order count ↔ order.Perm (List.range count) := by
  constructor
  · rintro ⟨rfl, hnodup, hbound⟩
    have hsub : order ⊆ List.range order.length :=
      fun index hindex => List.mem_range.2 (hbound index hindex)
    exact (hnodup.subperm hsub).perm_of_length_le (Nat.le_of_eq List.length_range)
  · intro hperm
    refine ⟨by rw [hperm.length_eq, List.length_range], hperm.nodup_iff.2 List.nodup_range, ?_⟩
    exact fun index hindex => List.mem_range.1 (hperm.mem_iff.1 hindex)

theorem Data.erase?_isSome_iff : (s.erase? path).isSome ↔ s.HasItem path := by
  rcases List.eq_nil_or_concat path with rfl | ⟨list, index, rfl⟩
  · refine iff_of_false (by simp [erase?_nil]) ?_
    rintro ⟨list, index, _, hpath, -⟩
    simp at hpath
  · rw [List.concat_eq_append, erase?_isSome, Option.isSome_iff_exists]
    constructor
    · rintro ⟨item, hitem⟩
      obtain ⟨items, hitems, hindex⟩ := node?_concat_eq_some.1 hitem
      exact ⟨list, index, items, rfl, hitems, (List.getElem?_eq_some_iff.1 hindex).1⟩
    · rintro ⟨list', index', items, hpath, hitems, hlt⟩
      obtain ⟨rfl, rfl⟩ : list = list' ∧ index = index' := by simpa using hpath
      exact ⟨_, node?_concat_eq_some.2 ⟨items, hitems, List.getElem?_eq_getElem hlt⟩⟩

theorem removeAt_eq_error :
    removeAt s path = .error e ↔ e = .pathNotFound path ∧ (path = [] ∨ ¬ s.HasItem path) := by
  have hnone : path = [] ∨ ¬ s.HasItem path ↔ s.erase? path = none := by
    rw [← Data.erase?_isSome_iff, Option.not_isSome_iff_eq_none, or_iff_right_iff_imp]
    rintro rfl
    exact Data.erase?_nil s
  rw [hnone, removeAt]
  cases s.erase? path <;> simp [eq_comm]

theorem definitionAt_eq_error : definitionAt s path = .error e
    ↔ (s.node? path = none ∧ e = .pathNotFound path)
      ∨ ∃ found, s.node? path = some found ∧ found.toList? = none
        ∧ e = .malformedNode path (.notDefinition found) := by
  unfold definitionAt
  split
  · next hnone => simp [hnone, eq_comm]
  · next definition hdefinition => simp [hdefinition, Data.toList?]
  · next found hother hfound =>
    have hlist : found.toList? = none := by
      cases found with
      | list definition => exact absurd rfl (hother definition)
      | _ => rfl
    simp [hfound, hlist, eq_comm]

theorem reordered_eq_error {order : List Nat} {content : Data} : reordered order content = .error e
    ↔ ¬ order.Perm (List.range content.items.length)
      ∧ e = .invalidOrder order content.items.length := by
  rw [← isPermutation_iff_perm, reordered_eq]
  split <;> simp_all [eq_comm]

/-- A slot is written if the definition is there and there is something to write. -/
theorem Effect.apply_writes_eq_ok {answers : Answers κ} {s' : Data}
    {content : Answers κ → List Data → Except Fault Data} :
    (Effect.writes path slot content).apply answers s = .ok s'
      ↔ ∃ definition value, s.node? path = some (.list definition)
        ∧ content answers definition = .ok value
        ∧ s.replace? path (.list (putSlot definition slot value)) = some s' := by
  cases hdefinition : definitionAt s path with
  | error e =>
    refine iff_of_false (by simp [apply, hdefinition, bind, Except.bind]) ?_
    rintro ⟨definition, _, hs, -⟩
    rw [definitionAt_eq_ok.2 hs] at hdefinition
    cases hdefinition
  | ok definition =>
    have hs := definitionAt_eq_ok.1 hdefinition
    rw [apply_writes answers hs]
    cases hcontent : content answers definition <;>
      simp [hs, hcontent, Except.bind, writeSlot_eq_ok]

end Steps

/-! ## Failing before the host is asked -/

/-- Whatever the host answers, the plan leads to a state. -/
def Plan.Succeeds : Plan κ → Prop
  | .settled result => ∃ next, result = .ok next
  | .asksUpdate _ _ resume => ∀ content, ∃ next, resume content = .ok next
  | .asksErrors _ _ resume => ∀ errors, ∃ next, resume errors = .ok next

section Plans

variable {s : Data} {path : Path} {definition : List Data} {slot : Nat} {e : Fault}
  {action : Action κ}

theorem Plan.update_succeeds (hs : s.node? path = some (.list definition)) (u : Update κ) :
    (Plan.update s path slot u).Succeeds := by
  have hwrites : ∀ content, ∃ next, writeSlot s path definition slot content = .ok next := by
    intro content
    obtain ⟨next, hnext, -⟩ := exists_writeSlot hs slot content
    exact ⟨next, hnext⟩
  rw [Plan.update, Plan.withDefinition_of_node? hs]
  cases u with
  | fixed value => exact hwrites value
  | computed name => exact hwrites

theorem Plan.check_succeeds (hs : s.node? path = some (.list definition)) (validator : κ)
    (view : List Data → Json) : (Plan.check s path slot validator view).Succeeds := by
  rw [Plan.check, Plan.withDefinition_of_node? hs]
  intro errors
  obtain ⟨next, hnext, -⟩ := exists_writeSlot hs slot (Data.ofTexts errors)
  exact ⟨next, hnext⟩

theorem Plan.adjust_succeeds {f : Data → Except Fault Data} {value : Data}
    (hs : s.node? path = some (.list definition))
    (hvalue : f (slotAt definition slot) = .ok value) :
    (Plan.adjust s path slot f : Plan κ).Succeeds := by
  obtain ⟨next, hnext⟩ := Data.exists_replace? hs (.list (putSlot definition slot value))
  rw [Plan.adjust_of_node? hs hvalue hnext]
  exact ⟨next, rfl⟩

theorem Action.plan_of_idle (hidle : action.Idle) : action.plan s = .settled (.ok s) := by
  cases hidle <;> rfl

theorem Action.plan_of_item (hitem : action.item? = some path) :
    action.plan s = .settled (removeAt s path) := by
  cases action <;> cases hitem <;> rfl

/-- An action on a definition that cannot be found fails at once. -/
theorem Action.plan_of_definitionAt_error (htarget : action.target? = some path)
    (hbusy : ¬ action.Idle) (he : definitionAt s path = .error e) :
    action.plan s = .settled (.error e) := by
  cases action with
  | removeField | deleteItem | custom => cases htarget
  | validateField other errors =>
    obtain rfl := Option.some.inj htarget
    cases errors with
    | none => exact absurd (.validateField other) hbusy
    | some errors => simp only [plan, Plan.adjust, Plan.withDefinition, he]
  | validateItems container other validator =>
    obtain rfl := Option.some.inj htarget
    cases validator with
    | none => exact absurd (.validateItems container other) hbusy
    | some validator => simp only [plan, Plan.check, Plan.withDefinition, he]
  | editField other update | editItems container other update =>
    obtain rfl := Option.some.inj htarget
    simp only [plan, Plan.update, Plan.withDefinition, he]
  | checkField other validator =>
    obtain rfl := Option.some.inj htarget
    simp only [plan, Plan.check, Plan.withDefinition, he]
  | addContent other | addChildForm other form | reorderItems container other order =>
    obtain rfl := Option.some.inj htarget
    simp only [plan, Plan.adjust, Plan.withDefinition, he]

/-- An action on a definition that is there succeeds, unless it asks for an order that does not
fit. -/
theorem Action.plan_of_definition (htarget : action.target? = some path)
    (hs : s.node? path = some (.list definition)) :
    (action.plan s).Succeeds ∨ ∃ container order, action = .reorderItems container path order
      ∧ ∃ fault, reordered order (slotAt definition container.itemsAt) = .error fault
        ∧ action.plan s = .settled (.error fault) := by
  cases action with
  | removeField | deleteItem | custom => cases htarget
  | validateField other errors =>
    obtain rfl := Option.some.inj htarget
    cases errors with
    | none => exact .inl ⟨s, rfl⟩
    | some errors =>
      rw [plan]
      exact .inl (Plan.adjust_succeeds hs rfl)
  | validateItems container other validator =>
    obtain rfl := Option.some.inj htarget
    cases validator with
    | none => exact .inl ⟨s, rfl⟩
    | some validator => exact .inl (Plan.check_succeeds hs validator _)
  | editField other update | editItems container other update =>
    obtain rfl := Option.some.inj htarget
    exact .inl (Plan.update_succeeds hs update)
  | checkField other validator =>
    obtain rfl := Option.some.inj htarget
    exact .inl (Plan.check_succeeds hs validator _)
  | addContent other =>
    obtain rfl := Option.some.inj htarget
    rw [plan, Plan.withDefinition_of_node? hs]
    exact .inl (Plan.adjust_succeeds hs rfl)
  | addChildForm other form =>
    obtain rfl := Option.some.inj htarget
    rw [plan]
    exact .inl (Plan.adjust_succeeds hs rfl)
  | reorderItems container other order =>
    obtain rfl := Option.some.inj htarget
    -- this is the only action that looks at what the slot holds
    cases hcontent : reordered order (slotAt definition container.itemsAt) with
    | ok content => exact .inl (Plan.adjust_succeeds hs hcontent)
    | error fault =>
      refine .inr ⟨container, order, rfl, fault, hcontent, ?_⟩
      rw [plan, Plan.adjust, Plan.withDefinition_of_node? hs, hcontent]
      rfl

/-- An action fails before the host is asked, or succeeds whatever the host answers. -/
theorem Action.plan_settled_or_succeeds (s : Data) (action : Action κ) :
    (∃ e, action.plan s = .settled (.error e)) ∨ (action.plan s).Succeeds := by
  rcases action.idle_or_item_or_target with hidle | ⟨path, hitem⟩ | ⟨path, htarget⟩
  · rw [plan_of_idle hidle]
    exact .inr ⟨s, rfl⟩
  · rw [plan_of_item hitem]
    cases removeAt s path with
    | error e => exact .inl ⟨e, rfl⟩
    | ok next => exact .inr ⟨next, rfl⟩
  · by_cases hidle : action.Idle
    · rw [plan_of_idle hidle]
      exact .inr ⟨s, rfl⟩
    · cases hdefinition : definitionAt s path with
      | error e => exact .inl ⟨e, plan_of_definitionAt_error htarget hidle hdefinition⟩
      | ok definition =>
        rcases plan_of_definition htarget (definitionAt_eq_ok.1 hdefinition) with
          hsucceeds | ⟨_, _, _, fault, -, hplan⟩
        · exact .inr hsucceeds
        · exact .inl ⟨fault, hplan⟩

end Plans

/-! ## Failing with pure host code -/

section Pure

variable {s : Data} {path : Path} {e : Fault} {action : Action κ} (answers : Answers κ)

theorem Action.apply_of_settled {result : Except Fault Data} (h : action.plan s = .settled result) :
    action.apply answers s = result := by
  rw [apply, h]
  rfl

theorem Action.exists_apply_of_succeeds (h : (action.plan s).Succeeds) :
    ∃ next, action.apply answers s = .ok next := by
  rw [apply]
  cases hplan : action.plan s with
  | settled result => rw [hplan] at h; exact h
  | asksUpdate name previous resume => rw [hplan] at h; exact h _
  | asksErrors validator value resume => rw [hplan] at h; exact h _

/-- An action fails exactly if it does before the host is asked. -/
theorem Action.apply_eq_error :
    action.apply answers s = .error e ↔ action.plan s = .settled (.error e) := by
  refine ⟨fun h => ?_, apply_of_settled answers⟩
  rcases plan_settled_or_succeeds s action with ⟨fault, hplan⟩ | hsucceeds
  · rw [apply_of_settled answers hplan] at h
    rw [hplan, h]
  · obtain ⟨next, hnext⟩ := exists_apply_of_succeeds answers hsucceeds
    rw [hnext] at h
    cases h

theorem Action.apply_of_item_eq_error (hitem : action.item? = some path) :
    action.apply answers s = .error e
      ↔ e = .pathNotFound path ∧ (path = [] ∨ ¬ s.HasItem path) := by
  rw [apply_of_settled answers (plan_of_item hitem), removeAt_eq_error]

theorem Action.apply_of_target_eq_error (htarget : action.target? = some path)
    (hbusy : ¬ action.Idle) : action.apply answers s = .error e ↔ action.FailsAt s path e := by
  cases hdefinition : definitionAt s path with
  | error fault =>
    rw [apply_of_settled answers (plan_of_definitionAt_error htarget hbusy hdefinition)]
    obtain ⟨hnone, rfl⟩ | ⟨found, hfound, hlist, rfl⟩ := definitionAt_eq_error.1 hdefinition
    · constructor
      · rintro ⟨⟩
        exact .noNode hnone
      · rintro (_ | ⟨hsome, -⟩ | ⟨-, hsome, -, -⟩)
        · rfl
        · simp [hnone] at hsome
        · simp [hnone] at hsome
    · constructor
      · rintro ⟨⟩
        exact .noDefinition hfound hlist
      · rintro (hnone | ⟨hother, -⟩ | ⟨-, hother, -, -⟩)
        · simp [hfound] at hnone
        · obtain rfl := Option.some.inj (hfound.symm.trans hother)
          rfl
        · obtain rfl := Option.some.inj (hfound.symm.trans hother)
          cases hlist
  | ok definition =>
    have hs := definitionAt_eq_ok.1 hdefinition
    -- of a definition that is there, only the order can be wrong
    have honly : action.FailsAt s path e → ∃ container order,
        action = .reorderItems container path order
          ∧ reordered order (slotAt definition container.itemsAt) = .error e := by
      rintro (hnone | ⟨hother, hlist⟩ | ⟨haction, hother, hitems, horder⟩)
      · simp [hs] at hnone
      · obtain rfl := Option.some.inj (hs.symm.trans hother)
        cases hlist
      · obtain ⟨rfl⟩ := Option.some.inj (hs.symm.trans hother)
        subst hitems
        exact ⟨_, _, haction, reordered_eq_error.2 ⟨horder, rfl⟩⟩
    rcases plan_of_definition htarget hs with
      hsucceeds | ⟨container, order, rfl, fault, hfault, hplan⟩
    · obtain ⟨next, hnext⟩ := exists_apply_of_succeeds answers hsucceeds
      rw [hnext]
      refine iff_of_false (by rintro ⟨⟩) fun hfails => ?_
      obtain ⟨container, order, rfl, he⟩ := honly hfails
      rw [apply_eq, effect, Effect.apply_writes answers hs, he] at hnext
      cases hnext
    · rw [apply_of_settled answers hplan]
      obtain ⟨horder, rfl⟩ := reordered_eq_error.1 hfault
      constructor
      · rintro ⟨⟩
        exact .noPermutation rfl hs rfl horder
      · intro hfails
        obtain ⟨_, _, ⟨⟩, he⟩ := honly hfails
        exact hfault.symm.trans he

/-! ## Batches -/

theorem Batch.apply_cons (action : Action κ) (rest : Batch κ) (s : Data) :
    Batch.apply answers s (action :: rest)
      = (action.apply answers s).bind fun next => Batch.apply answers next rest := rfl

theorem Batch.apply_append (first second : Batch κ) (s : Data) :
    Batch.apply answers s (first ++ second)
      = (Batch.apply answers s first).bind fun next => Batch.apply answers next second :=
  List.foldlM_append

theorem Batch.apply_cons_eq_ok {rest : Batch κ} {s' : Data} :
    Batch.apply answers s (action :: rest) = .ok s'
      ↔ ∃ next, action.apply answers s = .ok next ∧ Batch.apply answers next rest = .ok s' := by
  rw [apply_cons]
  cases action.apply answers s <;> simp [Except.bind]

theorem Batch.apply_append_eq_ok {first second : Batch κ} {s' : Data} :
    Batch.apply answers s (first ++ second) = .ok s'
      ↔ ∃ next, Batch.apply answers s first = .ok next
        ∧ Batch.apply answers next second = .ok s' := by
  rw [apply_append]
  cases Batch.apply answers s first <;> simp [Except.bind]

/-- A batch fails as the first of its actions that fails. -/
theorem Batch.apply_eq_error {batch : Batch κ} : Batch.apply answers s batch = .error e
    ↔ ∃ done action rest between, batch = done ++ action :: rest
      ∧ Batch.apply answers s done = .ok between ∧ action.apply answers between = .error e := by
  constructor
  · intro h
    induction batch generalizing s with
    | nil => cases h
    | cons action rest ih =>
      rw [apply_cons] at h
      cases hfirst : action.apply answers s with
      | error fault =>
        rw [hfirst] at h
        cases h
        exact ⟨[], action, rest, s, rfl, rfl, hfirst⟩
      | ok next =>
        rw [hfirst] at h
        obtain ⟨done, failing, later, between, rfl, hdone, hfails⟩ := ih h
        refine ⟨action :: done, failing, later, between, rfl, ?_, hfails⟩
        rw [apply_cons, hfirst]
        exact hdone
  · rintro ⟨done, action, rest, between, rfl, hdone, hfails⟩
    rw [apply_append, hdone]
    change Batch.apply answers between (action :: rest) = _
    rw [apply_cons, hfails]
    rfl

end Pure

/-- Idle actions succeed.  An action that takes an item out fails exactly if there is no such item,
and an action on a definition exactly in the ways of `Action.FailsAt`; there are no other actions.
Whatever the host answers, an action fails before it is asked or not at all.  A definition that was
found can be written, and an order that is accepted has no index behind the items.  A batch fails
exactly if one of its actions fails on what those before it made, and with the fault of that
action. -/
theorem failure_conditions (answers : Answers κ) (s : Data) :
    (∀ action : Action κ, action.Idle → action.apply answers s = .ok s)
    ∧ (∀ (action : Action κ) path e, action.item? = some path →
      (action.apply answers s = .error e
        ↔ e = .pathNotFound path ∧ (path = [] ∨ ¬ s.HasItem path)))
    ∧ (∀ (action : Action κ) path e, action.target? = some path → ¬ action.Idle →
      (action.apply answers s = .error e ↔ action.FailsAt s path e))
    ∧ (∀ action : Action κ, action.Idle ∨ (∃ path, action.item? = some path)
      ∨ ∃ path, action.target? = some path)
    ∧ (∀ (action : Action κ) e,
      action.apply answers s = .error e ↔ action.plan s = .settled (.error e))
    ∧ (∀ action : Action κ,
      (∃ e, action.plan s = .settled (.error e)) ∨ (action.plan s).Succeeds)
    ∧ (∀ path definition, s.node? path = some (.list definition) → ∀ slot value,
      ∃ s', writeSlot s path definition slot value = .ok s')
    ∧ (∀ order content next, reordered order content = .ok next →
      ∀ index ∈ order, index < content.items.length)
    ∧ ∀ (batch : Batch κ) e, Batch.apply answers s batch = .error e
      ↔ ∃ done action rest between, batch = done ++ action :: rest
        ∧ Batch.apply answers s done = .ok between ∧ action.apply answers between = .error e := by
  refine ⟨fun action hidle => Action.apply_of_settled answers (Action.plan_of_idle hidle),
    fun action path e => Action.apply_of_item_eq_error answers,
    fun action path e => Action.apply_of_target_eq_error answers,
    Action.idle_or_item_or_target, fun action e => Action.apply_eq_error answers,
    Action.plan_settled_or_succeeds s, fun path definition hs slot value => ?_,
    fun order content next hnext index hindex => ?_, fun batch e => Batch.apply_eq_error answers⟩
  · obtain ⟨s', hs', -⟩ := exists_writeSlot hs slot value
    exact ⟨s', hs'⟩
  · rw [reordered_eq] at hnext
    split at hnext
    · next horder => exact horder.2.2 index hindex
    · cases hnext

/-! ## A container that has a name only -/

namespace Unfilled

/-- A container without anything behind its name. -/
def state : Data := .list [.list [.string "many", .list [.string "items"]]]

/-- Host code that keeps what was there and finds no errors. -/
def answers : Answers Unit where
  update _ previous := previous
  errors _ _ := []

end Unfilled

open Unfilled in
theorem failure_conditions_unfilled :
    Action.apply answers state (.removeField []) = .error (.pathNotFound [])
    ∧ Action.apply answers state (.checkField [0, 2] ()) = .error (.pathNotFound [0, 2])
    ∧ Action.FailsAt state [0, 1] (.reorderItems .many [0, 1] [0] : Action Unit)
      (.invalidOrder [0] 0)
    ∧ Batch.apply answers state [.validateField [7] none, .addContent [0, 1],
        .reorderItems .many [0, 1] [0, 0]] = .error (.invalidOrder [0, 0] 1) := by
  obtain ⟨-, hitem, htarget, -, -, -, -, -, hbatch⟩ := failure_conditions answers state
  refine ⟨?_, ?_, ?_, ?_⟩
  · exact (hitem (.removeField []) [] _ rfl).2 ⟨rfl, .inl rfl⟩
  · exact (htarget (.checkField [0, 2] ()) [0, 2] _ rfl (by rintro ⟨⟩)).2 (.noNode rfl)
  · exact (htarget (.reorderItems .many [0, 1] [0]) [0, 1] _ rfl (by rintro ⟨⟩)).1 rfl
  · exact (hbatch _ _).2 ⟨[.validateField [7] none, .addContent [0, 1]], _, [], _, rfl, rfl, rfl⟩

end FormTree
