import FormTree.Proofs.Execution.Steps

/-!
# What a reduction can fail with

A batch fails because a node is missing or is not a definition, or because an order does not fit, and
for no other reason.  In particular a reduction never fails as a submission does that is refused.
-/

namespace FormTree

variable {σ κ : Type}

/-- The faults of a batch that is reduced. -/
def Fault.OfReduction : Fault → Prop
  | .malformedNode _ _ | .pathNotFound _ | .invalidOrder _ _ => True
  | _ => False

/-- A result that is a state or a fault of a reduction. -/
def Reduced (result : Except Fault Data) : Prop := ∀ e, result = .error e → e.OfReduction

/-- Whatever the host answers, what becomes of the plan is a state or a fault of a reduction. -/
def Plan.Reduces : Plan κ → Prop
  | .settled result => Reduced result
  | .asksUpdate _ _ resume => ∀ content, Reduced (resume content)
  | .asksErrors _ _ resume => ∀ errors, Reduced (resume errors)

theorem reduced_ok (state : Data) : Reduced (.ok state) := fun _ h => nomatch h

theorem reduced_error {e : Fault} (h : e.OfReduction) : Reduced (.error e) := by
  rintro _ ⟨⟩
  exact h

theorem writeSlot_reduced (state : Data) (path : Path) (definition : List Data) (slot : Nat)
    (value : Data) : Reduced (writeSlot state path definition slot value) := by
  unfold writeSlot
  split
  · exact reduced_ok _
  · exact reduced_error trivial

theorem removeAt_reduced (state : Data) (path : Path) : Reduced (removeAt state path) := by
  unfold removeAt
  split
  · exact reduced_ok _
  · exact reduced_error trivial

theorem reordered_reduced (order : List Nat) (content : Data) : Reduced (reordered order content) := by
  rw [reordered_eq]
  split
  · exact reduced_ok _
  · exact reduced_error trivial

namespace Plan

variable {state : Data} {path : Path} {slot : Nat}

theorem withDefinition_reduces {next : List Data → Plan κ} (h : ∀ definition, (next definition).Reduces) :
    (withDefinition state path next).Reduces := by
  unfold withDefinition definitionAt
  split
  · next e he =>
    refine reduced_error ?_
    split at he <;> cases he <;> trivial
  · exact h _

theorem update_reduces (u : Update κ) : (update state path slot u).Reduces := by
  refine withDefinition_reduces fun definition => ?_
  cases u with
  | fixed value => exact writeSlot_reduced _ _ _ _ _
  | computed name => exact fun _ => writeSlot_reduced _ _ _ _ _

theorem adjust_reduces {f : Data → Except Fault Data} (h : ∀ content, Reduced (f content)) :
    (adjust (κ := κ) state path slot f).Reduces := by
  refine withDefinition_reduces fun definition => ?_
  intro e he
  cases hcontent : f (slotAt definition slot) with
  | error fault =>
    rw [hcontent] at he
    cases he
    exact h _ _ hcontent
  | ok content =>
    rw [hcontent] at he
    exact writeSlot_reduced _ _ _ _ _ _ he

theorem check_reduces (validator : κ) (view : List Data → Json) :
    (check state path slot validator view).Reduces :=
  withDefinition_reduces fun _ _ => writeSlot_reduced _ _ _ _ _

end Plan

theorem Action.plan_reduces (state : Data) (action : Action κ) : (action.plan state).Reduces := by
  cases action with
  | removeField path | deleteItem _ path => exact removeAt_reduced _ _
  | editField path update | editItems container path update => exact Plan.update_reduces update
  | validateField path errors =>
    cases errors with
    | none => exact reduced_ok _
    | some errors => exact Plan.adjust_reduces fun _ => reduced_ok _
  | checkField path validator => exact Plan.check_reduces ..
  | addContent path =>
    exact Plan.withDefinition_reduces fun _ => Plan.adjust_reduces fun _ => reduced_ok _
  | addChildForm path form =>
    have happended : ∀ content, Reduced (.ok (appended content form)) := fun _ => reduced_ok _
    exact Plan.adjust_reduces happended
  | reorderItems container path order => exact Plan.adjust_reduces (reordered_reduced order)
  | validateItems container path validator =>
    cases validator with
    | none => exact reduced_ok _
    | some validator => exact Plan.check_reduces ..
  | custom _ _ => exact reduced_ok _

namespace Run

variable {w w' : World σ κ} {e : Fault}

/-- Whatever host code does while it is asked, a batch that fails fails with a fault of a reduction.
-/
theorem applyM_error {update : κ → Data → Run σ κ Data} {errors : κ → Json → Run σ κ (List String)}
    {state : Data} {batch : Batch κ}
    (h : Batch.applyM update errors state batch w = .ok (.error e, w')) : e.OfReduction := by
  induction batch generalizing state w with
  | nil => cases (pure_eq_ok.1 h).1
  | cons action rest ih =>
    obtain ⟨result, v, hplan, h⟩ := bind_eq_ok.1 h
    cases result with
    | ok next => exact ih h
    | error fault =>
      obtain ⟨⟨⟩, -⟩ := pure_eq_ok.1 h
      have hreduces := action.plan_reduces state
      cases hcase : action.plan state with
      | settled result =>
        rw [hcase] at hplan hreduces
        exact hreduces _ (pure_eq_ok.1 hplan).1
      | asksUpdate name previous resume =>
        rw [hcase] at hplan hreduces
        obtain ⟨content, -, hresume⟩ := map_eq_ok.1 hplan
        exact hreduces content _ hresume
      | asksErrors validator value resume =>
        rw [hcase] at hplan hreduces
        obtain ⟨found, -, hresume⟩ := map_eq_ok.1 hplan
        exact hreduces found _ hresume

/-- A batch that is submitted is never answered by its own reduction that it was refused. -/
theorem compute_error {host : Host σ κ} {exec : {α : Type} → Program σ κ α → Run σ κ α}
    {form : FormId} {batch : Batch κ}
    (h : compute host exec form batch w = .ok (.error e, w')) : e.OfReduction := by
  obtain ⟨_, _, _, h⟩ := bind_eq_ok.1 h
  obtain ⟨_, _, _, h⟩ := bind_eq_ok.1 h
  exact applyM_error h

end Run

end FormTree
