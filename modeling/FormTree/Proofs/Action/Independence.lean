import FormTree.Proofs.Action.Failure

/-!
# Independent edits

An action on a definition reads that definition and writes it, and nothing else.  So two actions on
definitions of which neither lies inside the other can be applied in either order: each succeeds
after the other exactly if it succeeds alone, and the state is the same in the end.
`independent_batches_commute` says so of batches, applied as one batch or as two.
-/

namespace FormTree

variable {κ : Type}

/-- What becomes of a state when a batch is submitted: it is applied as a whole or not at all. -/
def Batch.outcome (answers : Answers κ) (s : Data) (batch : Batch κ) : Data :=
  (Batch.apply answers s batch).toOption.getD s

/-! ## Two actions -/

section Actions

variable {answers : Answers κ} {p q : Path} {s m n s' : Data} {a b : Action κ}

/-- An action on a definition keeps the state or writes a slot of that definition. -/
theorem Action.effect_of_target (htarget : a.target? = some p) :
    a.effect = .keeps ∨ ∃ slot content, a.effect = .writes p slot content := by
  cases a with
  | removeField | deleteItem | custom => cases htarget
  | validateField other errors =>
    obtain rfl := Option.some.inj htarget
    cases errors with
    | none => exact .inl rfl
    | some errors => exact .inr ⟨_, _, rfl⟩
  | validateItems container other validator =>
    obtain rfl := Option.some.inj htarget
    cases validator with
    | none => exact .inl rfl
    | some validator => exact .inr ⟨_, _, rfl⟩
  | _ =>
    obtain rfl := Option.some.inj htarget
    exact .inr ⟨_, _, rfl⟩

/-- An action on a definition keeps the state, or replaces the definition by something that depends
on it alone. -/
theorem Action.apply_of_target (answers : Answers κ) (htarget : a.target? = some p) :
    (∀ s, a.apply answers s = .ok s) ∨ ∃ next : List Data → Option Data, ∀ s s',
      a.apply answers s = .ok s' ↔ ∃ definition value, s.node? p = some (.list definition)
        ∧ next definition = some value ∧ s.replace? p value = some s' := by
  rcases effect_of_target htarget with heffect | ⟨slot, content, heffect⟩
  · exact .inl fun s => by rw [apply_eq, heffect]; rfl
  · refine .inr ⟨fun definition => (content answers definition).toOption.map
      fun value => .list (putSlot definition slot value), fun s s' => ?_⟩
    rw [apply_eq, heffect, Effect.apply_writes_eq_ok]
    refine exists_congr fun definition => ?_
    cases hcontent : content answers definition <;> simp [hcontent, Except.toOption]

/-- Two actions on definitions apart that succeed one after the other do so in the other order. -/
theorem Action.apply_comm (ha : a.target? = some p) (hb : b.target? = some q) (hpq : ¬ p <+: q)
    (hqp : ¬ q <+: p) (hm : a.apply answers s = .ok m) (hs' : b.apply answers m = .ok s') :
    ∃ n, b.apply answers s = .ok n ∧ a.apply answers n = .ok s' := by
  obtain hkeeps | ⟨next, hnext⟩ := apply_of_target answers ha
  · obtain rfl := Except.ok.inj ((hkeeps s).symm.trans hm)
    exact ⟨s', hs', hkeeps s'⟩
  · obtain hkeeps | ⟨next', hnext'⟩ := apply_of_target answers hb
    · obtain rfl := Except.ok.inj ((hkeeps m).symm.trans hs')
      exact ⟨s, hkeeps s, hm⟩
    · obtain ⟨definition, value, hdefinition, hvalue, hm⟩ := (hnext s m).1 hm
      obtain ⟨definition', value', hdefinition', hvalue', hs'⟩ := (hnext' m s').1 hs'
      rw [Data.node?_replace?_apart hm hpq hqp] at hdefinition'
      obtain ⟨n, hn, hback⟩ := Data.replace?_comm hpq hqp hm hs'
      rw [← Data.node?_replace?_apart hn hqp hpq] at hdefinition
      exact ⟨n, (hnext' s n).2 ⟨definition', value', hdefinition', hvalue', hn⟩,
        (hnext n s').2 ⟨definition, value, hdefinition, hvalue, hback⟩⟩

/-- An action that succeeds still does after an action on a definition apart. -/
theorem Action.apply_still (ha : a.target? = some p) (hb : b.target? = some q) (hpq : ¬ p <+: q)
    (hqp : ¬ q <+: p) (hm : a.apply answers s = .ok m) (hn : b.apply answers s = .ok n) :
    ∃ s', b.apply answers m = .ok s' := by
  obtain hkeeps | ⟨next, hnext⟩ := apply_of_target answers ha
  · obtain rfl := Except.ok.inj ((hkeeps s).symm.trans hm)
    exact ⟨n, hn⟩
  · obtain hkeeps | ⟨next', hnext'⟩ := apply_of_target answers hb
    · exact ⟨m, hkeeps m⟩
    · obtain ⟨_, _, -, -, hm⟩ := (hnext s m).1 hm
      obtain ⟨definition, value, hdefinition, hvalue, -⟩ := (hnext' s n).1 hn
      rw [← Data.node?_replace?_apart hm hpq hqp] at hdefinition
      obtain ⟨s', hs'⟩ := Data.exists_replace? hdefinition value
      exact ⟨s', (hnext' m s').2 ⟨definition, value, hdefinition, hvalue, hs'⟩⟩

end Actions

/-! ## Two batches -/

section Batches

variable {answers : Answers κ} {p q : Path} {s m n s' : Data} {a b : Action κ} {A B : Batch κ}

/-- An action moves to the front of a batch on a definition apart. -/
theorem Batch.apply_comm_action (hA : ∀ a ∈ A, a.target? = some p) (hb : b.target? = some q)
    (hpq : ¬ p <+: q) (hqp : ¬ q <+: p) (hm : Batch.apply answers s A = .ok m)
    (hs' : b.apply answers m = .ok s') :
    ∃ n, b.apply answers s = .ok n ∧ Batch.apply answers n A = .ok s' := by
  induction A generalizing s with
  | nil =>
    obtain rfl := Except.ok.inj hm
    exact ⟨s', hs', rfl⟩
  | cons a rest ih =>
    obtain ⟨ha, hrest⟩ := List.forall_mem_cons.1 hA
    obtain ⟨between, hfirst, hm⟩ := (apply_cons_eq_ok answers).1 hm
    obtain ⟨n', hb', hlater⟩ := ih hrest hm
    obtain ⟨n, hn, hback⟩ := Action.apply_comm ha hb hpq hqp hfirst hb'
    exact ⟨n, hn, (apply_cons_eq_ok answers).2 ⟨n', hback, hlater⟩⟩

/-- Two batches on definitions apart that succeed one after the other do so in the other order. -/
theorem Batch.apply_comm (hA : ∀ a ∈ A, a.target? = some p) (hB : ∀ b ∈ B, b.target? = some q)
    (hpq : ¬ p <+: q) (hqp : ¬ q <+: p) (hm : Batch.apply answers s A = .ok m)
    (hs' : Batch.apply answers m B = .ok s') :
    ∃ n, Batch.apply answers s B = .ok n ∧ Batch.apply answers n A = .ok s' := by
  induction B generalizing s m with
  | nil =>
    obtain rfl := Except.ok.inj hs'
    exact ⟨s, rfl, hm⟩
  | cons b rest ih =>
    obtain ⟨hb, hrest⟩ := List.forall_mem_cons.1 hB
    obtain ⟨between, hfirst, hs'⟩ := (apply_cons_eq_ok answers).1 hs'
    obtain ⟨n', hn', hback⟩ := apply_comm_action hA hb hpq hqp hm hfirst
    obtain ⟨n, hn, hlast⟩ := ih hrest hback hs'
    exact ⟨n, (apply_cons_eq_ok answers).2 ⟨n', hn', hn⟩, hlast⟩

/-- A batch that succeeds still does after an action on a definition apart. -/
theorem Batch.apply_still_action (ha : a.target? = some p) (hB : ∀ b ∈ B, b.target? = some q)
    (hpq : ¬ p <+: q) (hqp : ¬ q <+: p) (hm : a.apply answers s = .ok m)
    (hn : Batch.apply answers s B = .ok n) : ∃ s', Batch.apply answers m B = .ok s' := by
  induction B generalizing s m with
  | nil => exact ⟨m, rfl⟩
  | cons b rest ih =>
    obtain ⟨hb, hrest⟩ := List.forall_mem_cons.1 hB
    obtain ⟨between, hfirst, hn⟩ := (apply_cons_eq_ok answers).1 hn
    obtain ⟨m', hm'⟩ := Action.apply_still ha hb hpq hqp hm hfirst
    obtain ⟨_, hbetween, hback⟩ := Action.apply_comm ha hb hpq hqp hm hm'
    obtain rfl := Except.ok.inj (hfirst.symm.trans hbetween)
    obtain ⟨s', hs'⟩ := ih hrest hback hn
    exact ⟨s', (apply_cons_eq_ok answers).2 ⟨m', hm', hs'⟩⟩

/-- A batch that succeeds still does after a batch on a definition apart. -/
theorem Batch.apply_still (hA : ∀ a ∈ A, a.target? = some p) (hB : ∀ b ∈ B, b.target? = some q)
    (hpq : ¬ p <+: q) (hqp : ¬ q <+: p) (hm : Batch.apply answers s A = .ok m)
    (hn : Batch.apply answers s B = .ok n) : ∃ s', Batch.apply answers m B = .ok s' := by
  induction A generalizing s n with
  | nil =>
    obtain rfl := Except.ok.inj hm
    exact ⟨n, hn⟩
  | cons a rest ih =>
    obtain ⟨ha, hrest⟩ := List.forall_mem_cons.1 hA
    obtain ⟨between, hfirst, hm⟩ := (apply_cons_eq_ok answers).1 hm
    obtain ⟨n', hn'⟩ := apply_still_action ha hB hpq hqp hfirst hn
    exact ih hrest hm hn'

theorem Batch.outcome_of_ok (h : Batch.apply answers s A = .ok m) : outcome answers s A = m := by
  rw [outcome, h]
  rfl

theorem Batch.outcome_of_error {e : Fault} (h : Batch.apply answers s A = .error e) :
    outcome answers s A = s := by
  rw [outcome, h]
  rfl

/-- A batch that fails leaves as it was what a batch on a definition apart makes of it. -/
theorem Batch.outcome_of_error_apart {e : Fault} (hA : ∀ a ∈ A, a.target? = some p)
    (hB : ∀ b ∈ B, b.target? = some q) (hpq : ¬ p <+: q) (hqp : ¬ q <+: p)
    (hm : Batch.apply answers s A = .ok m) (he : Batch.apply answers s B = .error e) :
    outcome answers m B = m := by
  cases hfails : Batch.apply answers m B with
  | error fault => exact outcome_of_error hfails
  | ok s' =>
    obtain ⟨n, hn, -⟩ := apply_comm hA hB hpq hqp hm hfails
    rw [he] at hn
    cases hn

end Batches

/-- Batches of actions on two definitions of which neither lies inside the other can be applied in
either order.  One after the other in one batch, they succeed in one order exactly if they do in the
other, with the same state; as two batches, each of which is applied as a whole or not at all, they
leave the same state in either order. -/
theorem independent_batches_commute (answers : Answers κ) {p q : Path} (hpq : ¬ p <+: q)
    (hqp : ¬ q <+: p) {A B : Batch κ} (hA : ∀ action ∈ A, action.target? = some p)
    (hB : ∀ action ∈ B, action.target? = some q) (s : Data) :
    (∀ s', Batch.apply answers s (A ++ B) = .ok s' ↔ Batch.apply answers s (B ++ A) = .ok s')
    ∧ Batch.outcome answers (Batch.outcome answers s A) B
      = Batch.outcome answers (Batch.outcome answers s B) A := by
  refine ⟨fun s' => ?_, ?_⟩
  · rw [Batch.apply_append_eq_ok, Batch.apply_append_eq_ok]
    constructor
    · rintro ⟨m, hm, hs'⟩
      exact Batch.apply_comm hA hB hpq hqp hm hs'
    · rintro ⟨n, hn, hs'⟩
      exact Batch.apply_comm hB hA hqp hpq hn hs'
  · cases hm : Batch.apply answers s A with
    | error e =>
      rw [Batch.outcome_of_error hm]
      cases hn : Batch.apply answers s B with
      | error fault => rw [Batch.outcome_of_error hn, Batch.outcome_of_error hm]
      | ok n =>
        rw [Batch.outcome_of_ok hn, Batch.outcome_of_error_apart hB hA hqp hpq hn hm]
    | ok m =>
      rw [Batch.outcome_of_ok hm]
      cases hn : Batch.apply answers s B with
      | error fault =>
        rw [Batch.outcome_of_error hn, Batch.outcome_of_ok hm,
          Batch.outcome_of_error_apart hA hB hpq hqp hm hn]
      | ok n =>
        obtain ⟨s', hs'⟩ := Batch.apply_still hA hB hpq hqp hm hn
        obtain ⟨_, hn', hback⟩ := Batch.apply_comm hA hB hpq hqp hm hs'
        obtain rfl := Except.ok.inj (hn.symm.trans hn')
        rw [Batch.outcome_of_ok hn, Batch.outcome_of_ok hs', Batch.outcome_of_ok hback]

/-! ## A field and a container -/

namespace Apart

/-- A field, and a container whose definition has a name only. -/
def state : Data := .list [.list [.string "field", .list [.string "label", .string "text"]],
  .list [.string "many", .list [.string "items"]]]

/-- Host code that puts one more item in front, and that finds an error in each item. -/
def answers : Answers Nat where
  update _ previous := .list (.string "first" :: previous.items)
  errors _ value := (value.toArray?.getD []).map fun _ => "item"

/-- Edit the field and have it checked. -/
def fieldBatch : Batch Nat := [.editField [0, 1] (.fixed (.string "x")), .checkField [0, 1] 0]

/-- Put two items into the container, swap them, and have them checked. -/
def itemsBatch : Batch Nat := [.addContent [1, 1], .editItems .many [1, 1] (.computed 0),
  .reorderItems .many [1, 1] [1, 0], .validateItems .many [1, 1] (some 0)]

end Apart

open Apart in
theorem independent_batches_commute_container :
    (∃ s', Batch.apply answers state (fieldBatch ++ itemsBatch) = .ok s'
      ∧ Batch.apply answers state (itemsBatch ++ fieldBatch) = .ok s')
    ∧ Batch.outcome answers (Batch.outcome answers state fieldBatch) itemsBatch
      = Batch.outcome answers (Batch.outcome answers state itemsBatch) fieldBatch := by
  have hfield : ∀ action ∈ fieldBatch, action.target? = some [0, 1] := by
    simp [fieldBatch, Action.target?]
  have hitems : ∀ action ∈ itemsBatch, action.target? = some [1, 1] := by
    simp [itemsBatch, Action.target?]
  obtain ⟨hsame, houtcome⟩ :=
    independent_batches_commute answers (by decide) (by decide) hfield hitems state
  obtain ⟨s', hs'⟩ : ∃ s', Batch.apply answers state (fieldBatch ++ itemsBatch) = .ok s' := ⟨_, rfl⟩
  exact ⟨⟨s', hs', (hsame s').1 hs'⟩, houtcome⟩

end FormTree
