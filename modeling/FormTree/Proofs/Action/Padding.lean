import FormTree.Proofs.Action.Frame

/-!
# Missing slots and null slots

A definition may leave out slots at its end, and an action that writes behind its end fills it up
with nulls.  `nulls_observed_iff` says which actions tell a definition from the same definition with
more nulls at its end: only the one that appends the container's own template, and only if the
nulls reach the template slot.  A template that is missing is an empty list of nodes, a template
that is null is null; so of several additions to a container without template, the first appends
another item than the others.
-/

namespace FormTree

variable {κ : Type}

/-! ## Definitions that are filled up -/

/-- A definition with nulls added at its end. -/
def filledUp (definition : List Data) (count : Nat) : List Data :=
  definition ++ List.replicate count .null

section FilledUp

variable (definition : List Data) (count slot : Nat) (value : Data)

@[simp] theorem length_filledUp :
    (filledUp definition count).length = definition.length + count := by
  rw [filledUp, List.length_append, List.length_replicate]

@[simp] theorem filledUp_zero : filledUp definition 0 = definition := List.append_nil _

/-- A slot that is read behind the definition is missing, or one of the nulls. -/
theorem getElem?_filledUp :
    (¬ (definition.length ≤ slot ∧ slot < definition.length + count)
      ∧ (filledUp definition count)[slot]? = definition[slot]?)
    ∨ ((definition.length ≤ slot ∧ slot < definition.length + count)
      ∧ (filledUp definition count)[slot]? = some .null ∧ definition[slot]? = none) := by
  rcases Nat.lt_or_ge slot definition.length with hlt | hle
  · exact .inl ⟨by omega, List.getElem?_append_left hlt⟩
  · have hnone : definition[slot]? = none := List.getElem?_eq_none hle
    rcases Nat.lt_or_ge slot (definition.length + count) with hlt | hend
    · refine .inr ⟨⟨hle, hlt⟩, ?_, hnone⟩
      rw [filledUp, List.getElem?_append_right hle, List.getElem?_replicate, if_pos (by omega)]
    · refine .inl ⟨by omega, ?_⟩
      rw [hnone]
      exact List.getElem?_eq_none (by rw [length_filledUp]; exact hend)

/-- A slot that is read as null if it is missing reads the same. -/
@[simp] theorem slotAt_filledUp :
    slotAt (filledUp definition count) slot = slotAt definition slot := by
  simp only [slotAt, List.getD_eq_getElem?_getD]
  obtain ⟨-, hsame⟩ | ⟨-, hnull, hnone⟩ := getElem?_filledUp definition count slot
  · rw [hsame]
  · rw [hnull, hnone]
    rfl

/-- Projected items read the same: a missing slot and a null slot have none. -/
theorem itemsJson_filledUp : Data.itemsJson (filledUp definition count)[slot]?
    = Data.itemsJson definition[slot]? := by
  obtain ⟨-, hsame⟩ | ⟨-, hnull, hnone⟩ := getElem?_filledUp definition count slot
  · rw [hsame]
  · rw [hnull, hnone]
    rfl

/-- Writing a slot uses up the nulls that it would have added itself. -/
theorem putSlot_filledUp : putSlot (filledUp definition count) slot value
    = filledUp (putSlot definition slot value) (count - (slot + 1 - definition.length)) := by
  have hnulls : filledUp definition count
        ++ List.replicate (slot + 1 - (definition.length + count)) .null
      = definition ++ List.replicate (slot + 1 - definition.length) .null
        ++ List.replicate (count - (slot + 1 - definition.length)) .null := by
    rw [filledUp, List.append_assoc, List.append_assoc, List.replicate_append_replicate,
      List.replicate_append_replicate]
    congr 2
    omega
  have hlt : slot < (definition
      ++ List.replicate (slot + 1 - definition.length) Data.null).length := by
    rw [List.length_append, List.length_replicate]
    omega
  rw [putSlot, length_filledUp, hnulls, List.set_append_left _ _ hlt]
  rfl

/-- The template reads the same unless the nulls reach its slot. -/
theorem templateOf_filledUp : templateOf (filledUp definition count) = templateOf definition
    ↔ ¬ (definition.length ≤ Kind.templateAt ∧ Kind.templateAt < definition.length + count) := by
  simp only [templateOf, List.getD_eq_getElem?_getD]
  obtain ⟨hapart, hsame⟩ | ⟨hreached, hnull, hnone⟩ :=
    getElem?_filledUp definition count Kind.templateAt
  · simp only [hsame, hapart, not_false_iff]
  · simp only [hnull, hnone, hreached, and_self, not_true, iff_false]
    rintro ⟨⟩

end FilledUp

/-! ## Outcomes up to nulls -/

/-- Two trees are equal up to nulls at the end of the definition at a path. -/
def EqualUpToNulls (path : Path) (s t : Data) : Prop :=
  ∃ core m n, s.node? path = some (.list (filledUp core m))
    ∧ s.replace? path (.list (filledUp core n)) = some t

/-- Two outcomes are the same failure, or two trees that are equal up to nulls at the end of the
definition at a path. -/
def SameOutcome (path : Path) : Except Fault Data → Except Fault Data → Prop
  | .ok s, .ok t => EqualUpToNulls path s t
  | .error e, .error f => e = f
  | _, _ => False

/-- The definition whose slots an action reads and writes.  Removals and the host's own actions have
none. -/
def Action.target? : Action κ → Option Path
  | .editField path _
  | .validateField path _
  | .checkField path _
  | .addContent path
  | .addChildForm path _
  | .editItems _ path _
  | .reorderItems _ path _
  | .validateItems _ path _ => some path
  | .removeField _ | .deleteItem _ _ | .custom _ _ => none

section Outcomes

variable (answers : Answers κ) {s t : Data} {path : Path} {definition : List Data} {count : Nat}

theorem EqualUpToNulls.slotAt_eq (h : EqualUpToNulls path s t) {xs ys : List Data}
    (hxs : s.node? path = some (.list xs)) (hys : t.node? path = some (.list ys)) (slot : Nat) :
    slotAt xs slot = slotAt ys slot := by
  obtain ⟨core, m, n, hs, ht⟩ := h
  obtain rfl : filledUp core m = xs := by simpa [hs] using hxs
  obtain rfl : filledUp core n = ys := by simpa [Data.node?_replace? ht] using hys
  rw [slotAt_filledUp, slotAt_filledUp]

theorem Effect.apply_writes {slot : Nat} {content : Answers κ → List Data → Except Fault Data}
    (hs : s.node? path = some (.list definition)) :
    (Effect.writes path slot content).apply answers s
      = (content answers definition).bind (writeSlot s path definition slot) := by
  simp only [Effect.apply, definitionAt_eq_ok.2 hs]
  rfl

/-- Writing a slot of a definition that is there succeeds. -/
theorem exists_writeSlot (hs : s.node? path = some (.list definition)) (slot : Nat) (value : Data) :
    ∃ s', writeSlot s path definition slot value = .ok s'
      ∧ s.replace? path (.list (putSlot definition slot value)) = some s' := by
  obtain ⟨s', hreplace⟩ := Data.exists_replace? hs (.list (putSlot definition slot value))
  exact ⟨s', writeSlot_eq_ok.2 hreplace, hreplace⟩

/-- Two writes of one value leave trees that are equal up to nulls. -/
theorem sameOutcome_writeSlot (hs : s.node? path = some (.list definition))
    (ht : s.replace? path (.list (filledUp definition count)) = some t) (slot : Nat)
    (value : Data) : SameOutcome path (writeSlot s path definition slot value)
      (writeSlot t path (filledUp definition count) slot value) := by
  obtain ⟨s', hwrite, hs'⟩ := exists_writeSlot hs slot value
  obtain ⟨t', hwrite', ht'⟩ := exists_writeSlot (Data.node?_replace? ht) slot value
  rw [hwrite, hwrite']
  refine ⟨putSlot definition slot value, 0, count - (slot + 1 - definition.length), ?_, ?_⟩
  · rw [filledUp_zero]
    exact Data.node?_replace? hs'
  · rw [Data.replace?_replace? hs', ← putSlot_filledUp, ← Data.replace?_replace? ht]
    exact ht'

/-- An action whose content does not depend on the nulls has the same outcome. -/
theorem sameOutcome_writes {slot : Nat} {content : Answers κ → List Data → Except Fault Data}
    (hs : s.node? path = some (.list definition))
    (ht : s.replace? path (.list (filledUp definition count)) = some t)
    (hcontent : content answers (filledUp definition count) = content answers definition) :
    SameOutcome path ((Effect.writes path slot content).apply answers s)
      ((Effect.writes path slot content).apply answers t) := by
  rw [Effect.apply_writes answers hs, Effect.apply_writes answers (Data.node?_replace? ht), hcontent]
  cases content answers definition with
  | error e => rfl
  | ok value => exact sameOutcome_writeSlot hs ht slot value

/-- The outcome of an action that keeps the state is the same. -/
theorem sameOutcome_keeps (hs : s.node? path = some (.list definition))
    (ht : s.replace? path (.list (filledUp definition count)) = some t) :
    SameOutcome path (Effect.keeps.apply answers s) (Effect.keeps.apply answers t) :=
  ⟨definition, 0, count, by rw [filledUp_zero, hs], ht⟩

theorem appended_inj {content item other : Data} :
    appended content item = appended content other ↔ item = other := by
  simp [appended]

/-- Appending the template to a container that is there. -/
theorem apply_addContent (hs : s.node? path = some (.list definition)) :
    ∃ s', Action.apply answers s (.addContent path) = .ok s'
      ∧ s'.node? path = some (.list (putSlot definition Container.many.itemsAt
        (appended (slotAt definition Container.many.itemsAt) (templateOf definition)))) := by
  obtain ⟨s', hwrite, hreplace⟩ := exists_writeSlot hs Container.many.itemsAt
    (appended (slotAt definition Container.many.itemsAt) (templateOf definition))
  refine ⟨s', ?_, Data.node?_replace? hreplace⟩
  rw [Action.apply_eq, Action.effect, Effect.apply_writes answers hs]
  exact hwrite

/-- Appending the template has the same outcome exactly if the template reads the same. -/
theorem sameOutcome_addContent (hs : s.node? path = some (.list definition))
    (ht : s.replace? path (.list (filledUp definition count)) = some t) :
    SameOutcome path (Action.apply answers s (.addContent path))
        (Action.apply answers t (.addContent path))
      ↔ templateOf (filledUp definition count) = templateOf definition := by
  constructor
  · intro hsame
    obtain ⟨s', hs', hnode⟩ := apply_addContent answers hs
    obtain ⟨t', ht', hnode'⟩ := apply_addContent answers (Data.node?_replace? ht)
    rw [hs', ht'] at hsame
    have hitems := EqualUpToNulls.slotAt_eq hsame hnode hnode' Container.many.itemsAt
    rw [slotAt_putSlot_self, slotAt_putSlot_self, slotAt_filledUp, appended_inj] at hitems
    exact hitems.symm
  · intro htemplate
    rw [Action.apply_eq, Action.apply_eq]
    refine sameOutcome_writes answers hs ht ?_
    rw [slotAt_filledUp, htemplate]

/-- Any other action has the same outcome. -/
theorem sameOutcome_of_ne {action : Action κ} (hs : s.node? path = some (.list definition))
    (ht : s.replace? path (.list (filledUp definition count)) = some t)
    (htarget : action.target? = some path) (hne : action ≠ .addContent path) :
    SameOutcome path (action.apply answers s) (action.apply answers t) := by
  rw [Action.apply_eq, Action.apply_eq]
  -- what the others write depends on slots by value only, and a null reads as nothing there
  cases action with
  | removeField | deleteItem | custom => cases htarget
  | addContent => exact absurd (by rw [Option.some.inj htarget]) hne
  | editField other update =>
    obtain rfl := Option.some.inj htarget
    exact sameOutcome_writes answers hs ht (by rw [slotAt_filledUp])
  | validateField other errors =>
    obtain rfl := Option.some.inj htarget
    cases errors with
    | none => exact sameOutcome_keeps answers hs ht
    | some errors => exact sameOutcome_writes answers hs ht rfl
  | checkField other validator =>
    obtain rfl := Option.some.inj htarget
    exact sameOutcome_writes answers hs ht (by rw [slotAt_filledUp])
  | addChildForm other form =>
    obtain rfl := Option.some.inj htarget
    exact sameOutcome_writes answers hs ht (by rw [slotAt_filledUp])
  | editItems container other update =>
    obtain rfl := Option.some.inj htarget
    exact sameOutcome_writes answers hs ht (by rw [slotAt_filledUp])
  | reorderItems container other order =>
    obtain rfl := Option.some.inj htarget
    exact sameOutcome_writes answers hs ht (by rw [slotAt_filledUp])
  | validateItems container other validator =>
    obtain rfl := Option.some.inj htarget
    cases validator with
    | none => exact sameOutcome_keeps answers hs ht
    | some validator => exact sameOutcome_writes answers hs ht (by rw [itemsJson_filledUp])

/-! ## Adding several times -/

/-- A container that has its template slot gets the content of that slot every time. -/
theorem apply_addContents (hs : s.node? path = some (.list definition))
    (hslot : Kind.templateAt < definition.length) (k : Nat) :
    ∃ s' next, Batch.apply answers s (List.replicate k (.addContent path)) = .ok s'
      ∧ s'.node? path = some (.list next)
      ∧ (slotAt next Container.many.itemsAt).items
        = (slotAt definition Container.many.itemsAt).items
          ++ List.replicate k (slotAt definition Kind.templateAt) := by
  induction k generalizing s definition with
  | zero => exact ⟨s, definition, rfl, hs, by simp⟩
  | succ k ih =>
    obtain ⟨s₁, hfirst, hs₁⟩ := apply_addContent answers hs
    obtain ⟨s', next, hrest, hnext, hitems⟩ := ih hs₁ (by rw [length_putSlot]; omega)
    have htemplate : templateOf definition = slotAt definition Kind.templateAt := by
      simp [templateOf, slotAt, hslot]
    refine ⟨s', next, ?_, hnext, ?_⟩
    · rw [List.replicate_succ, Batch.apply, List.foldlM_cons, hfirst]
      exact hrest
    · rw [hitems, slotAt_putSlot_self, slotAt_putSlot_ne (by decide), htemplate, appended,
        Data.items_list, List.append_assoc, List.replicate_succ, List.singleton_append]

/-- What `k` additions to a container append. -/
def additions (definition : List Data) : Nat → List Data
  | 0 => []
  | k + 1 => templateOf definition :: List.replicate k (slotAt definition Kind.templateAt)

@[simp] theorem length_additions (definition : List Data) (k : Nat) :
    (additions definition k).length = k := by
  cases k <;> simp [additions]

theorem apply_additions (hs : s.node? path = some (.list definition)) (k : Nat) :
    ∃ s' next, Batch.apply answers s (List.replicate k (.addContent path)) = .ok s'
      ∧ s'.node? path = some (.list next)
      ∧ (slotAt next Container.many.itemsAt).items
        = (slotAt definition Container.many.itemsAt).items ++ additions definition k := by
  cases k with
  | zero => exact ⟨s, definition, rfl, hs, by simp [additions]⟩
  | succ k =>
    -- the first addition fills the definition up as far as the items
    obtain ⟨s₁, hfirst, hs₁⟩ := apply_addContent answers hs
    have hslot : Kind.templateAt < (putSlot definition Container.many.itemsAt
        (appended (slotAt definition Container.many.itemsAt) (templateOf definition))).length := by
      rw [length_putSlot]
      exact Nat.lt_of_lt_of_le (by decide) (Nat.le_max_right ..)
    obtain ⟨s', next, hrest, hnext, hitems⟩ := apply_addContents answers hs₁ hslot k
    refine ⟨s', next, ?_, hnext, ?_⟩
    · rw [List.replicate_succ, Batch.apply, List.foldlM_cons, hfirst]
      exact hrest
    · rw [hitems, slotAt_putSlot_self, slotAt_putSlot_ne (by decide), appended, Data.items_list,
        List.append_assoc, List.singleton_append, additions]

/-- The appended items are equal exactly if the definition has its template slot, or there are not
two of them. -/
theorem additions_equal_iff (definition : List Data) (k : Nat) :
    (∀ item ∈ additions definition k, ∀ other ∈ additions definition k, item = other)
      ↔ Kind.templateAt < definition.length ∨ k ≤ 1 := by
  cases k with
  | zero => simp [additions]
  | succ k =>
    rcases Nat.lt_or_ge Kind.templateAt definition.length with hslot | hshort
    · have htemplate : templateOf definition = slotAt definition Kind.templateAt := by
        simp [templateOf, slotAt, hslot]
      have hall : ∀ item ∈ additions definition (k + 1),
          item = slotAt definition Kind.templateAt := by
        intro item hitem
        rw [additions, htemplate, ← List.replicate_succ] at hitem
        exact List.eq_of_mem_replicate hitem
      simp only [hslot, true_or, iff_true]
      intro item hitem other hother
      rw [hall item hitem, hall other hother]
    · have hfirst : templateOf definition = .list [] := by
        simp [templateOf, List.getElem?_eq_none hshort]
      have hlater : slotAt definition Kind.templateAt = .null := by
        simp [slotAt, List.getElem?_eq_none hshort]
      rw [additions, hfirst, hlater]
      cases k with
      | zero => simp
      | succ k =>
        have hdiffer : ¬ ∀ item ∈ Data.list [] :: List.replicate (k + 1) Data.null,
            ∀ other ∈ Data.list [] :: List.replicate (k + 1) Data.null, item = other := by
          intro hequal
          cases hequal (.list []) (by simp) .null (by simp)
        simp only [hdiffer, false_iff]
        omega

end Outcomes

/-- Nulls at the end of a definition are seen by the action that appends the container's template,
if they reach the template slot, and by no other action on the definition.  Any number of additions
to a container succeed and append as many items, which are equal exactly if the container has its
template slot or there are not two of them. -/
theorem nulls_observed_iff (answers : Answers κ) {s : Data} {path : Path} {definition : List Data}
    (hs : s.node? path = some (.list definition)) :
    (∀ count, ∃ t, s.replace? path (.list (filledUp definition count)) = some t
      ∧ ∀ action : Action κ, action.target? = some path →
        (SameOutcome path (action.apply answers s) (action.apply answers t)
          ↔ ¬ (action = .addContent path ∧ definition.length ≤ Kind.templateAt
            ∧ Kind.templateAt < definition.length + count)))
    ∧ ∀ k, ∃ s' next added, Batch.apply answers s (List.replicate k (.addContent path)) = .ok s'
      ∧ s'.node? path = some (.list next)
      ∧ (slotAt next Container.many.itemsAt).items
        = (slotAt definition Container.many.itemsAt).items ++ added
      ∧ added.length = k
      ∧ ((∀ item ∈ added, ∀ other ∈ added, item = other)
        ↔ Kind.templateAt < definition.length ∨ k ≤ 1) := by
  refine ⟨fun count => ?_, fun k => ?_⟩
  · obtain ⟨t, ht⟩ := Data.exists_replace? hs (.list (filledUp definition count))
    refine ⟨t, ht, fun action htarget => ?_⟩
    by_cases hadd : action = .addContent path
    · subst hadd
      rw [sameOutcome_addContent answers hs ht, templateOf_filledUp]
      simp
    · simp only [hadd, false_and, not_false_iff, iff_true]
      exact sameOutcome_of_ne answers hs ht htarget hadd
  · obtain ⟨s', next, happly, hnext, hitems⟩ := apply_additions answers hs k
    exact ⟨s', next, additions definition k, happly, hnext, hitems, length_additions ..,
      additions_equal_iff ..⟩

/-! ## A container without template -/

namespace Untemplated

/-- A container with a name and a handler, and no more slots. -/
def state : Data := .list [.list [.string "many", .list [.string "items", .string "default"]]]

/-- The definition of the container. -/
def path : Path := [0, 1]

/-- Host code that leaves everything as it is. -/
def answers : Answers Nat := ⟨fun _ previous => previous, fun _ _ => []⟩

end Untemplated

open Untemplated in
theorem nulls_observed_iff_untemplated :
    state.node? path = some (.list [.string "items", .string "default"])
    ∧ (∃ t, state.replace? path (.list (filledUp [.string "items", .string "default"] 3)) = some t
      ∧ SameOutcome path (Action.apply answers state (.editItems .many path (.computed 0)))
        (Action.apply answers t (.editItems .many path (.computed 0)))
      ∧ ¬ SameOutcome path (Action.apply answers state (.addContent path))
        (Action.apply answers t (.addContent path)))
    ∧ ∃ s' next added, Batch.apply answers state (List.replicate 3 (.addContent path)) = .ok s'
      ∧ s'.node? path = some (.list next) ∧ (slotAt next Container.many.itemsAt).items = [] ++ added
      ∧ added.length = 3 ∧ ¬ ∀ item ∈ added, ∀ other ∈ added, item = other := by
  have hs : state.node? path = some (.list [.string "items", .string "default"]) := rfl
  obtain ⟨houtcomes, hadditions⟩ := nulls_observed_iff answers hs
  obtain ⟨t, ht, hsame⟩ := houtcomes 3
  obtain ⟨s', next, added, happly, hnext, hitems, hlength, hequal⟩ := hadditions 3
  refine ⟨hs, ⟨t, ht, ?_, ?_⟩, s', next, added, happly, hnext, hitems, hlength, ?_⟩
  · exact (hsame _ rfl).2 (by simp)
  · exact fun h => (hsame _ rfl).1 h ⟨rfl, by decide, by decide⟩
  · exact fun h => absurd (hequal.1 h) (by decide)

open Untemplated in
/-- Two additions to a container without template append two different items, and the addition to
the container with its missing slots as nulls appends another item than the one without them. -/
theorem unequal_additions :
    (∃ s', Batch.apply answers state [.addContent path, .addContent path] = .ok s'
      ∧ s'.node? (path ++ [Container.many.itemsAt]) = some (.list [.list [], .null]))
    ∧ ∃ t, state.replace? path (.list (filledUp [.string "items", .string "default"] 3)) = some t
      ∧ ¬ SameOutcome path (Action.apply answers state (.addContent path))
        (Action.apply answers t (.addContent path)) := by
  have hs : state.node? path = some (.list [.string "items", .string "default"]) := rfl
  refine ⟨⟨_, rfl, rfl⟩, _, rfl, fun hsame => ?_⟩
  have htemplate := (sameOutcome_addContent answers hs rfl).1 hsame
  cases htemplate

end FormTree
