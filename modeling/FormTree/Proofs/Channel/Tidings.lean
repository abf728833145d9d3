import FormTree.Proofs.Channel.Emissions

/-!
# What the announcements of a queue tell

Two events tell the host of a queue: one that there is something in it, the other that there is
nothing any more (`Aggregate.tells`).  As long as nobody but the form itself emits them (`Genuine`),
what they tell changes each time, from what was in the queue before the emissions to what is in it
behind them (`Reacts.alternates`).

Things that change each time are told by their number alone, and by their balance whatever their
order.
-/

namespace FormTree

variable {κ : Type} {a : Aggregate} {e : Emission} {L M : List Emission} {event : Event}
  {b : Channels κ}

/-! ## Telling whether a queue is empty -/

namespace Aggregate

/-- The event that tells that there is something in the queue, or that there is nothing. -/
def tells (a : Aggregate) (filled : Bool) : Event :=
  .external (if filled then a.onFirst else a.onEmpty)

/-- What an event tells of the queue: whether there is something in it. -/
def told? (a : Aggregate) (event : Event) : Option Bool :=
  [true, false].find? fun filled => event = a.tells filled

theorem told?_tells (a : Aggregate) (filled : Bool) : a.told? (a.tells filled) = some filled := by
  cases a <;> cases filled <;> rfl

theorem told?_eq_some {filled : Bool} : a.told? event = some filled ↔ event = a.tells filled := by
  constructor
  · exact fun h => of_decide_eq_true (List.find?_some (p := fun filled => event = a.tells filled) h)
  · rintro rfl
    exact told?_tells a filled

/-- Whether something is held in the queue after emissions. -/
def filledAfter (a : Aggregate) (history : List Emission) : Bool := held a history ≠ ∅

theorem filledAfter_eq_true : a.filledAfter L = true ↔ held a L ≠ ∅ := decide_eq_true_iff

theorem filledAfter_eq_false : a.filledAfter L = false ↔ held a L = ∅ := by
  rw [filledAfter, decide_eq_false_iff_not, not_not]

end Aggregate

/-- Whether there is something in a queue. -/
def Channels.filled (b : Channels κ) (a : Aggregate) : Bool := !(b.queue a).members.isEmpty

theorem Holds.filled_eq (h : Holds L b.queue) (a : Aggregate) : b.filled a = a.filledAfter L := by
  rw [Bool.eq_iff_iff, Aggregate.filledAfter_eq_true, ne_eq, ← h.eq_nil_iff]
  simp [Channels.filled]

/-! ## Any contents of the queues -/

/-- The signals that put the given ids into a queue. -/
def entering (a : Aggregate) (ids : List String) : List Emission :=
  ids.map fun id => ⟨.internal a.enterSignal, .component id, false⟩

theorem signals_append : signals a (L ++ M) = signals a L ++ signals a M := List.filterMap_append

theorem signals_entering (a : Aggregate) (ids : List String) :
    signals a (entering a ids) = ids.map (·, true) := by
  rw [signals, entering, List.filterMap_map]
  refine (List.filterMap_congr fun id _ => ?_).trans (congrFun List.filterMap_eq_map ids)
  exact Emission.signal?_of_enters (Connection.of?_enterSignal a) rfl

theorem signals_entering_ne {other : Aggregate} (hne : other ≠ a) (ids : List String) :
    signals other (entering a ids) = [] := by
  refine List.filterMap_eq_nil_iff.2 fun e he => ?_
  obtain ⟨id, -, rfl⟩ := List.mem_map.1 he
  exact Emission.signal?_of_ne (Emission.signal?_of_enters (Connection.of?_enterSignal a) rfl) hne

/-- Whatever the queues hold can be held because of signals. -/
theorem exists_holds (q : Aggregate → IdQueue) : ∃ L, Holds L q := by
  refine ⟨entering .busy (q .busy).members ++ entering .invalid (q .invalid).members,
    fun a id => ?_⟩
  have hsignals : signals a (entering .busy (q .busy).members
      ++ entering .invalid (q .invalid).members) = (q a).members.map (·, true) := by
    cases a <;> simp [signals_append, signals_entering, signals_entering_ne]
  rw [mem_held, hsignals, IdQueue.mem_def, ← List.mem_reverse, ← List.map_reverse]
  induction (q a).members.reverse with
  | nil => simp
  | cons first rest ih =>
    rw [List.map_cons, List.lookup_cons, List.mem_cons]
    by_cases hid : id = first
    · simp [hid]
    · simp [hid, beq_eq_false_iff_ne.2 hid, ih]

/-! ## Tidings -/

/-- What the emitted events tell of a queue. -/
def tidings (a : Aggregate) (history : List Emission) : List Bool :=
  history.filterMap (a.told? ·.event)

/-- Nobody but the form itself tells of the queue. -/
def Genuine (a : Aggregate) (history : List Emission) : Prop :=
  ∀ e ∈ history, ∀ filled, e.event = a.tells filled → e.wired = true

instance (a : Aggregate) (history : List Emission) : Decidable (Genuine a history) :=
  inferInstanceAs (Decidable (∀ e ∈ history, ∀ _, _ → _))

theorem tidings_cons :
    tidings a (e :: L) = (a.told? e.event).toList ++ tidings a L := by
  cases h : a.told? e.event <;> simp [tidings, h]

theorem starts_tells_iff {filled : Bool} : Starts L e (a.tells filled)
    ↔ a.filledAfter L = (!filled) ∧ a.filledAfter (L ++ [e]) = filled := by
  cases filled
  · rw [Aggregate.tells, if_neg Bool.false_ne_true, starts_onEmpty_iff, Bool.not_false,
      Aggregate.filledAfter_eq_true, Aggregate.filledAfter_eq_false]
  · rw [Aggregate.tells, if_pos rfl, starts_onFirst_iff, Bool.not_true,
      Aggregate.filledAfter_eq_true, Aggregate.filledAfter_eq_false]

/-- Directly behind an emission it is told of a queue what is in it, if this has changed. -/
theorem Reacts.told_head (h : Reacts L (e :: M)) (hgenuine : Genuine a M) :
    (M.head?.bind fun next => a.told? next.event)
      = if a.filledAfter (L ++ [e]) = a.filledAfter L then none
        else some (a.filledAfter (L ++ [e])) := by
  have hstarts : ∀ filled, (M.head?.bind fun next => a.told? next.event) = some filled
      ↔ Starts L e (a.tells filled) := by
    intro filled
    rw [Option.bind_eq_some_iff]
    constructor
    · rintro ⟨next, hnext, htold⟩
      have hevent := Aggregate.told?_eq_some.1 htold
      have hwired := hgenuine next (List.mem_of_mem_head? hnext) filled hevent
      refine ((h.1 _ next.payload).1 ?_).2
      rw [hnext, ← hevent, ← hwired]
    · intro hstarts
      exact ⟨_, (h.1 _ _).2 ⟨rfl, hstarts⟩, Aggregate.told?_tells a filled⟩
  refine Option.ext fun filled => (hstarts filled).trans ?_
  rw [starts_tells_iff]
  cases a.filledAfter L <;> cases a.filledAfter (L ++ [e]) <;> cases filled <;> simp

/-! ## Changes -/

namespace Alternates

variable {x y z : Bool} {first second : List Bool}

/-- A change is told of, if there is one. -/
theorem turn (h : Alternates y first z) :
    Alternates x ((if y = x then none else some y).toList ++ first) z := by
  cases x <;> cases y <;> first | exact h | exact .cons h

/-- What is told as often is told alike. -/
theorem eq_of_length_eq (h₁ : Alternates x first y) (h₂ : Alternates x second z)
    (hlength : first.length = second.length) : first = second := by
  induction h₁ generalizing second z with
  | nil => exact (List.eq_nil_of_length_eq_zero hlength.symm).symm
  | cons _ ih =>
    cases h₂ with
    | nil => cases hlength
    | cons h₂ => exact congrArg _ (ih h₂ (Nat.succ.inj hlength))

/-- How often each of the two was told says which of them is the case. -/
theorem balance (h : Alternates x first y) :
    first.count true + x.toNat = first.count false + y.toNat := by
  induction h with
  | nil => rfl
  | @cons x _ rest _ ih =>
    cases x <;> simp at ih ⊢ <;> omega

end Alternates

/-- Behind the first emission, every change of whether a queue is empty is told, and nothing else. -/
theorem Reacts.alternates_tail (h : Reacts L (e :: M)) (hgenuine : Genuine a M) :
    Alternates (a.filledAfter L) (tidings a M) (a.filledAfter (L ++ e :: M)) := by
  induction M generalizing L e with
  | nil =>
    have hlast := (Alternates.nil (a.filledAfter (L ++ [e]))).turn (x := a.filledAfter L)
    rwa [← h.told_head hgenuine] at hlast
  | cons next rest ih =>
    have hrest := ih h.2 fun e he => hgenuine e (.tail _ he)
    rw [List.append_assoc, List.singleton_append] at hrest
    rw [tidings_cons]
    have hturn := hrest.turn (x := a.filledAfter L)
    rwa [← h.told_head hgenuine] at hturn

/-- Every change of whether a queue is empty is told, and nothing else. -/
theorem Reacts.alternates (h : Reacts L M) (hhead : Unprompted M) (hgenuine : Genuine a M) :
    Alternates (a.filledAfter L) (tidings a M) (a.filledAfter (L ++ M)) := by
  cases M with
  | nil =>
    rw [List.append_nil]
    exact .nil _
  | cons e rest =>
    have hnone : a.told? e.event = none := by
      refine Option.eq_none_iff_forall_not_mem.2 fun filled htold => ?_
      have hwired := hgenuine e (.head _) filled (Aggregate.told?_eq_some.1 htold)
      cases (hhead e rfl).symm.trans hwired
    rw [tidings_cons, hnone]
    exact h.alternates_tail fun e he => hgenuine e (.tail _ he)

end FormTree
