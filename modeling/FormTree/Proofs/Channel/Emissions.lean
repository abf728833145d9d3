import FormTree.Proofs.Channel.Wired
import Mathlib.Data.Finset.Card

/-!
# Emissions and what follows from them

The events emitted on a form, in the order in which their emission begins, say everything about the
two queues: an id is held if the last signal about it was the one that enters (`held`).  They also
say which events the form emits by itself, and when (`Starts`): an announcement exactly at the
signals that end a queue's being empty or that empty it, and the relayed events.

`Reacts` says of a stretch of emissions that those of the form itself are exactly the ones that have
to be, each directly behind the emission that starts it.  Two such stretches make one
(`Reacts.append`), and the announcements of a queue come in turn (`Reacts.inTurn`).
-/

namespace FormTree

/-- An event emitted on a form. -/
structure Emission where
  event : Event
  payload : Payload
  /-- Whether the form emitted it by itself, through a connection. -/
  wired : Bool

/-! ## What is to follow from emissions -/

/-- What an emission says about a queue: an id, and whether it enters. -/
def Emission.signal? (a : Aggregate) (e : Emission) : Option (String × Bool) :=
  e.payload.id?.bind fun id =>
    if e.event = .internal a.enterSignal then some (id, true)
    else if e.event = .internal a.leaveSignal then some (id, false)
    else none

/-- The signals for a queue, in their order. -/
def signals (a : Aggregate) (history : List Emission) : List (String × Bool) :=
  history.filterMap (·.signal? a)

/-- The ids whose latest signal was the one that enters. -/
def held (a : Aggregate) (history : List Emission) : Finset String :=
  ((signals a history).map Prod.fst).toFinset.filter fun id =>
    (signals a history).reverse.lookup id = some true

/-- The events that are passed on, with the events that they are passed on as. -/
def relayed : List (Event × Event) :=
  [(.internal .fieldChange, .external .fieldChange),
   (.internal .fieldRemoved, .external .fieldRemoved),
   (.internal .formInitialised, .external .formInitialised),
   (.internal .formRemoved, .external .formRemoved),
   (.external .fieldEdit, .internal .fieldEdit),
   (.external .fieldDelete, .internal .fieldDelete)]

/-- The event that the form has to emit by itself at an emission, after earlier ones. -/
inductive Starts (earlier : List Emission) (e : Emission) : Event → Prop
  | first (a : Aggregate) (hbefore : held a earlier = ∅) (hafter : held a (earlier ++ [e]) ≠ ∅) :
    Starts earlier e (.external a.onFirst)
  | empty (a : Aggregate) (hbefore : held a earlier ≠ ∅) (hafter : held a (earlier ++ [e]) = ∅) :
    Starts earlier e (.external a.onEmpty)
  | relay {target : Event} (h : (e.event, target) ∈ relayed) : Starts earlier e target

/-- What the form announced by itself about a queue. -/
def announcements (a : Aggregate) (history : List Emission) : List Event :=
  ((history.filter (·.wired)).map Emission.event).filter fun event =>
    event = .external a.onFirst ∨ event = .external a.onEmpty

/-- The two things come in turn, beginning with the first. -/
inductive InTurn {α : Type} : α → α → List α → Prop
  | nil (first second : α) : InTurn first second []
  | cons {first second : α} {rest : List α} (h : InTurn second first rest) :
    InTurn first second (first :: rest)

variable {a other : Aggregate} {e : Emission} {L M N : List Emission} {id name : String}
  {event target : Event} {payload : Payload} {q : Aggregate → IdQueue}

/-! ## Signals and connections -/

namespace Connection

theorem eq_of_enters (h : of? event = some (.enters a)) : event = .internal a.enterSignal := by
  revert h
  rcases event with event | event <;> cases event <;> cases a <;> decide

theorem eq_of_leaves (h : of? event = some (.leaves a)) : event = .internal a.leaveSignal := by
  revert h
  rcases event with event | event <;> cases event <;> cases a <;> decide

theorem of?_eq_some_iff {connection : Connection} :
    of? event = some connection ↔ (event, connection) ∈ all := by
  rw [← Option.mem_toList, ← filter_all]
  simp

theorem of?_eq_relays_iff : of? event = some (.relays target) ↔ (event, target) ∈ relayed := by
  rw [of?_eq_some_iff]
  simp [all, relayed]

end Connection

namespace Emission

/-- A signal belongs to a connection of the queue. -/
theorem of?_of_signal {enter : Bool} (h : e.signal? a = some (id, enter)) :
    Connection.of? e.event = some (if enter then .enters a else .leaves a) := by
  obtain ⟨_, _, h⟩ := Option.bind_eq_some_iff.1 h
  split at h
  · next hevent =>
    cases h
    rw [hevent]
    exact Connection.of?_enterSignal a
  · split at h
    · next hevent =>
      cases h
      rw [hevent]
      exact Connection.of?_leaveSignal a
    · cases h

theorem signal?_of_enters (h : Connection.of? e.event = some (.enters a))
    (hid : e.payload.id? = some id) : e.signal? a = some (id, true) := by
  rw [signal?, hid, Option.bind_some, if_pos (Connection.eq_of_enters h)]

theorem signal?_of_leaves (h : Connection.of? e.event = some (.leaves a))
    (hid : e.payload.id? = some id) : e.signal? a = some (id, false) := by
  have hevent := Connection.eq_of_leaves h
  have hne : e.event ≠ .internal a.enterSignal := by
    rw [hevent]
    cases a <;> decide
  rw [signal?, hid, Option.bind_some, if_neg hne, if_pos hevent]

theorem signal?_of_no_id (hid : e.payload.id? = none) (a : Aggregate) : e.signal? a = none := by
  rw [signal?, hid, Option.bind_none]

/-- An emission without connection, or that is passed on, is no signal. -/
theorem signal?_of_not (henters : ∀ a, Connection.of? e.event ≠ some (.enters a))
    (hleaves : ∀ a, Connection.of? e.event ≠ some (.leaves a)) (a : Aggregate) :
    e.signal? a = none := by
  refine Option.eq_none_iff_forall_not_mem.2 ?_
  rintro ⟨id, enter⟩ h
  have hof := of?_of_signal h
  cases enter with
  | true => exact henters a hof
  | false => exact hleaves a hof

/-- A signal for one queue is none for the other. -/
theorem signal?_of_ne {s : String × Bool} (h : e.signal? a = some s) (hne : other ≠ a) :
    e.signal? other = none := by
  refine Option.eq_none_iff_forall_not_mem.2 ?_
  rintro ⟨id, enter⟩ hother
  refine hne ?_
  have hof := (of?_of_signal hother).symm.trans (of?_of_signal h)
  split at hof <;> split at hof <;> simp_all

end Emission

/-! ## What is held -/

theorem mem_held : id ∈ held a L ↔ (signals a L).reverse.lookup id = some true := by
  rw [held, Finset.mem_filter, List.mem_toFinset, and_iff_right_of_imp]
  intro h
  obtain ⟨before, after, hsplit, -⟩ := List.lookup_eq_some_iff.1 h
  have hmem : (id, true) ∈ (signals a L).reverse := by simp [hsplit]
  exact List.mem_map_of_mem (f := Prod.fst) (List.mem_reverse.1 hmem)

theorem held_concat_of_none (h : e.signal? a = none) : held a (L ++ [e]) = held a L := by
  have hsignals : signals a (L ++ [e]) = signals a L := by simp [signals, h]
  simp only [held, hsignals]

/-- The last signal about an id decides. -/
theorem mem_held_concat {enter : Bool} (h : e.signal? a = some (id, enter)) :
    name ∈ held a (L ++ [e]) ↔ if name = id then enter = true else name ∈ held a L := by
  have hsignals : signals a (L ++ [e]) = signals a L ++ [(id, enter)] := by simp [signals, h]
  rw [mem_held, mem_held, hsignals, List.reverse_concat, List.lookup_cons]
  by_cases hid : name = id
  · simp [hid]
  · simp [hid, beq_eq_false_iff_ne.2 hid]

/-- Only a queue's own signals start an announcement about it. -/
theorem starts_iff_of_silent (h : ∀ a, e.signal? a = none) :
    Starts L e target ↔ (e.event, target) ∈ relayed := by
  refine ⟨fun hstarts => ?_, .relay⟩
  cases hstarts with
  | first a hbefore hafter => exact absurd ((held_concat_of_none (h a)).trans hbefore) hafter
  | empty a hbefore hafter => exact absurd ((held_concat_of_none (h a)).symm.trans hafter) hbefore
  | relay hrelay => exact hrelay

theorem starts_iff_of_signal {enter : Bool} (h : e.signal? a = some (id, enter)) :
    Starts L e target ↔ held a L = ∅ ∧ held a (L ++ [e]) ≠ ∅ ∧ target = .external a.onFirst
      ∨ held a L ≠ ∅ ∧ held a (L ++ [e]) = ∅ ∧ target = .external a.onEmpty := by
  constructor
  · intro hstarts
    cases hstarts with
    | first other hbefore hafter =>
      by_cases hne : other = a
      · exact .inl (hne ▸ ⟨hbefore, hafter, rfl⟩)
      · have hsame := held_concat_of_none (L := L) (Emission.signal?_of_ne h hne)
        exact absurd (hsame.trans hbefore) hafter
    | empty other hbefore hafter =>
      by_cases hne : other = a
      · exact .inr (hne ▸ ⟨hbefore, hafter, rfl⟩)
      · have hsame := held_concat_of_none (L := L) (Emission.signal?_of_ne h hne)
        exact absurd (hsame.symm.trans hafter) hbefore
    | relay hrelay =>
      have hof := (Connection.of?_eq_relays_iff.2 hrelay).symm.trans (Emission.of?_of_signal h)
      split at hof <;> cases hof
  · rintro (⟨hbefore, hafter, rfl⟩ | ⟨hbefore, hafter, rfl⟩)
    · exact .first a hbefore hafter
    · exact .empty a hbefore hafter

/-! ## What the queues hold -/

namespace IdQueue

/-- An insertion reports that the queue was empty and is not. -/
theorem insert_fst_iff {q : IdQueue} :
    (q.insert id).1 = true ↔ q.members = [] ∧ (q.insert id).2.members ≠ [] := by
  rw [insert_fst, iff_self_and]
  exact fun _ => List.ne_nil_of_mem (mem_insert.2 (.inl rfl))

/-- A removal reports that the queue was not empty and is. -/
theorem erase_fst_iff {q : IdQueue} :
    (q.erase id).1 = true ↔ q.members ≠ [] ∧ (q.erase id).2.members = [] := by
  rw [erase_fst]
  refine and_congr_left fun hnil => ⟨List.ne_nil_of_mem, fun hne => ?_⟩
  obtain ⟨name, hname⟩ := List.exists_mem_of_ne_nil _ hne
  by_contra hid
  have hleft : name ∈ (q.erase id).2 := mem_erase.2 ⟨fun heq => hid (heq ▸ hname), hname⟩
  rw [mem_def, hnil] at hleft
  exact List.not_mem_nil hleft

end IdQueue

/-- The queues hold what the emissions so far say. -/
def Holds (L : List Emission) (q : Aggregate → IdQueue) : Prop := ∀ a id, id ∈ q a ↔ id ∈ held a L

namespace Holds

theorem nil : Holds [] fun _ => .empty := by
  intro a id
  simp [held, signals]

theorem eq_nil_iff (h : Holds L q) : (q a).members = [] ↔ held a L = ∅ := by
  rw [List.eq_nil_iff_forall_not_mem, Finset.eq_empty_iff_forall_notMem]
  exact forall_congr' fun id => not_congr (h a id)

/-- The size of a queue is the number of ids that are held. -/
theorem size_eq (h : Holds L q) : (q a).size = (held a L).card := by
  rw [IdQueue.size, ← List.toFinset_card_of_nodup (q a).nodup]
  exact congrArg _ (Finset.ext fun id => List.mem_toFinset.trans (h a id))

theorem silent (h : Holds L q) (hsilent : ∀ a, e.signal? a = none) : Holds (L ++ [e]) q := by
  intro a id
  rw [held_concat_of_none (hsilent a)]
  exact h a id

/-- A queue changes with its signals, and only with them. -/
theorem update {changed : IdQueue} {enter : Bool} (h : Holds L q)
    (hsignal : e.signal? a = some (id, enter))
    (hchanged : ∀ name, name ∈ changed ↔ if name = id then enter = true else name ∈ q a) :
    Holds (L ++ [e]) (Function.update q a changed) := by
  intro other name
  by_cases hne : other = a
  · subst hne
    rw [Function.update_self, hchanged, mem_held_concat hsignal, h]
  · rw [Function.update_of_ne hne, held_concat_of_none (Emission.signal?_of_ne hsignal hne), h]

theorem insert (h : Holds L q) (hsignal : e.signal? a = some (id, true)) :
    Holds (L ++ [e]) (Function.update q a ((q a).insert id).2) := by
  refine h.update hsignal fun name => ?_
  rw [IdQueue.mem_insert]
  split <;> simp_all

theorem erase (h : Holds L q) (hsignal : e.signal? a = some (id, false)) :
    Holds (L ++ [e]) (Function.update q a ((q a).erase id).2) := by
  refine h.update hsignal fun name => ?_
  rw [IdQueue.mem_erase]
  split <;> simp_all

/-- The form announces the insertions that end the queue's being empty. -/
theorem starts_insert (h : Holds L q) (hsignal : e.signal? a = some (id, true)) :
    Starts L e target ↔ ((q a).insert id).1 = true ∧ target = .external a.onFirst := by
  have hafter := (h.insert hsignal).eq_nil_iff (a := a)
  rw [Function.update_self] at hafter
  simp only [starts_iff_of_signal hsignal, IdQueue.insert_fst_iff, h.eq_nil_iff, ne_eq, hafter,
    and_assoc]
  refine or_iff_left ?_
  rintro ⟨-, hempty, -⟩
  have hid : id ∈ held a (L ++ [e]) := by rw [mem_held_concat hsignal, if_pos rfl]
  rw [hempty] at hid
  exact Finset.notMem_empty id hid

/-- The form announces the removals that empty the queue. -/
theorem starts_erase (h : Holds L q) (hsignal : e.signal? a = some (id, false)) :
    Starts L e target ↔ ((q a).erase id).1 = true ∧ target = .external a.onEmpty := by
  have hafter := (h.erase hsignal).eq_nil_iff (a := a)
  rw [Function.update_self] at hafter
  simp only [starts_iff_of_signal hsignal, IdQueue.erase_fst_iff, h.eq_nil_iff, ne_eq, hafter,
    and_assoc]
  refine or_iff_right ?_
  rintro ⟨hempty, hne, -⟩
  apply hne
  refine Finset.eq_empty_iff_forall_notMem.2 fun name hname => ?_
  rw [mem_held_concat hsignal, hempty] at hname
  split at hname <;> simp_all

end Holds

/-! ## What follows -/

/-- After earlier emissions, the form emits by itself what it has to, directly behind the emission
that starts it, and nothing else. -/
def Reacts : List Emission → List Emission → Prop
  | _, [] => True
  | earlier, e :: later =>
    (∀ target payload, later.head? = some ⟨target, payload, true⟩
      ↔ payload = e.payload ∧ Starts earlier e target) ∧ Reacts (earlier ++ [e]) later

/-- The first of the emissions, if there is one, is not by the form itself. -/
def Unprompted (M : List Emission) : Prop := ∀ e, M.head? = some e → e.wired = false

theorem Unprompted.append (hM : Unprompted M) (hN : Unprompted N) : Unprompted (M ++ N) := by
  cases M with
  | nil => exact hN
  | cons e rest => exact hM

namespace Reacts

/-- One stretch behind another, which host code begins. -/
theorem append (hM : Reacts L M) (hN : Reacts (L ++ M) N) (hhead : Unprompted N) :
    Reacts L (M ++ N) := by
  induction M generalizing L with
  | nil => rwa [List.append_nil] at hN
  | cons e rest ih =>
    obtain ⟨hfirst, hrest⟩ := hM
    refine ⟨fun target payload => ?_, ih hrest (by rwa [List.append_assoc])⟩
    rw [← hfirst]
    cases rest with
    | cons next rest => rfl
    | nil => exact ⟨fun h => (nomatch hhead _ h), nofun⟩

/-- What stands directly behind an emission within the stretch. -/
theorem head?_iff {before after : List Emission} (h : Reacts L (before ++ e :: after)) :
    after.head? = some ⟨target, payload, true⟩
      ↔ payload = e.payload ∧ Starts (L ++ before) e target := by
  induction before generalizing L with
  | nil =>
    rw [List.append_nil]
    exact h.1 target payload
  | cons first rest ih =>
    rw [ih h.2, List.append_assoc, List.singleton_append]

end Reacts

/-! ## Announcements come in turn -/

theorem starts_onFirst_iff :
    Starts L e (.external a.onFirst) ↔ held a L = ∅ ∧ held a (L ++ [e]) ≠ ∅ := by
  refine ⟨fun h => ?_, fun h => .first a h.1 h.2⟩
  generalize htarget : Event.external a.onFirst = target at h
  cases h with
  | first other hbefore hafter =>
    obtain rfl : a = other := by cases a <;> cases other <;> first | rfl | cases htarget
    exact ⟨hbefore, hafter⟩
  | empty other hbefore hafter => cases a <;> cases other <;> cases htarget
  | relay hrelay =>
    subst htarget
    cases a <;> simp [relayed, Aggregate.onFirst] at hrelay

theorem starts_onEmpty_iff :
    Starts L e (.external a.onEmpty) ↔ held a L ≠ ∅ ∧ held a (L ++ [e]) = ∅ := by
  refine ⟨fun h => ?_, fun h => .empty a h.1 h.2⟩
  generalize htarget : Event.external a.onEmpty = target at h
  cases h with
  | first other hbefore hafter => cases a <;> cases other <;> cases htarget
  | empty other hbefore hafter =>
    obtain rfl : a = other := by cases a <;> cases other <;> first | rfl | cases htarget
    exact ⟨hbefore, hafter⟩
  | relay hrelay =>
    subst htarget
    cases a <;> simp [relayed, Aggregate.onEmpty] at hrelay

/-- The event that announces the next change of a queue between empty and not, and the one after. -/
def turns (a : Aggregate) (history : List Emission) : Event × Event :=
  if held a history = ∅ then (.external a.onFirst, .external a.onEmpty)
  else (.external a.onEmpty, .external a.onFirst)

theorem announcements_cons_of (hwired : e.wired = true)
    (hevent : e.event = .external a.onFirst ∨ e.event = .external a.onEmpty) :
    announcements a (e :: M) = e.event :: announcements a M := by
  simp [announcements, hwired, hevent]

theorem announcements_cons_of_not (h : ¬ (e.wired = true
    ∧ (e.event = .external a.onFirst ∨ e.event = .external a.onEmpty))) :
    announcements a (e :: M) = announcements a M := by
  by_cases hwired : e.wired = true
  · have hevent := not_or.1 fun hevent => h ⟨hwired, hevent⟩
    simp [announcements, hwired, hevent.1, hevent.2]
  · simp [announcements, hwired]

/-- Behind the first emission, the announcements come in turn; what is held before it says which
one is first. -/
theorem Reacts.inTurn_tail (h : Reacts L (e :: M)) :
    InTurn (turns a L).1 (turns a L).2 (announcements a M) := by
  induction M generalizing L e with
  | nil => exact .nil _ _
  | cons next rest ih =>
    have hrest := ih h.2
    have hnext : ∀ target, Starts L e target → next = ⟨target, e.payload, true⟩ := fun target hs =>
      Option.some.inj ((h.1 target e.payload).2 ⟨rfl, hs⟩)
    have hstarts : next.wired = true → Starts L e next.event := fun hwired =>
      ((h.1 next.event next.payload).1 (by simp [← hwired])).2
    -- while the queue stays empty, or stays not empty, nothing is announced about it
    have hquiet : (held a L = ∅ ↔ held a (L ++ [e]) = ∅) →
        announcements a (next :: rest) = announcements a rest := by
      refine fun hsame => announcements_cons_of_not ?_
      rintro ⟨hwired, hevent | hevent⟩
      · obtain ⟨hbefore, hafter⟩ := starts_onFirst_iff.1 (hevent ▸ hstarts hwired)
        exact hafter (hsame.1 hbefore)
      · obtain ⟨hbefore, hafter⟩ := starts_onEmpty_iff.1 (hevent ▸ hstarts hwired)
        exact hbefore (hsame.2 hafter)
    by_cases hbefore : held a L = ∅
    · by_cases hafter : held a (L ++ [e]) = ∅
      · rw [hquiet (by simp only [hbefore, hafter])]
        simpa only [turns, hbefore, hafter, if_true] using hrest
      · obtain rfl := hnext _ (starts_onFirst_iff.2 ⟨hbefore, hafter⟩)
        rw [announcements_cons_of rfl (.inl rfl)]
        simp only [turns, hbefore, hafter, if_true, if_false] at hrest ⊢
        exact .cons hrest
    · by_cases hafter : held a (L ++ [e]) = ∅
      · obtain rfl := hnext _ (starts_onEmpty_iff.2 ⟨hbefore, hafter⟩)
        rw [announcements_cons_of rfl (.inr rfl)]
        simp only [turns, hbefore, hafter, if_true, if_false] at hrest ⊢
        exact .cons hrest
      · rw [hquiet (by simp only [hbefore, hafter])]
        simpa only [turns, hbefore, hafter, if_false] using hrest

/-- From the beginning on, a queue is announced in turn as not empty and as empty. -/
theorem Reacts.inTurn (h : Reacts [] M) (hhead : Unprompted M) :
    InTurn (.external a.onFirst) (.external a.onEmpty) (announcements a M) := by
  cases M with
  | nil => exact .nil _ _
  | cons e rest =>
    have hwired : e.wired = false := hhead e rfl
    rw [announcements_cons_of_not (by simp [hwired])]
    exact h.inTurn_tail (a := a)

/-! ## Changing each time -/

/-- From one state to the other, things change each time. -/
inductive Alternates : Bool → List Bool → Bool → Prop
  | nil (b : Bool) : Alternates b [] b
  | cons {b c : Bool} {rest : List Bool} (h : Alternates (!b) rest c) : Alternates b ((!b) :: rest) c

namespace Alternates

variable {a b c : Bool} {first second : List Bool}

theorem append (h₁ : Alternates a first b) (h₂ : Alternates b second c) :
    Alternates a (first ++ second) c := by
  induction h₁ with
  | nil => exact h₂
  | cons _ ih => exact .cons (ih h₂)

theorem inTurn (h : Alternates a first b) : InTurn (!a) a first := by
  induction h with
  | nil => exact .nil _ _
  | cons _ ih =>
    rw [Bool.not_not] at ih
    exact .cons ih

theorem getLast?_getD (h : Alternates a first b) : first.getLast?.getD a = b := by
  induction h with
  | nil => rfl
  | cons _ ih => rwa [List.getLast?_cons, Option.getD_some]

end Alternates

end FormTree
