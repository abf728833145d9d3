import FormTree.Channel.Wiring
import Mathlib.Data.List.Nodup

/-!
# The two tables of a registry

A registry is sound if its tables are in step: an id is in use for an event exactly if a handler of
the event stands under it (`Registry.Sound`).  Registering and removing handlers keep it sound, so a
removal takes away the handler of its id and no other.

An id that was given out once is never given out again, also not after its handler was removed.
What carries this is the round of a place, which grows with each removal: an id that was given out
has at most the round of the id that is in use at its place, and a smaller one than the id that
waits there (`Registry.Issued`).
-/

namespace FormTree

namespace Registry

variable {ε η : Type} {r : Registry ε η} {event other : ε} {handler : η} {id : HandlerId}

/-- The places that are taken or wait to be taken again. -/
def known (r : Registry ε η) : List Nat := r.events.map (·.1.place) ++ r.free.map (·.place)

/-- Every place is known once, the next new place is not among them, and the two tables are in step.
-/
structure Sound (r : Registry ε η) : Prop where
  distinct : r.known.Nodup
  bound : ∀ place ∈ r.known, place < r.places
  inStep : ∀ event id, id ∈ (r.handlers event).map Prod.fst ↔ (id, event) ∈ r.events
  once : ∀ event, ((r.handlers event).map Prod.fst).Nodup

theorem sound_empty : (empty : Registry ε η).Sound :=
  ⟨by simp [known, empty], by simp [known, empty], by simp [empty], by simp⟩

/-- The ids that are left when one is taken out. -/
theorem map_fst_filter {α : Type} (entries : List (HandlerId × α)) (id : HandlerId) :
    (entries.filter (·.1 != id)).map Prod.fst = (entries.map Prod.fst).filter (· != id) := by
  rw [List.filter_map]
  rfl

/-- An id that was given out. -/
structure Issued (r : Registry ε η) (id : HandlerId) : Prop where
  bound : id.place < r.places
  used : ∀ entry ∈ r.events, entry.1.place = id.place → id.round ≤ entry.1.round
  free : ∀ next ∈ r.free, next.place = id.place → id.round < next.round

/-! ## Places and rounds -/

namespace Sound

theorem nodup_places (h : r.Sound) : (r.events.map (·.1.place)).Nodup :=
  (List.nodup_append.1 h.distinct).1

/-- At a place one id is in use. -/
theorem eq_of_place (h : r.Sound) {first second : HandlerId × ε} (h₁ : first ∈ r.events)
    (h₂ : second ∈ r.events) (hplace : first.1.place = second.1.place) : first = second :=
  List.inj_on_of_nodup_map h.nodup_places h₁ h₂ hplace

/-- A place is not taken and free at once. -/
theorem place_ne (h : r.Sound) {entry : HandlerId × ε} {next : HandlerId} (hentry : entry ∈ r.events)
    (hnext : next ∈ r.free) : entry.1.place ≠ next.place :=
  (List.nodup_append.1 h.distinct).2.2 _ (List.mem_map_of_mem (f := (·.1.place)) hentry) _
    (List.mem_map_of_mem hnext)

/-- The place that is given out next is not taken. -/
theorem nextId_notMem (h : r.Sound) : r.nextId.place ∉ r.events.map (·.1.place) := by
  intro hmem
  cases hfree : r.free with
  | nil =>
    have hlt := h.bound _ (List.mem_append_left _ hmem)
    simp [nextId, hfree] at hlt
  | cons next rest =>
    obtain ⟨entry, hentry, hplace⟩ := List.mem_map.1 hmem
    have hnext : next ∈ r.free := by simp [hfree]
    exact h.place_ne hentry hnext (by simpa [nextId, hfree] using hplace)

theorem nextId_unused (h : r.Sound) (event : ε) : (r.nextId, event) ∉ r.events :=
  fun hmem => h.nextId_notMem (List.mem_map_of_mem (f := (·.1.place)) hmem)

/-- An id in use was given out. -/
theorem issued_of_mem (h : r.Sound) (hmem : (id, event) ∈ r.events) : r.Issued id where
  bound := h.bound _ (List.mem_append_left _ (List.mem_map_of_mem (f := (·.1.place)) hmem))
  used entry hentry hplace := by
    have hsame : entry = (id, event) := h.eq_of_place hentry hmem hplace
    exact Nat.le_of_eq (by rw [hsame])
  free _ hnext hplace := absurd hplace.symm (h.place_ne hmem hnext)

/-- A place that is given back moves from the taken ones to the free ones. -/
theorem distinct_unregister (h : r.Sound) (hmem : (id, event) ∈ r.events) :
    ((r.events.filter (·.1 != id)).map (·.1.place) ++ id.place :: r.free.map (·.place)).Nodup := by
  obtain ⟨hevents, hfree, hapart⟩ := List.nodup_append.1 h.distinct
  rw [List.nodup_middle, List.nodup_cons, List.mem_append, List.nodup_append, not_or]
  refine ⟨⟨fun hplace => ?_, fun hplace => ?_⟩, hevents.sublist (List.filter_sublist.map _), hfree,
    fun place hplace => hapart place ((List.filter_sublist.map _).subset hplace)⟩
  · obtain ⟨entry, hentry, hplace⟩ := List.mem_map.1 hplace
    obtain ⟨hold, hne⟩ := List.mem_filter.1 hentry
    rw [h.eq_of_place hold hmem hplace] at hne
    simp at hne
  · exact hapart _ (List.mem_map_of_mem (f := (·.1.place)) hmem) _ hplace rfl

/-! ## The tables in step -/

/-- The event of an id in use is found. -/
theorem event?_eq_some (h : r.Sound) : r.event? id = some event ↔ (id, event) ∈ r.events := by
  constructor
  · intro hevent
    obtain ⟨before, after, hsplit, -⟩ := List.lookup_eq_some_iff.1 hevent
    simp [hsplit]
  · intro hmem
    obtain ⟨before, after, hsplit⟩ := List.append_of_mem hmem
    refine List.lookup_eq_some_iff.2 ⟨before, after, hsplit, fun entry hentry => ?_⟩
    have hplaces := h.nodup_places
    rw [hsplit, List.map_append, List.nodup_append] at hplaces
    have hne := hplaces.2.2 _ (List.mem_map_of_mem (f := (·.1.place)) hentry) id.place (by simp)
    rw [bne_iff_ne]
    rintro rfl
    exact hne rfl

variable [DecidableEq ε]

/-- No place is given out that lies beyond the places taken. -/
theorem nextId_bound (h : r.Sound) : r.nextId.place < (r.register event handler).2.places := by
  show r.nextId.place < if r.free.isEmpty then r.places + 1 else r.places
  cases hfree : r.free with
  | nil => simp [nextId, hfree]
  | cons next rest =>
    have hnext : next.place ∈ r.known :=
      List.mem_append_right _ (List.mem_map_of_mem (by simp [hfree]))
    simpa [nextId, hfree] using h.bound _ hnext

theorem register (h : r.Sound) : (r.register event handler).2.Sound := by
  refine ⟨?distinct, fun place hplace => ?bound, fun other id => ?inStep, fun other => ?once⟩
  case distinct =>
    -- the place of the next id moves from the free ones to the taken ones, or is new
    show (r.nextId.place :: r.events.map (·.1.place) ++ r.free.tail.map (·.place)).Nodup
    rw [List.cons_append, List.nodup_cons]
    have hdistinct := h.distinct
    cases hfree : r.free with
    | nil =>
      rw [known, hfree] at hdistinct
      exact ⟨by simpa using h.nextId_notMem, hdistinct⟩
    | cons next rest =>
      rw [known, hfree, List.map_cons, List.nodup_middle, List.nodup_cons] at hdistinct
      simpa [nextId, hfree] using hdistinct
  case bound =>
    have hgrows : r.places ≤ (r.register event handler).2.places := by
      show r.places ≤ if r.free.isEmpty then r.places + 1 else r.places
      split <;> omega
    rcases List.mem_append.1 hplace with hused | hfree
    · rcases List.mem_cons.1 hused with rfl | hold
      · exact h.nextId_bound
      · exact Nat.lt_of_lt_of_le (h.bound place (List.mem_append_left _ hold)) hgrows
    · have hold : place ∈ r.free.map (·.place) := ((List.tail_sublist _).map _).subset hfree
      exact Nat.lt_of_lt_of_le (h.bound place (List.mem_append_right _ hold)) hgrows
  case inStep =>
    rw [handlers_register, List.map_append, List.mem_append, h.inStep]
    show _ ↔ (id, other) ∈ (r.nextId, event) :: r.events
    by_cases hevent : event = other
    · simp [hevent, or_comm]
    · simp [hevent, Ne.symm hevent]
  case once =>
    rw [handlers_register, List.map_append, List.nodup_append]
    refine ⟨h.once other, by split <;> simp, fun id hid new hnew => ?_⟩
    split at hnew
    · obtain rfl : new = r.nextId := by simpa using hnew
      rintro rfl
      exact h.nextId_unused other ((h.inStep other _).1 hid)
    · cases hnew

/-- A removal takes away the handler of the id from behind the event, and nothing else. -/
theorem handlers_unregister (h : r.Sound) (event other : ε) (id : HandlerId) :
    (r.unregister event id).2.handlers other
      = if event = other then (r.handlers other).filter (·.1 != id) else r.handlers other := by
  rw [Registry.handlers_unregister]
  by_cases hother : event = other
  · subst hother
    by_cases hevent : r.event? id = some event
    · simp [hevent]
    · simp only [hevent, false_and, if_false, if_true]
      refine (List.filter_eq_self.2 fun entry hentry => bne_iff_ne.2 ?_).symm
      rintro rfl
      exact hevent (h.event?_eq_some.2 ((h.inStep event _).1 (List.mem_map_of_mem hentry)))
  · simp [hother]

/-- A removal finds its id exactly if a handler of the event stands under it. -/
theorem unregister_found (h : r.Sound) :
    (r.unregister event id).1 = true ↔ id ∈ (r.handlers event).map Prod.fst := by
  rw [h.inStep, ← h.event?_eq_some]
  unfold Registry.unregister
  split <;> simp_all

/-- What a removal leaves that finds its id. -/
theorem unregister_eq (hevent : r.event? id = some event) : (r.unregister event id).2 = { r with
    free := ⟨id.place, id.round + 1⟩ :: r.free
    events := r.events.filter fun entry => entry.1 != id
    handlers := r.change event (·.filter fun entry => entry.1 != id) } := by
  simp [Registry.unregister, hevent]

theorem unregister (h : r.Sound) : (r.unregister event id).2.Sound := by
  by_cases hevent : r.event? id = some event
  · have hmem : (id, event) ∈ r.events := h.event?_eq_some.1 hevent
    have hid : id.place ∈ r.events.map (·.1.place) := List.mem_map_of_mem (f := (·.1.place)) hmem
    refine ⟨?distinct, fun place hplace => ?bound, fun other found => ?inStep, fun other => ?once⟩
    case distinct =>
      rw [unregister_eq hevent]
      exact h.distinct_unregister hmem
    case bound =>
      rw [unregister_eq hevent] at hplace ⊢
      refine h.bound place (List.mem_append.2 ?_)
      rcases List.mem_append.1 hplace with hused | hfree
      · exact .inl ((List.filter_sublist.map _).subset hused)
      · rcases List.mem_cons.1 hfree with rfl | hold
        · exact .inl hid
        · exact .inr hold
    case inStep =>
      rw [h.handlers_unregister, unregister_eq hevent]
      show _ ↔ (found, other) ∈ r.events.filter fun entry => entry.1 != id
      rw [List.mem_filter, ← h.inStep]
      -- an id is issued for one event, so the handlers of the others do not have it
      by_cases hother : event = other
      · rw [if_pos hother, map_fst_filter, List.mem_filter]
      · rw [if_neg hother, h.inStep]
        refine (and_iff_left_of_imp fun hfound => bne_iff_ne.2 ?_).symm
        rintro rfl
        exact hother (congrArg Prod.snd (h.eq_of_place hmem hfound rfl))
    case once =>
      rw [h.handlers_unregister]
      split
      · exact (h.once other).sublist (List.filter_sublist.map _)
      · exact h.once other
  · simpa [Registry.unregister, hevent] using h

end Sound

/-! ## No id twice -/

/-- The id that the next registration gets was never given out. -/
theorem not_issued_nextId (r : Registry ε η) : ¬ r.Issued r.nextId := by
  intro hissued
  cases hfree : r.free with
  | nil =>
    have hlt := hissued.bound
    simp [nextId, hfree] at hlt
  | cons next rest =>
    have hlt := hissued.free next (by simp [hfree])
    simp [nextId, hfree] at hlt

namespace Issued

variable [DecidableEq ε]

/-- What was given out stays given out when a handler is registered. -/
theorem register (h : r.Issued id) : (r.register event handler).2.Issued id where
  bound := by
    have hbound := h.bound
    show id.place < if r.free.isEmpty then r.places + 1 else r.places
    split <;> omega
  used entry hentry hplace := by
    rcases List.mem_cons.1 (show entry ∈ (r.nextId, event) :: r.events from hentry) with rfl | hold
    · cases hfree : r.free with
      | nil =>
        have hbound := h.bound
        simp only [nextId, hfree, List.headD_nil] at hplace
        omega
      | cons next rest =>
        simp only [nextId, hfree, List.headD_cons] at hplace ⊢
        exact Nat.le_of_lt (h.free next (by simp [hfree]) hplace)
    · exact h.used entry hold hplace
  free next hnext hplace := h.free next (List.mem_of_mem_tail hnext) hplace

/-- And when one is removed: its place then waits with a higher round. -/
theorem unregister (h : r.Issued id) (removed : HandlerId) :
    (r.unregister event removed).2.Issued id := by
  unfold Registry.unregister
  split
  · next hevent =>
    obtain ⟨before, after, hsplit, -⟩ := List.lookup_eq_some_iff.1 hevent
    refine ⟨h.bound, fun entry hentry => h.used entry (List.mem_filter.1 hentry).1, ?_⟩
    intro next hnext hplace
    rcases List.mem_cons.1 hnext with rfl | hold
    · exact Nat.lt_succ_of_le (h.used (removed, event) (by simp [hsplit]) hplace)
    · exact h.free next hold hplace
  · exact h

end Issued

end Registry

/-! ## The two channels -/

/-- Both events are on one channel. -/
def Event.Beside : Event → Event → Prop
  | .internal _, .internal _ | .external _, .external _ => True
  | _, _ => False

namespace Channels

variable {κ : Type} {b : Channels κ} {event other : Event} {handler : Handler κ}
  {id removed : HandlerId}

/-- The registries of both channels are sound. -/
structure Sound (b : Channels κ) : Prop where
  internal : b.internal.Sound
  external : b.external.Sound

/-- The channel of the event has given the id out. -/
def Issued (b : Channels κ) : Event → HandlerId → Prop
  | .internal _, id => b.internal.Issued id
  | .external _, id => b.external.Issued id

theorem issued_iff (h : event.Beside other) : b.Issued event id ↔ b.Issued other id := by
  cases event <;> cases other <;> first | rfl | exact h.elim

/-- A removal that finds nothing changes nothing. -/
theorem unregister_eq_self (h : (b.unregister event id).1 = false) :
    (b.unregister event id).2 = b := by
  have hsame : ∀ {ε : Type} [DecidableEq ε] (r : Registry ε (Handler κ)) (e : ε),
      (r.unregister e id).1 = false → (r.unregister e id).2 = r := by
    intro ε _ r e h
    unfold Registry.unregister at h ⊢
    split
    · next hevent => simp [hevent] at h
    · rfl
  cases event with
  | internal e => exact congrArg (fun r => { b with internal := r }) (hsame b.internal e h)
  | external e => exact congrArg (fun r => { b with external := r }) (hsame b.external e h)

theorem Issued.register (h : b.Issued other id) : (b.register event handler).2.Issued other id := by
  cases event <;> cases other
  case internal.internal => exact Registry.Issued.register h
  case external.external => exact Registry.Issued.register h
  all_goals exact h

theorem Issued.unregister (h : b.Issued other id) (removed : HandlerId) :
    (b.unregister event removed).2.Issued other id := by
  cases event <;> cases other
  case internal.internal => exact Registry.Issued.unregister h removed
  case external.external => exact Registry.Issued.unregister h removed
  all_goals exact h

/-- A registration gets an id that its channel has never given out. -/
theorem not_issued_register (b : Channels κ) (event : Event) (handler : Handler κ) :
    ¬ b.Issued event (b.register event handler).1 := by
  cases event with
  | internal _ => exact Registry.not_issued_nextId b.internal
  | external _ => exact Registry.not_issued_nextId b.external

/-! ### Sound channels -/

theorem internal_register (h : b.internal.Sound) :
    (b.register event handler).2.internal.Sound := by
  cases event with
  | internal _ => exact h.register
  | external _ => exact h

theorem internal_unregister (h : b.internal.Sound) :
    (b.unregister event id).2.internal.Sound := by
  cases event with
  | internal _ => exact h.unregister
  | external _ => exact h

theorem external_register (h : b.external.Sound) :
    (b.register event handler).2.external.Sound := by
  cases event with
  | internal _ => exact h
  | external _ => exact h.register

theorem external_unregister (h : b.external.Sound) :
    (b.unregister event id).2.external.Sound := by
  cases event with
  | internal _ => exact h
  | external _ => exact h.unregister

theorem sound_unwired : (unwired : Channels κ).Sound := ⟨Registry.sound_empty, Registry.sound_empty⟩

namespace Sound

theorem register (h : b.Sound) : (b.register event handler).2.Sound :=
  ⟨internal_register h.internal, external_register h.external⟩

theorem unregister (h : b.Sound) : (b.unregister event id).2.Sound :=
  ⟨internal_unregister h.internal, external_unregister h.external⟩

theorem registerAll (h : b.Sound) (entries : List (Event × Handler κ)) :
    (b.registerAll entries).Sound := by
  induction entries generalizing b with
  | nil => exact h
  | cons entry rest ih => exact ih h.register

/-- The handlers of an event have an id each. -/
theorem nodup_handlers (h : b.Sound) (event : Event) :
    ((b.handlers event).map Prod.fst).Nodup := by
  cases event with
  | internal e => exact h.internal.once e
  | external e => exact h.external.once e

/-- A removal takes away the handler of the id from behind the event, and nothing else. -/
theorem handlers_unregister (h : b.Sound) :
    (b.unregister event id).2.handlers other
      = if event = other then (b.handlers other).filter (·.1 != id) else b.handlers other := by
  cases event <;> cases other
  case internal.internal e f =>
    simp only [Channels.unregister, handlers, h.internal.handlers_unregister, Event.internal.injEq]
  case external.external e f =>
    simp only [Channels.unregister, handlers, h.external.handlers_unregister, Event.external.injEq]
  all_goals
    rw [if_neg (by simp)]
    rfl

/-- A removal finds its id exactly if a handler of the event stands under it. -/
theorem unregister_found (h : b.Sound) :
    (b.unregister event id).1 = true ↔ id ∈ (b.handlers event).map Prod.fst := by
  cases event with
  | internal e => exact h.internal.unregister_found
  | external e => exact h.external.unregister_found

/-- Who takes a handler off leaves one handler less. -/
theorem count_unregister (h : b.Sound) (hfound : (b.unregister event id).1 = true) :
    (b.unregister event id).2.count event + 1 = b.count event := by
  have hmem := h.unregister_found.1 hfound
  have hids : ((b.unregister event id).2.handlers event).map Prod.fst
      = ((b.handlers event).map Prod.fst).erase id := by
    rw [h.handlers_unregister, if_pos rfl, Registry.map_fst_filter,
      (h.nodup_handlers event).erase_eq_filter]
  have hlength := congrArg List.length hids
  rw [List.length_map, List.length_erase_of_mem hmem, List.length_map] at hlength
  have hpos := List.length_pos_of_mem hmem
  rw [List.length_map] at hpos
  rw [count, count, hlength]
  omega

/-- The handlers of an event stand under ids that their channel has given out. -/
theorem issued (h : b.Sound) (hid : id ∈ (b.handlers event).map Prod.fst) : b.Issued event id := by
  cases event with
  | internal e => exact h.internal.issued_of_mem ((h.internal.inStep e id).1 hid)
  | external e => exact h.external.issued_of_mem ((h.external.inStep e id).1 hid)

/-- So does the handler that was registered last. -/
theorem issued_register (h : b.Sound) :
    (b.register event handler).2.Issued event (b.register event handler).1 := by
  refine h.register.issued ?_
  rw [handlers_register, if_pos rfl, List.map_append]
  exact List.mem_append_right _ (by simp)

end Sound

/-- New connected channels are sound. -/
theorem sound_connected : (connected : Channels κ).Sound := sound_unwired.registerAll _

end Channels

end FormTree
