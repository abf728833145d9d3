import FormTree.Proofs.Channel.Wired

/-!
# Channels that stay connected

The connection of every event of a new form stands in front of the handlers of the event, and only
host code behind it.  This stays so whatever handlers host code registers, and whatever handlers it
removes, as long as it does not take away a connection by its id; `Channels.Owns` says which ids
are those of connections.
-/

namespace FormTree

namespace Channels

variable {κ : Type} {b : Channels κ} {event other : Event} {id : HandlerId}

/-- Under the id a connection stands behind the event. -/
def Owns (b : Channels κ) (event : Event) (id : HandlerId) : Prop :=
  ∃ connection, (id, .connection connection) ∈ b.handlers event

/-- Handlers with the connection of the event in front, if it has one, and only host code behind it.
-/
def Fronted (event : Event) (handlers : List (HandlerId × Handler κ)) : Prop :=
  ∃ own hosts, handlers = own ++ hosts
    ∧ own.map Prod.snd = (Connection.of? event).toList.map .connection
    ∧ ∀ entry ∈ hosts, ∃ name, entry.2 = .host name

/-- The connection of every event is in front. -/
structure Connected (b : Channels κ) : Prop where
  internal : b.internal.Sound
  external : b.external.Sound
  front : ∀ event, Fronted event (b.handlers event)

/-! ## What stands behind an event -/

/-- An event without connection has host code only. -/
theorem Fronted.of_none {handlers : List (HandlerId × Handler κ)} (h : Fronted event handlers)
    (hnone : Connection.of? event = none) : ∀ entry ∈ handlers, ∃ name, entry.2 = .host name := by
  obtain ⟨own, hosts, rfl, hown, hhosts⟩ := h
  rw [hnone] at hown
  obtain rfl := List.map_eq_nil_iff.1 hown
  exact hhosts

/-- An event with a connection has it in front. -/
theorem Fronted.of_some {handlers : List (HandlerId × Handler κ)} {connection : Connection}
    (h : Fronted event handlers) (hsome : Connection.of? event = some connection) :
    ∃ id hosts, handlers = (id, .connection connection) :: hosts
      ∧ ∀ entry ∈ hosts, ∃ name, entry.2 = .host name := by
  obtain ⟨own, hosts, rfl, hown, hhosts⟩ := h
  rw [hsome] at hown
  obtain ⟨⟨id, handler⟩, rfl, rfl⟩ := List.map_eq_singleton_iff.1 hown
  exact ⟨id, hosts, rfl, hhosts⟩

/-- Further host code comes behind what is there. -/
theorem Fronted.append_host {handlers : List (HandlerId × Handler κ)} (h : Fronted event handlers)
    (id : HandlerId) (name : κ) : Fronted event (handlers ++ [(id, .host name)]) := by
  obtain ⟨own, hosts, rfl, hown, hhosts⟩ := h
  refine ⟨own, hosts ++ [(id, .host name)], List.append_assoc .., hown, fun entry hentry => ?_⟩
  rcases List.mem_append.1 hentry with hentry | hentry
  · exact hhosts entry hentry
  · rw [List.mem_singleton.1 hentry]
    exact ⟨name, rfl⟩

/-- Taking host code out leaves the connection in front. -/
theorem Fronted.filter {handlers : List (HandlerId × Handler κ)} (h : Fronted event handlers)
    (hid : ∀ connection, (id, .connection connection) ∉ handlers) :
    Fronted event (handlers.filter (·.1 != id)) := by
  obtain ⟨own, hosts, rfl, hown, hhosts⟩ := h
  have hkept : own.filter (·.1 != id) = own := by
    refine List.filter_eq_self.2 fun entry hentry => bne_iff_ne.2 ?_
    rintro rfl
    have hhandler := List.mem_map_of_mem (f := Prod.snd) hentry
    rw [hown] at hhandler
    obtain ⟨connection, -, hconnection⟩ := List.mem_map.1 hhandler
    exact hid connection (List.mem_append_left _ (by rwa [hconnection]))
  refine ⟨own, hosts.filter (·.1 != id), by rw [List.filter_append, hkept], hown, ?_⟩
  exact fun entry hentry => hhosts entry (List.mem_filter.1 hentry).1

/-! ## What keeps channels connected -/

theorem Connected.sound (h : b.Connected) : b.Sound := ⟨h.internal, h.external⟩

namespace Connected

theorem register (h : b.Connected) (name : κ) :
    (b.register event (.host name)).2.Connected where
  internal := internal_register h.internal
  external := external_register h.external
  front other := by
    rw [handlers_register]
    split
    · exact (h.front other).append_host _ name
    · rw [List.append_nil]
      exact h.front other

theorem setQueue (h : b.Connected) (a : Aggregate) (q : IdQueue) : (b.setQueue a q).Connected where
  internal := by cases a <;> exact h.internal
  external := by cases a <;> exact h.external
  front event := by
    rw [handlers_setQueue]
    exact h.front event

theorem unregister (h : b.Connected) (hid : ¬ b.Owns event id) :
    (b.unregister event id).2.Connected where
  internal := internal_unregister h.internal
  external := external_unregister h.external
  front other := by
    rw [h.sound.handlers_unregister]
    split
    · next heq =>
      subst heq
      exact (h.front event).filter fun connection hmem => hid ⟨connection, hmem⟩
    · exact h.front other

end Connected

/-- The channels of a new form are connected, with whatever host code is registered at once. -/
theorem connected_registerAll (hosts : List (Event × κ)) :
    ((connected : Channels κ).registerAll
      (hosts.map fun entry => (entry.1, .host entry.2))).Connected := by
  have hnew : (connected : Channels κ).Connected := by
    refine ⟨sound_connected.internal, sound_connected.external, fun event => ?_⟩
    exact ⟨_, [], (List.append_nil _).symm, handlers_connected event, nofun⟩
  suffices hall : ∀ b : Channels κ, b.Connected →
      (b.registerAll (hosts.map fun entry => (entry.1, .host entry.2))).Connected from hall _ hnew
  induction hosts with
  | nil => exact fun _ h => h
  | cons entry rest ih => exact fun b h => ih _ (h.register entry.2)

/-! ## Ids and queues -/

theorem owns_register (name : κ) :
    (b.register event (.host name)).2.Owns other id ↔ b.Owns other id := by
  refine exists_congr fun connection => ?_
  rw [handlers_register, List.mem_append]
  refine or_iff_left ?_
  split <;> simp

theorem owns_setQueue (a : Aggregate) (q : IdQueue) :
    (b.setQueue a q).Owns event id ↔ b.Owns event id := by
  simp only [Owns, handlers_setQueue]

theorem Connected.owns_unregister (h : b.Connected) (hid : ¬ b.Owns event id) {found : HandlerId} :
    (b.unregister event id).2.Owns other found ↔ b.Owns other found := by
  refine exists_congr fun connection => ?_
  rw [h.sound.handlers_unregister]
  split
  · next heq =>
    subst heq
    refine List.mem_filter.trans (and_iff_left_of_imp fun hmem => bne_iff_ne.2 ?_)
    rintro rfl
    exact hid ⟨connection, hmem⟩
  · rfl

theorem queue_register (handler : Handler κ) : (b.register event handler).2.queue = b.queue := by
  cases event <;> (funext a; cases a <;> rfl)

theorem queue_unregister : (b.unregister event id).2.queue = b.queue := by
  cases event <;> (funext a; cases a <;> rfl)

theorem queue_setQueue (a : Aggregate) (q : IdQueue) :
    (b.setQueue a q).queue = Function.update b.queue a q := by
  funext other
  by_cases h : other = a
  · subst h
    rw [queue_setQueue_self, Function.update_self]
  · rw [queue_setQueue_ne b (Ne.symm h), Function.update_of_ne h]

theorem queue_registerAll (hosts : List (Event × Handler κ)) :
    (b.registerAll hosts).queue = b.queue := by
  induction hosts generalizing b with
  | nil => rfl
  | cons entry rest ih => exact ih.trans (queue_register entry.2)

theorem queue_connected : (connected : Channels κ).queue = fun _ => .empty := by
  rw [connected, queue_registerAll]
  funext a
  cases a <;> rfl

end Channels

end FormTree
