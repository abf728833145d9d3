import FormTree.Proofs.Execution.Deliveries

/-!
# What is registered, taken off and called

Which handlers stand behind an event at some moment is read off the journal: those that were
registered for it by then, in this order, less those that were taken off (`standing`).  Since no id
is given out twice, this is what the channels have (`Faithful.handlers_replay`).

`run_delivers` says it of every run, whatever its handlers register, remove and emit meanwhile.  A
removal succeeds exactly for an id that was registered for its event and not taken off yet; whoever
counts the handlers of an event is told how many were registered less how many were taken off; and
an emission calls the handlers that stand behind its event when it begins, each once and in their
order, so that a handler registered in the middle of it is not called before the next.
-/

namespace FormTree

variable {σ κ α : Type} {form : FormId} {event other : Event} {payload : Payload} {id : HandlerId}
  {b c : Channels κ}

/-! ## Registrations and removals in the journal -/

namespace Occurrence

/-- The handler that an entry registers for an event, with its id. -/
def registration? (form : FormId) (event : Event) : Occurrence κ → Option (HandlerId × Handler κ)
  | .registered other target id name =>
    if other = form ∧ target = event then some (id, .host name) else none
  | _ => none

/-- The id under which an entry takes a handler of an event off. -/
def removal? (form : FormId) (event : Event) : Occurrence κ → Option HandlerId
  | .removed other target id found =>
    if other = form ∧ target = event ∧ found = true then some id else none
  | _ => none

end Occurrence

/-- The handlers that were registered for an event, in their order: those that stood behind it at
first, and those that the journal tells of. -/
def registrations (form : FormId) (event : Event) (b : Channels κ) (entries : List (Occurrence κ)) :
    List (HandlerId × Handler κ) :=
  b.handlers event ++ entries.filterMap (·.registration? form event)

/-- The ids under which handlers of an event were taken off. -/
def takenOff (form : FormId) (event : Event) (entries : List (Occurrence κ)) : List HandlerId :=
  entries.filterMap (·.removal? form event)

/-- The handlers that were registered for an event and not taken off. -/
def standing (form : FormId) (event : Event) (b : Channels κ) (entries : List (Occurrence κ)) :
    List (HandlerId × Handler κ) :=
  (registrations form event b entries).filter (·.1 ∉ takenOff form event entries)

section Entries

variable {o : Occurrence κ} {entries rest : List (Occurrence κ)} {entry : HandlerId × Handler κ}

theorem Occurrence.registration?_eq_some : o.registration? form event = some entry
    ↔ ∃ name, o = .registered form event entry.1 name ∧ entry.2 = .host name := by
  cases o with
  | registered other target id name =>
    obtain ⟨found, handler⟩ := entry
    simp only [registration?, Option.ite_none_right_eq_some, Option.some_inj, Prod.mk.injEq,
      Occurrence.registered.injEq]
    constructor
    · rintro ⟨⟨rfl, rfl⟩, rfl, rfl⟩
      exact ⟨name, ⟨rfl, rfl, rfl, rfl⟩, rfl⟩
    · rintro ⟨_, ⟨rfl, rfl, rfl, rfl⟩, rfl⟩
      exact ⟨⟨rfl, rfl⟩, rfl, rfl⟩
  | _ => simp [registration?]

/-- An entry registers a handler, or removes one, or neither. -/
theorem Occurrence.registers_or_removes (form : FormId) (o : Occurrence κ) :
    (∃ event id name, o = .registered form event id name)
      ∨ (∃ event id found, o = .removed form event id found)
      ∨ (∀ b : Channels κ, b.after form o = b) ∧ (∀ event, o.registration? form event = none)
        ∧ ∀ event, o.removal? form event = none := by
  cases o with
  | registered other event id name =>
    by_cases h : other = form
    · exact .inl ⟨event, id, name, by rw [h]⟩
    · exact .inr (.inr ⟨fun _ => if_neg h, fun _ => if_neg fun hand => h hand.1, fun _ => rfl⟩)
  | removed other event id found =>
    by_cases h : other = form
    · exact .inr (.inl ⟨event, id, found, by rw [h]⟩)
    · exact .inr (.inr ⟨fun _ => if_neg h, fun _ => rfl, fun _ => if_neg fun hand => h hand.1⟩)
  | _ => exact .inr (.inr ⟨fun _ => rfl, fun _ => rfl, fun _ => rfl⟩)

/-! ## Channels that the journal leads to -/

theorem Channels.after_registered (b : Channels κ) (event : Event) (id : HandlerId) (name : κ) :
    b.after form (.registered form event id name) = (b.register event (.host name)).2 := if_pos rfl

theorem Channels.after_removed (b : Channels κ) (event : Event) (id : HandlerId) (found : Bool) :
    b.after form (.removed form event id found) = (b.unregister event id).2 := if_pos rfl

theorem Channels.Sound.after (h : b.Sound) (o : Occurrence κ) : (b.after form o).Sound := by
  obtain ⟨event, id, name, rfl⟩ | ⟨event, id, found, rfl⟩ | ⟨hsame, -, -⟩ :=
    o.registers_or_removes form
  · rw [after_registered]
    exact h.register
  · rw [after_removed]
    exact h.unregister
  · rw [hsame]
    exact h

theorem Channels.Sound.replay (h : b.Sound) (entries : List (Occurrence κ)) :
    (b.replay form entries).Sound := by
  induction entries generalizing b with
  | nil => exact h
  | cons o rest ih => exact ih (h.after o)

theorem Channels.Issued.after (h : b.Issued event id) (o : Occurrence κ) :
    (b.after form o).Issued event id := by
  obtain ⟨target, new, name, rfl⟩ | ⟨target, gone, found, rfl⟩ | ⟨hsame, -, -⟩ :=
    o.registers_or_removes form
  · rw [after_registered]
    exact h.register
  · rw [after_removed]
    exact h.unregister gone
  · rw [hsame]
    exact h

theorem Channels.Issued.replay (h : b.Issued event id) (entries : List (Occurrence κ)) :
    (b.replay form entries).Issued event id := by
  induction entries generalizing b with
  | nil => exact h
  | cons o rest ih => exact ih (h.after o)

/-! ## Ids in the journal -/

/-- A registration gets an id that was not given out before. -/
theorem Faithful.fresh (h : Faithful form b (entries ++ rest))
    (hentry : entry ∈ entries.filterMap (·.registration? form event)) :
    ¬ b.Issued event entry.1 := by
  induction entries generalizing b with
  | nil => cases hentry
  | cons o entries ih =>
    obtain ⟨hagrees, hrest⟩ := h
    obtain ⟨o', ho', hregistered⟩ := List.mem_filterMap.1 hentry
    rcases List.mem_cons.1 ho' with rfl | hlater
    · obtain ⟨name, rfl, -⟩ := Occurrence.registration?_eq_some.1 hregistered
      rw [hagrees rfl]
      exact Channels.not_issued_register b event _
    · intro hissued
      exact ih hrest (List.mem_filterMap.2 ⟨o', hlater, hregistered⟩) (hissued.after o)

/-- Every handler that was registered has an id that was given out. -/
theorem Faithful.issued (h : Faithful form b (entries ++ rest)) (hsound : b.Sound)
    (hentry : entry ∈ registrations form event b entries) :
    (b.replay form entries).Issued event entry.1 := by
  rcases List.mem_append.1 hentry with hold | hnew
  · exact (hsound.issued (List.mem_map_of_mem hold)).replay entries
  · induction entries generalizing b with
    | nil => cases hnew
    | cons o entries ih =>
      obtain ⟨hagrees, hrest⟩ := h
      obtain ⟨o', ho', hregistered⟩ := List.mem_filterMap.1 hnew
      rcases List.mem_cons.1 ho' with rfl | hlater
      · obtain ⟨name, rfl, -⟩ := Occurrence.registration?_eq_some.1 hregistered
        rw [hagrees rfl]
        refine Channels.Issued.replay ?_ entries
        rw [Channels.after_registered]
        exact hsound.issued_register
      · have hmem := List.mem_filterMap.2 ⟨o', hlater, hregistered⟩
        exact ih hrest (hsound.after o) (List.mem_append_right _ hmem) hmem

/-! ## Handlers in the journal -/

theorem registrations_cons (hfirst : o.registration? form event = none) :
    registrations form event b (o :: entries) = registrations form event b entries := by
  rw [registrations, List.filterMap_cons_none hfirst, registrations]

theorem takenOff_cons (hfirst : o.removal? form event = none) :
    takenOff form event (o :: entries) = takenOff form event entries :=
  List.filterMap_cons_none hfirst

theorem takenOff_removed : takenOff form event (.removed form event id true :: entries)
    = id :: takenOff form event entries := List.filterMap_cons_some (if_pos ⟨rfl, rfl, rfl⟩)

theorem mem_takenOff : id ∈ takenOff form event entries ↔ .removed form event id true ∈ entries := by
  rw [takenOff, List.mem_filterMap]
  constructor
  · rintro ⟨o, ho, hremoval⟩
    cases o with
    | removed other target gone found =>
      obtain ⟨⟨rfl, rfl, rfl⟩, hid⟩ := Option.ite_none_right_eq_some.1 hremoval
      rwa [← Option.some_inj.1 hid]
    | _ => cases hremoval
  · intro ho
    exact ⟨_, ho, if_pos ⟨rfl, rfl, rfl⟩⟩

theorem registrations_append : registrations form event b (entries ++ rest)
    = registrations form event b entries ++ rest.filterMap (·.registration? form event) := by
  rw [registrations, List.filterMap_append, ← List.append_assoc, registrations]

/-- The handler that is registered first may as well stand behind the event before. -/
theorem registrations_register {name : κ} (hagrees : id = (b.register event (.host name)).1) :
    registrations form other b (.registered form event id name :: entries)
      = registrations form other (b.register event (.host name)).2 entries := by
  by_cases h : event = other
  · subst h
    have hfirst : Occurrence.registration? form event (.registered form event id name)
        = some (id, .host name) := if_pos ⟨rfl, rfl⟩
    rw [registrations, List.filterMap_cons_some hfirst, registrations, Channels.handlers_register,
      if_pos rfl, hagrees, List.append_assoc, List.singleton_append]
  · have hfirst : Occurrence.registration? form other (.registered form event id name) = none := by
      simp [Occurrence.registration?, h]
    rw [registrations_cons hfirst, registrations, registrations, Channels.handlers_register,
      if_neg h, List.append_nil]

/-- A handler that is taken off first may as well not stand behind the event any more. -/
theorem standing_unregister (hsound : b.Sound)
    (hfresh : ∀ entry ∈ entries.filterMap (·.registration? form event), entry.1 ≠ id) :
    standing form other b (.removed form event id true :: entries)
      = standing form other (b.unregister event id).2 entries := by
  by_cases h : event = other
  · subst h
    have hkept : (entries.filterMap (·.registration? form event)).filter (·.1 != id)
        = entries.filterMap (·.registration? form event) :=
      List.filter_eq_self.2 fun entry hentry => bne_iff_ne.2 (hfresh entry hentry)
    have hregistered : registrations form event (b.unregister event id).2 entries
        = (registrations form event b entries).filter (·.1 != id) := by
      rw [registrations, registrations, List.filter_append, hkept, hsound.handlers_unregister,
        if_pos rfl]
    rw [standing, registrations_cons rfl, takenOff_removed, standing, hregistered,
      List.filter_filter]
    refine List.filter_congr fun entry _ => ?_
    by_cases hentry : entry.1 = id <;> simp [hentry]
  · have hremoval : Occurrence.removal? form other (.removed form event id true : Occurrence κ)
        = none := by simp [Occurrence.removal?, h]
    rw [standing, registrations_cons rfl, takenOff_cons hremoval, standing, registrations,
      registrations, hsound.handlers_unregister, if_neg h]

/-- What stands behind an event was registered for it and not taken off. -/
theorem Faithful.handlers_replay (h : Faithful form b (entries ++ rest)) (hsound : b.Sound)
    (event : Event) : (b.replay form entries).handlers event = standing form event b entries := by
  induction entries generalizing b with
  | nil => simp [Channels.replay, standing, registrations, takenOff]
  | cons o entries ih =>
    obtain ⟨hagrees, hrest⟩ := h
    have hlater := ih hrest (hsound.after o)
    refine hlater.trans ?_
    obtain ⟨target, new, name, rfl⟩ | ⟨target, gone, found, rfl⟩ | ⟨hsame, hnew, hgone⟩ :=
      o.registers_or_removes form
    · rw [Channels.after_registered, standing, standing, registrations_register (hagrees rfl),
        takenOff_cons rfl]
    · rw [Channels.after_removed] at hrest ⊢
      have hfound : found = (b.unregister target gone).1 := hagrees rfl
      cases found with
      | false =>
        have hremoval : Occurrence.removal? form event (.removed form target gone false : Occurrence κ)
            = none := by simp [Occurrence.removal?]
        rw [Channels.unregister_eq_self hfound.symm, standing, standing, registrations_cons rfl,
          takenOff_cons hremoval]
      | true =>
        refine (standing_unregister hsound fun entry hentry => ?_).symm
        rintro rfl
        exact hrest.fresh hentry ((hsound.issued (hsound.unregister_found.1 hfound.symm)).unregister _)
    · rw [hsame, standing, standing, registrations_cons (hnew event), takenOff_cons (hgone event)]

/-- What stands behind an event and what was taken off make up what was registered. -/
theorem Faithful.count_replay (h : Faithful form b (entries ++ rest)) (hsound : b.Sound)
    (event : Event) : (b.replay form entries).count event + (takenOff form event entries).length
      = (registrations form event b entries).length := by
  -- the channels change along the entries, and what is registered is counted from the current ones
  induction entries generalizing b with
  | nil => simp [Channels.replay, Channels.count, registrations, takenOff]
  | cons o entries ih =>
    obtain ⟨hagrees, hrest⟩ := h
    have hlater := ih hrest (hsound.after o)
    have hcount : (b.replay form (o :: entries)).count event
        = ((b.after form o).replay form entries).count event := rfl
    obtain ⟨target, new, name, rfl⟩ | ⟨target, gone, found, rfl⟩ | ⟨hsame, hnew, hgone⟩ :=
      o.registers_or_removes form
    · rw [hcount, registrations_register (hagrees rfl), takenOff_cons rfl]
      rwa [Channels.after_registered] at hlater ⊢
    · have hfound : found = (b.unregister target gone).1 := hagrees rfl
      rw [Channels.after_removed] at hlater hcount
      rw [hcount, registrations_cons rfl]
      by_cases htaken : target = event ∧ found = true
      · obtain ⟨rfl, rfl⟩ := htaken
        have hless := hsound.count_unregister hfound.symm
        rw [registrations, List.length_append] at hlater
        rw [takenOff_removed, List.length_cons, registrations, List.length_append]
        simp only [Channels.count] at hless hlater ⊢
        omega
      · have hremoval : Occurrence.removal? form event (.removed form target gone found : Occurrence κ)
            = none := by
          simp only [Occurrence.removal?, true_and, if_neg htaken]
        have hkept : (b.unregister target gone).2.handlers event = b.handlers event := by
          cases found with
          | false => rw [Channels.unregister_eq_self hfound.symm]
          | true =>
            rw [hsound.handlers_unregister, if_neg fun heq => htaken ⟨heq, rfl⟩]
        rw [takenOff_cons hremoval, hlater, registrations, registrations, hkept]
    · rw [hcount, hsame, registrations_cons (hnew event), takenOff_cons (hgone event)]
      rwa [hsame] at hlater

/-- A removal would find exactly an id that was registered for the event and not taken off. -/
theorem Faithful.unregister_iff (h : Faithful form b (entries ++ rest)) (hsound : b.Sound) :
    ((b.replay form entries).unregister event id).1 = true
      ↔ id ∈ (registrations form event b entries).map Prod.fst
        ∧ id ∉ takenOff form event entries := by
  rw [(hsound.replay entries).unregister_found, h.handlers_replay hsound, standing]
  simp only [List.mem_map, List.mem_filter, decide_eq_true_eq]
  constructor
  · rintro ⟨entry, ⟨hentry, hkept⟩, rfl⟩
    exact ⟨⟨entry, hentry, rfl⟩, hkept⟩
  · rintro ⟨⟨entry, hentry, rfl⟩, hkept⟩
    exact ⟨entry, ⟨hentry, hkept⟩, rfl⟩

/-! ## Single entries -/

section Entry

variable {before after between : List (Occurrence κ)} {name : κ} {found : Bool} {count : Nat}

/-- What is registered gets an id that nothing had that was registered before. -/
theorem Faithful.id_notMem (h : Faithful form b (before ++ .registered form event id name :: after))
    (hsound : b.Sound) (hbeside : event.Beside other) :
    id ∉ (registrations form other b before).map Prod.fst := by
  intro hmem
  obtain ⟨entry, hentry, rfl⟩ := List.mem_map.1 hmem
  have hissued := (Channels.issued_iff hbeside).2 (h.issued hsound hentry)
  rw [h.agrees rfl] at hissued
  exact Channels.not_issued_register _ event _ hissued

/-- A removal succeeds exactly for an id that was registered for its event and not taken off. -/
theorem Faithful.found_iff (h : Faithful form b (before ++ .removed form event id found :: after))
    (hsound : b.Sound) : found = true ↔ id ∈ (registrations form event b before).map Prod.fst
      ∧ id ∉ takenOff form event before := by
  rw [h.agrees rfl]
  exact h.unregister_iff hsound

theorem Faithful.count_eq (h : Faithful form b (before ++ .polled form event count :: after))
    (hsound : b.Sound) : count + (takenOff form event before).length
      = (registrations form event b before).length := by
  rw [← h.count_replay hsound, h.agrees rfl]

/-- An emission calls what stands behind its event when it begins. -/
theorem Faithful.course_eq (h : Faithful form b (before ++ .emitted form event payload :: after))
    (hsound : b.Sound) :
    course form 0 after = emissionOf form event payload (standing form event b before) := by
  have hcourse := h.agrees rfl []
  rwa [List.append_nil, h.handlers_replay hsound] at hcourse

/-- What is registered after an emission began is not among the handlers that it calls. -/
theorem Faithful.unheard (h : Faithful form b (before ++ .emitted form event payload :: after))
    (hsound : b.Sound) (hbeside : other.Beside event)
    (hregistered : .registered form other id name ∈ after) :
    id ∉ (standing form event b before).map Prod.fst := by
  intro hmem
  obtain ⟨between, later, rfl⟩ := List.append_of_mem hregistered
  rw [← List.cons_append, ← List.append_assoc] at h
  refine h.id_notMem hsound hbeside ?_
  rw [registrations_append, List.map_append]
  exact List.mem_append_left _ ((List.filter_sublist.map _).subset hmem)

/-- What was registered stands behind its event until it is taken off. -/
theorem Faithful.mem_standing
    (h : Faithful form b (before ++ .registered form event id name :: (between ++ after)))
    (hsound : b.Sound) (hkept : .removed form event id true ∉ between) :
    (id, .host name)
      ∈ standing form event b (before ++ .registered form event id name :: between) := by
  have hbeside : event.Beside event := by cases event <;> trivial
  have hnew : id ∉ (registrations form event b before).map Prod.fst := h.id_notMem hsound hbeside
  refine List.mem_filter.2 ⟨?registered, decide_eq_true fun htaken => ?kept⟩
  case registered =>
    rw [registrations_append]
    exact List.mem_append_right _ (List.mem_filterMap.2 ⟨_, List.mem_cons_self .., if_pos ⟨rfl, rfl⟩⟩)
  case kept =>
    rcases List.mem_append.1 (mem_takenOff.1 htaken) with hbefore | hlater
    · -- what is taken off before the registration was registered even earlier
      obtain ⟨first, second, rfl⟩ := List.append_of_mem hbefore
      rw [List.append_assoc, List.cons_append] at h
      refine hnew ?_
      rw [registrations_append, List.map_append]
      exact List.mem_append_left _ ((h.found_iff hsound).1 rfl).1
    · rcases List.mem_cons.1 hlater with hfirst | hbetween
      · cases hfirst
      · exact hkept hbetween

end Entry

end Entries

/-! ## Runs -/

/-- What happened to the handlers of a form between two states of its channels. -/
structure Accounted (form : FormId) (entries : List (Occurrence κ)) (b c : Channels κ) : Prop where
  sound : c.Sound
  handlers : ∀ event, c.handlers event = standing form event b entries
  /-- No id is given out twice on a channel. -/
  fresh : ∀ before event id name after,
    entries = before ++ .registered form event id name :: after → ∀ other, event.Beside other →
      id ∉ (registrations form other b before).map Prod.fst
  /-- A removal succeeds exactly for an id that was registered for its event and not taken off. -/
  removals : ∀ before event id found after,
    entries = before ++ .removed form event id found :: after →
      (found = true ↔ id ∈ (registrations form event b before).map Prod.fst
        ∧ id ∉ takenOff form event before)
  /-- Who counts the handlers of an event is told how many were registered less how many were taken
  off. -/
  counts : ∀ before event count after, entries = before ++ .polled form event count :: after →
    count + (takenOff form event before).length = (registrations form event b before).length
  /-- An emission calls what stands behind its event when it begins, in this order, and answers how
  many handlers these are. -/
  emissions : ∀ before event payload after,
    entries = before ++ .emitted form event payload :: after →
      course form 0 after = emissionOf form event payload (standing form event b before)
  /-- It calls no handler twice. -/
  once : ∀ before event payload after,
    entries = before ++ .emitted form event payload :: after →
      ((standing form event b before).map Prod.fst).Nodup
  /-- It calls no handler that is registered after it began. -/
  unheard : ∀ before event payload after,
    entries = before ++ .emitted form event payload :: after → ∀ other id name, other.Beside event →
      .registered form other id name ∈ after → id ∉ (standing form event b before).map Prod.fst
  /-- A handler is called by every emission that begins after it was registered and before it is
  taken off. -/
  heard : ∀ before event id name between payload after,
    entries = before ++ .registered form event id name ::
        (between ++ .emitted form event payload :: after) →
      .removed form event id true ∉ between →
      .delivered form event id (.host name) payload ∈ course form 0 after

/-- What is answered to host code that calls next. -/
structure Answered (host : Host σ κ) (form : FormId) (entries : List (Occurrence κ))
    (b : Channels κ) (w : World σ κ) : Prop where
  /-- A removal that finds nothing changes nothing. -/
  unregister : ∀ depth event id, ∃ found w',
    (Program.unregister form event id).run host (depth + 1) w = .ok (found, w')
      ∧ (found = true ↔ id ∈ (registrations form event b entries).map Prod.fst
        ∧ id ∉ takenOff form event entries)
      ∧ (found = false → w' = w.note (.removed form event id false))
  count : ∀ depth event, ∃ count,
    (Program.count form event).run host (depth + 1) w = .ok (count, w.note (.polled form event count))
      ∧ count + (takenOff form event entries).length = (registrations form event b entries).length
  /-- An emission returns as soon as the handlers do, which are called one after the other. -/
  emit : ∀ depth event payload calls w',
    (Program.emit form event payload).run host (depth + 1) w = .ok (calls, w')
      ↔ ∃ v, ((standing form event b entries).forM fun entry => do
            Run.note (.delivered form event entry.1 entry.2 payload)
            Run.deliver host (Program.run host depth) form payload entry.2)
              (w.note (.emitted form event payload)) = .ok ((), v)
          ∧ calls = (standing form event b entries).length
          ∧ w' = v.note (.completed form event calls)

section Runs

variable {w w' : World σ κ} {live : LiveForm κ} {host : Host σ κ} {entries : List (Occurrence κ)}

/-- Queues make no difference to what is registered. -/
theorem registrations_unqueued (event : Event) (entries : List (Occurrence κ)) :
    registrations form event b.unqueued entries = registrations form event b entries := by
  rw [registrations, registrations, Channels.handlers_unqueued]

theorem standing_unqueued (event : Event) (entries : List (Occurrence κ)) :
    standing form event b.unqueued entries = standing form event b entries := by
  rw [standing, standing, registrations_unqueued]

/-- What faithful entries say of the handlers of sound channels. -/
theorem Transcribed.accounted (h : Transcribed form entries b c) (hsound : b.Sound) :
    Accounted form entries b c := by
  have hunqueued := hsound.unqueued
  -- what is faithful is so at every cut, so each part is read off at the entry it is about
  have hsplit : ∀ {before o rest}, entries = before ++ o :: rest →
      Faithful form b.unqueued (before ++ o :: rest) := by
    rintro before o rest rfl
    exact h.faithful
  refine ⟨?sound, fun event => ?handlers, ?fresh, ?removals, ?counts, ?emissions, ?once, ?unheard,
    ?heard⟩
  case sound =>
    have hlast : c.unqueued.Sound := by
      rw [h.leads]
      exact hunqueued.replay entries
    exact ⟨hlast.internal, hlast.external⟩
  case handlers =>
    have hall : Faithful form b.unqueued (entries ++ []) := by
      rw [List.append_nil]
      exact h.faithful
    rw [← standing_unqueued, ← hall.handlers_replay hunqueued, ← h.leads,
      Channels.handlers_unqueued]
  case fresh =>
    intro before event id name after heq other hbeside
    rw [← registrations_unqueued]
    exact (hsplit heq).id_notMem hunqueued hbeside
  case removals =>
    intro before event id found after heq
    rw [← registrations_unqueued]
    exact (hsplit heq).found_iff hunqueued
  case counts =>
    intro before event count after heq
    rw [← registrations_unqueued]
    exact (hsplit heq).count_eq hunqueued
  case emissions =>
    intro before event payload after heq
    rw [← standing_unqueued]
    exact (hsplit heq).course_eq hunqueued
  case once =>
    intro before event payload after heq
    rw [← standing_unqueued, ← (hsplit heq).handlers_replay hunqueued]
    exact (hunqueued.replay before).nodup_handlers event
  case unheard =>
    intro before event payload after heq other id name hbeside hregistered
    rw [← standing_unqueued]
    exact (hsplit heq).unheard hunqueued hbeside hregistered
  case heard =>
    intro before event id name between payload after heq hkept
    have hfaithful := hsplit heq
    have hmem := hfaithful.mem_standing hunqueued hkept
    rw [← List.cons_append, ← List.append_assoc] at hfaithful
    rw [hfaithful.course_eq hunqueued]
    exact List.mem_append_left _ (List.mem_map.2 ⟨_, hmem, rfl⟩)

/-- And what is answered to who calls next. -/
theorem Transcribed.answered (h : Transcribed form entries b live.channels) (hsound : b.Sound)
    (hlive : w.form? form = some live) (host : Host σ κ) : Answered host form entries b w := by
  have haccounted := h.accounted hsound
  have hall : Faithful form b.unqueued (entries ++ []) := by
    rw [List.append_nil]
    exact h.faithful
  refine ⟨fun depth event id => ?unregister, fun depth event => ?count,
    fun depth event payload calls w' => ?emit⟩
  case unregister =>
    refine ⟨_, _, Program.run_unregister hlive event id, ?_, fun hmissed => ?_⟩
    · rw [haccounted.sound.unregister_found, ← Channels.handlers_unqueued, h.leads,
        ← (hsound.unqueued.replay entries).unregister_found, ← registrations_unqueued]
      exact hall.unregister_iff hsound.unqueued
    · rw [hmissed, Channels.unregister_eq_self hmissed, World.setForm_same hlive]
  case count =>
    refine ⟨_, Program.run_count hlive event, ?_⟩
    rw [← registrations_unqueued, ← hall.count_replay hsound.unqueued, ← h.leads, Channels.count,
      Channels.count, Channels.handlers_unqueued]
  case emit =>
    rw [Program.run_emit, Run.emit_eq_ok hlive, haccounted.handlers]

/-- Every form is set up with sound channels. -/
theorem LiveForm.sound_create (profile : Profile) (handlers : List (HostEvent × κ))
    (initial : Data) : (create profile handlers initial).channels.Sound :=
  Channels.sound_connected.registerAll _

/-- Whatever runs on a form with sound channels, and whatever its handlers register, remove and emit
while they are called: removals, counts and emissions are exact, and so are those that come next. -/
theorem run_delivers {fuel : Nat} {p : Program σ κ α} {a : α} (hlive : w.form? form = some live)
    (hsound : live.channels.Sound) (hrun : p.run host fuel w = .ok (a, w')) :
    ∃ entries live', w.Wrote entries w' ∧ w'.form? form = some live'
      ∧ Accounted form entries live.channels live'.channels
      ∧ Answered host form entries live.channels w' := by
  obtain ⟨entries, live', hwrote, hlive', htranscribed⟩ :=
    Program.run_transcribes form host fuel p hrun live hlive
  exact ⟨entries, live', hwrote, hlive', htranscribed.accounted hsound,
    htranscribed.answered hsound hlive' host⟩

end Runs

/-! A handler that, while it is called, takes off the handler that would be called next, registers
two others, emits its own event again and counts. -/

namespace Interfering

/-- One handler changes what is registered, unless it is called without a component; the other does
nothing. -/
def callbacks : Host HandlerId Bool where
  update _ previous := pure previous
  errors _ _ := pure []
  listen _ _ _ := pure ()
  handle acts form payload := if acts && payload.id?.isSome
    then do
      let id ← Program.memory
      let _ ← Program.unregister form (.external .change) id
      let _ ← Program.register form (.external .change) false
      let _ ← Program.register form (.external .change) false
      let _ ← Program.emit form (.external .change) .none
      let _ ← Program.count form (.external .change)
    else pure ()
  follow _ _ _ := pure ()

/-- Two handlers of one event, which is emitted twice; in between, the handler that is gone by then is
to be taken off. -/
def session : Program HandlerId Bool Unit := do
  let _ ← Program.register 0 (.external .change) true
  let id ← Program.register 0 (.external .change) false
  Program.setMemory id
  let _ ← Program.emit 0 (.external .change) (.component "a")
  let _ ← Program.unregister 0 (.external .change) id
  let _ ← Program.emit 0 (.external .change) .none

def created : LiveForm Bool := .create {} [] .null

def start : World HandlerId Bool := .start #[created] ⟨0, 0⟩

/-- How many handlers each emission called, in the order in which they were complete. -/
def completions (entries : List (Occurrence Bool)) : List Nat :=
  entries.filterMap fun o => match o with
    | .completed _ _ calls => some calls
    | _ => none

/-- What was answered to whoever took a handler off or counted handlers. -/
def answers (entries : List (Occurrence Bool)) : List (Bool ⊕ Nat) :=
  entries.filterMap fun o => match o with
    | .removed _ _ _ found => some (.inl found)
    | .polled _ _ count => some (.inr count)
    | _ => none

/-- The inner emission called the handler and the two new ones, the outer one the two that stood there
when it began, and the last one the handler and the two new ones. -/
structure Wrote (entries : List (Occurrence Bool)) : Prop where
  completed : completions entries = [3, 2, 3]
  answered : answers entries = [.inl true, .inr 3, .inl false]

instance (entries : List (Occurrence Bool)) : Decidable (Wrote entries) :=
  decidable_of_iff (completions entries = [3, 2, 3]
      ∧ answers entries = [.inl true, .inr 3, .inl false])
    ⟨fun h => ⟨h.1, h.2⟩, fun h => ⟨h.completed, h.answered⟩⟩

theorem run_start : ∃ w', session.run callbacks 8 start = .ok ((), w')
    ∧ Wrote w'.journal.reverse := by
  have hcheck : (session.run callbacks 8 start).toOption.any (fun result =>
      Wrote result.2.journal.reverse) = true := by
    decide +kernel
  obtain ⟨⟨_, w'⟩, hrun, hwrote⟩ := (Option.any_eq_true ..).1 hcheck
  exact ⟨w', toOption_eq_some.1 hrun, of_decide_eq_true hwrote⟩

end Interfering

open Interfering in
theorem run_delivers_reentrant : ∃ w' entries live',
    session.run callbacks 8 start = .ok ((), w') ∧ start.Wrote entries w'
      ∧ w'.form? 0 = some live' ∧ created.channels.Sound
      ∧ Accounted 0 entries created.channels live'.channels
      ∧ Answered callbacks 0 entries created.channels w'
      ∧ completions entries = [3, 2, 3]
      ∧ answers entries = [.inl true, .inr 3, .inl false] := by
  obtain ⟨w', hrun, hends⟩ := run_start
  have hsound : created.channels.Sound := LiveForm.sound_create {} [] .null
  obtain ⟨entries, live', hwrote, hlive', haccounted, hanswered⟩ :=
    run_delivers (show start.form? 0 = some created from rfl) hsound hrun
  have hjournal : w'.journal.reverse = entries := by
    rw [World.Wrote] at hwrote
    simp [hwrote, start, World.start]
  rw [hjournal] at hends
  exact ⟨w', entries, live', hrun, hwrote, hlive', hsound, haccounted, hanswered, hends.completed,
    hends.answered⟩

end FormTree
