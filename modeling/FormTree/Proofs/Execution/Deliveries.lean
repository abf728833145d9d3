import FormTree.Proofs.Channel.Registrations
import FormTree.Proofs.Execution.Progress

/-!
# Handlers in the journal

The journal has every registration and every removal of a handler, so the channels of a form can be
worked out from it (`Channels.replay`), except for what their queues hold.  Emissions can be nested:
what one emission writes by itself, its calls and its completion, stands between the entries of the
emissions that begin inside it.  `course` reads the entries of one emission and counts the others
that are under way.

`Faithful` says that each entry agrees with the channels before it: a registration gets the next id,
a removal and a count answer what the channels say, and an emission calls the handlers that stand
behind its event when it begins, whatever is registered and removed meanwhile.  Whatever host code
runs writes faithful entries, and leaves no emission of its own under way (`Program.run_transcribes`).
-/

namespace FormTree

variable {σ κ α : Type} {form : FormId} {event : Event} {payload : Payload} {id : HandlerId}
  {b c d : Channels κ}

/-! ## Channels from the journal -/

namespace Channels

/-- The channels with empty queues. -/
def unqueued (b : Channels κ) : Channels κ := { b with busy := .empty, invalid := .empty }

/-- The channels of a form after an entry of the journal, but for the queues. -/
def after (form : FormId) (b : Channels κ) : Occurrence κ → Channels κ
  | .registered other event _ name => if other = form then (b.register event (.host name)).2 else b
  | .removed other event id _ => if other = form then (b.unregister event id).2 else b
  | _ => b

/-- The channels of a form after entries of the journal, but for the queues. -/
def replay (form : FormId) (b : Channels κ) (entries : List (Occurrence κ)) : Channels κ :=
  entries.foldl (after form) b

@[simp] theorem handlers_unqueued (b : Channels κ) : b.unqueued.handlers = b.handlers := by
  funext event
  cases event <;> rfl

@[simp] theorem unqueued_setQueue (b : Channels κ) (a : Aggregate) (q : IdQueue) :
    (b.setQueue a q).unqueued = b.unqueued := by
  cases a <;> rfl

theorem unqueued_register (b : Channels κ) (event : Event) (handler : Handler κ) :
    (b.register event handler).2.unqueued = (b.unqueued.register event handler).2 := by
  cases event <;> rfl

theorem unqueued_unregister (b : Channels κ) (event : Event) (id : HandlerId) :
    (b.unregister event id).2.unqueued = (b.unqueued.unregister event id).2 := by
  cases event <;> rfl

theorem Sound.unqueued (h : b.Sound) : b.unqueued.Sound := ⟨h.internal, h.external⟩

end Channels

/-! ## The course of an emission -/

/-- The entries that an emission on a form writes by itself, from where it is under way: its calls
and its completion.  Inside it, `depth` further emissions are under way. -/
def course (form : FormId) : Nat → List (Occurrence κ) → List (Occurrence κ)
  | _, [] => []
  | depth, o :: rest =>
    if o.form = form then
      match o, depth with
      | .emitted .., depth => course form (depth + 1) rest
      | .delivered .., 0 => o :: course form 0 rest
      | .completed .., 0 => [o]
      | .completed .., depth + 1 => course form depth rest
      | _, depth => course form depth rest
    else course form depth rest

/-- The entries of an emission that calls the given handlers, each once and in this order. -/
def emissionOf (form : FormId) (event : Event) (payload : Payload)
    (handlers : List (HandlerId × Handler κ)) : List (Occurrence κ) :=
  handlers.map (fun entry => .delivered form event entry.1 entry.2 payload)
    ++ [.completed form event handlers.length]

/-- Every emission on the form that begins in the entries is complete in them, and no other is
furthered: who reads an emission passes over them. -/
def PassedOver (form : FormId) (entries : List (Occurrence κ)) : Prop :=
  ∀ depth more, course form depth (entries ++ more) = course form depth more

section Course

variable {depth count : Nat} {o : Occurrence κ} {handler : Handler κ}
  {first second rest : List (Occurrence κ)}

theorem course_emitted : course form depth (.emitted form event payload :: rest)
    = course form (depth + 1) rest := by
  simp [course, Occurrence.form]

theorem course_delivered : course form 0 (.delivered form event id handler payload :: rest)
    = .delivered form event id handler payload :: course form 0 rest := by
  simp [course, Occurrence.form]

theorem course_delivered_inside :
    course form (depth + 1) (.delivered form event id handler payload :: rest)
      = course form (depth + 1) rest := by
  simp [course, Occurrence.form]

theorem course_completed : course form 0 (.completed form event count :: rest)
    = [.completed form event count] := by
  simp [course, Occurrence.form]

theorem course_completed_inside : course form (depth + 1) (.completed form event count :: rest)
    = course form depth rest := by
  simp [course, Occurrence.form]

/-- What is about another form, or belongs to no emission, is passed over. -/
theorem passedOver_entry (h : o.form ≠ form ∨ ¬ o.OfEmission) : PassedOver form [o] := by
  intro depth more
  by_cases hform : o.form = form
  · have hskip := h.resolve_left (not_not.2 hform)
    cases o <;> first | exact if_pos hform | exact absurd trivial hskip
  · exact if_neg hform

theorem passedOver_nil : PassedOver form ([] : List (Occurrence κ)) := fun _ _ => rfl

theorem PassedOver.append (h₁ : PassedOver form first) (h₂ : PassedOver form second) :
    PassedOver form (first ++ second) := by
  intro depth more
  rw [List.append_assoc, h₁, h₂]

end Course

/-! ## Faithful entries -/

/-- An entry about the form agrees with the channels before it, and with what is written behind it.
-/
def Occurrence.Agrees (form : FormId) (b : Channels κ) (rest : List (Occurrence κ)) :
    Occurrence κ → Prop
  | .registered other event id name => other = form → id = (b.register event (.host name)).1
  | .removed other event id found => other = form → found = (b.unregister event id).1
  | .polled other event count => other = form → count = b.count event
  | .emitted other event payload => other = form →
    ∀ more, course form 0 (rest ++ more) = emissionOf form event payload (b.handlers event)
  | _ => True

/-- Every entry agrees with the channels before it. -/
def Faithful (form : FormId) : Channels κ → List (Occurrence κ) → Prop
  | _, [] => True
  | b, o :: rest => o.Agrees form b rest ∧ Faithful form (b.after form o) rest

section Faithful

variable {o : Occurrence κ} {first second rest : List (Occurrence κ)}

theorem Channels.replay_append (b : Channels κ) (first second : List (Occurrence κ)) :
    b.replay form (first ++ second) = (b.replay form first).replay form second :=
  List.foldl_append

/-- Further entries behind it leave an agreement as it is. -/
theorem Occurrence.Agrees.append (h : o.Agrees form b first) (second : List (Occurrence κ)) :
    o.Agrees form b (first ++ second) := by
  cases o with
  | emitted other event payload =>
    intro hform more
    rw [List.append_assoc]
    exact h hform _
  | _ => exact h

theorem Faithful.append (h₁ : Faithful form b first)
    (h₂ : Faithful form (b.replay form first) second) : Faithful form b (first ++ second) := by
  induction first generalizing b with
  | nil => exact h₂
  | cons o rest ih => exact ⟨h₁.1.append second, ih h₁.2 h₂⟩

/-- An entry agrees with the channels that the entries before it lead to. -/
theorem Faithful.agrees (h : Faithful form b (first ++ o :: rest)) :
    o.Agrees form (b.replay form first) rest := by
  induction first generalizing b with
  | nil => exact h.1
  | cons _ _ ih => exact ih h.2

end Faithful

/-- What happened between two states of the channels of a form: faithful entries that lead from one
to the other, with no emission left under way. -/
structure Transcribed (form : FormId) (entries : List (Occurrence κ)) (b c : Channels κ) : Prop where
  faithful : Faithful form b.unqueued entries
  passedOver : PassedOver form entries
  leads : c.unqueued = b.unqueued.replay form entries

namespace Transcribed

variable {o : Occurrence κ} {first second entries : List (Occurrence κ)}

theorem nil (h : c.unqueued = b.unqueued) : Transcribed form [] b c := ⟨trivial, passedOver_nil, h⟩

theorem append (h₁ : Transcribed form first b c) (h₂ : Transcribed form second c d) :
    Transcribed form (first ++ second) b d := by
  refine ⟨h₁.faithful.append ?_, h₁.passedOver.append h₂.passedOver, ?_⟩
  · rw [← h₁.leads]
    exact h₂.faithful
  · rw [Channels.replay_append, ← h₁.leads]
    exact h₂.leads

/-- A single entry that belongs to no emission on the form. -/
theorem entry (hskip : o.form ≠ form ∨ ¬ o.OfEmission) (hagrees : o.Agrees form b.unqueued [])
    (hleads : c.unqueued = b.unqueued.after form o) : Transcribed form [o] b c :=
  ⟨⟨hagrees, trivial⟩, passedOver_entry hskip, hleads⟩

/-- Entries about other forms. -/
theorem of_form_ne (h : ∀ o ∈ entries, o.form ≠ form) : Transcribed form entries b b := by
  induction entries with
  | nil => exact nil rfl
  | cons o rest ih =>
    obtain ⟨hfirst, hrest⟩ := List.forall_mem_cons.1 h
    have hentry : Transcribed form [o] b b := by
      refine entry (.inl hfirst) ?_ ?_
      · cases o <;> first | trivial | exact fun hform => absurd hform hfirst
      · cases o <;> first | rfl | exact (if_neg hfirst).symm
    exact hentry.append (ih hrest)

end Transcribed

/-! ## Progress -/

/-- Progress of a form: its handlers are as the journal says. -/
def transcribing (form : FormId) : Progress σ κ form where
  rel w w' := ∀ live, w.form? form = some live → ∃ entries live', w.Wrote entries w'
    ∧ w'.form? form = some live' ∧ Transcribed form entries live.channels live'.channels
  refl w live hlive := ⟨[], live, World.wrote_nil.2 rfl, hlive, .nil rfl⟩
  trans := by
    intro u v w h₁ h₂ live hlive
    obtain ⟨first, between, hfirst, hbetween, htranscribed⟩ := h₁ live hlive
    obtain ⟨second, live', hsecond, hlive', htranscribed'⟩ := h₂ between hbetween
    exact ⟨first ++ second, live', hfirst.append hsecond, hlive', htranscribed.append htranscribed'⟩
  frame entries hwrote hother hsame live hlive :=
    ⟨entries, live, hwrote, hsame live hlive, .of_form_ne hother⟩
  absent hnone _ hlive := nomatch hnone.symm.trans hlive

namespace Run

variable {w v w' : World σ κ} {live : LiveForm κ}

/-- An entry that belongs to no emission and says nothing about handlers. -/
theorem note_transcribing {o : Occurrence κ} (hskip : ¬ o.OfEmission)
    (hagrees : ∀ b : Channels κ, o.Agrees form b []) (hsame : ∀ b : Channels κ, b.after form o = b) :
    Keeps (transcribing form) (note o : Run σ κ Unit) := by
  intro w _ w' hstep live hlive
  rw [note_eq_ok.1 hstep]
  exact ⟨[o], live, w.wrote_note o, hlive, .entry (.inr hskip) (hagrees _) (hsame _).symm⟩

theorem changeStore_transcribing (f : Store κ → α × Store κ) :
    Keeps (transcribing form) (changeStore form f : Run σ κ α) := by
  intro w a w' hstep live hlive
  rw [changeStore_of hlive] at hstep
  cases hstep
  exact ⟨[], _, World.wrote_nil.2 rfl, World.form?_setForm_self hlive _, .nil rfl⟩

/-- A change of a queue. -/
theorem changeQueue_transcribing {f : Channels κ → Bool × Channels κ}
    (hf : ∀ b, ∃ a q, (f b).2 = b.setQueue a q) :
    Keeps (transcribing form) (changeChannels form f : Run σ κ Bool) := by
  intro w a w' hstep live hlive
  rw [changeChannels_of hlive] at hstep
  cases hstep
  obtain ⟨a, q, hq⟩ := hf live.channels
  refine ⟨[], _, World.wrote_nil.2 rfl, World.form?_setForm_self hlive _, .nil ?_⟩
  rw [hq, Channels.unqueued_setQueue]

/-- A change of the handlers that is written down. -/
theorem changeChannels_note_transcribing {f : Channels κ → α × Channels κ} {o : α → Occurrence κ}
    (hskip : ∀ a, ¬ (o a).OfEmission)
    (hf : ∀ b : Channels κ, (o (f b).1).Agrees form b.unqueued []
      ∧ (f b).2.unqueued = b.unqueued.after form (o (f b).1)) :
    Keeps (transcribing form)
      (do let a ← changeChannels form f; note (o a); return a : Run σ κ α) := by
  intro w a w' hstep live hlive
  rw [bind_of_ok (changeChannels_of hlive f), bind_of_ok (note_ok _)] at hstep
  rw [pure_of_ok hstep]
  obtain ⟨hagrees, hleads⟩ := hf live.channels
  exact ⟨_, _, by simp [World.Wrote], World.form?_setForm_self hlive _,
    .entry (.inr (hskip _)) hagrees hleads⟩

/-! ## Emissions -/

section Emissions

variable {host : Host σ κ} {exec : {α : Type} → Program σ κ α → Run σ κ α}

/-- The calls of an emission, one handler after the other: between them stands what the handlers
write, which is passed over. -/
theorem deliverAll_transcribed {handlers : List (HandlerId × Handler κ)}
    (hdeliver : ∀ handler, Keeps (transcribing form) (deliver host exec form payload handler))
    (hlive : w.form? form = some live)
    (hrun : (handlers.forM fun entry => do
        note (.delivered form event entry.1 entry.2 payload)
        deliver host exec form payload entry.2) w = .ok ((), w')) :
    ∃ entries live', w.Wrote entries w' ∧ w'.form? form = some live'
      ∧ Faithful form live.channels.unqueued entries
      ∧ live'.channels.unqueued = live.channels.unqueued.replay form entries
      ∧ (∀ depth more, course form (depth + 1) (entries ++ more) = course form (depth + 1) more)
      ∧ ∀ more, course form 0 (entries ++ more)
        = handlers.map (fun entry => .delivered form event entry.1 entry.2 payload)
          ++ course form 0 more := by
  induction handlers generalizing w live with
  | nil =>
    rw [pure_of_ok hrun]
    exact ⟨[], live, World.wrote_nil.2 rfl, hlive, trivial, rfl, fun _ _ => rfl, fun _ => rfl⟩
  | cons first others ih =>
    obtain ⟨_, v, hcall, hrest⟩ := bind_eq_ok.1 hrun
    have hcalled := (bind_of_ok (note_ok _)).symm.trans hcall
    -- what the first handler writes ends at the depth at which it began, so it is passed over
    obtain ⟨inside, between, hinside, hbetween, htranscribed⟩ := hdeliver first.2 hcalled live hlive
    obtain ⟨entries, live', hwrote, hlive', hfaithful, hleads, hunder, hcourse⟩ := ih hbetween hrest
    have hsplit : live.channels.unqueued.replay form inside = between.channels.unqueued :=
      htranscribed.leads.symm
    refine ⟨_, live', (w.wrote_note _).append (hinside.append hwrote), hlive', ?_, ?_, ?_, ?_⟩
    · refine ⟨trivial, htranscribed.faithful.append ?_⟩
      rwa [hsplit]
    · show _ = live.channels.unqueued.replay form (inside ++ entries)
      rw [Channels.replay_append, hsplit, hleads]
    · intro depth more
      rw [List.singleton_append, List.cons_append, course_delivered_inside, List.append_assoc,
        htranscribed.passedOver, hunder]
    · intro more
      rw [List.singleton_append, List.cons_append, course_delivered, List.append_assoc,
        htranscribed.passedOver, hcourse]
      rfl

/-- An emission calls the handlers that stand behind the event when it begins. -/
theorem emit_transcribing
    (hdeliver : ∀ handler, Keeps (transcribing form) (deliver host exec form payload handler)) :
    Keeps (transcribing form) (emit host exec form event payload) := by
  intro w calls w' hrun live hlive
  obtain ⟨v, hcalls, rfl, rfl⟩ := (emit_eq_ok hlive).1 hrun
  have hbegun : (w.note (.emitted form event payload)).form? form = some live := hlive
  obtain ⟨entries, live', hwrote, hlive', hfaithful, hleads, hunder, hcourse⟩ :=
    deliverAll_transcribed hdeliver hbegun hcalls
  refine ⟨_, live', (w.wrote_note _).append (hwrote.append (v.wrote_note _)), hlive', ?_, ?_, ?_⟩
  · refine ⟨fun _ more => ?_, hfaithful.append ⟨trivial, trivial⟩⟩
    show course form 0 ((entries ++ [_]) ++ more) = _
    rw [List.append_assoc, hcourse, List.singleton_append, course_completed, emissionOf,
      Channels.handlers_unqueued]
  · intro depth more
    rw [List.singleton_append, List.cons_append, course_emitted, List.append_assoc, hunder,
      List.singleton_append, course_completed_inside]
  · show _ = live.channels.unqueued.replay form (entries ++ [_])
    rw [Channels.replay_append, ← hleads]
    rfl

end Emissions

/-! ## Calls on the form -/

/-- Every call on the form writes faithful entries. -/
theorem perform_transcribing {host : Host σ κ} {fuel : Nat}
    (hexec : ∀ {α : Type} (p : Program σ κ α), Keeps (transcribing form) (p.run host fuel))
    (c : Call σ κ) (hc : c.form? = some form) :
    Keeps (transcribing form) (perform host (Program.run host fuel) fuel c) := by
  cases c with
  | memory | setMemory _ | create _ _ _ => cases hc
  | look other =>
    cases hc
    exact (Keeps.store form).bind fun _ =>
      Keeps.bind (note_transcribing id (fun _ => trivial) fun _ => rfl) fun _ => Keeps.pure _
  | profile other => exact (Keeps.live _).bind fun _ => Keeps.pure _
  | waiting other queue =>
    cases hc
    exact (Keeps.live form).bind fun _ =>
      Keeps.bind (note_transcribing id (fun _ => trivial) fun _ => rfl) fun _ => Keeps.pure _
  | count other event =>
    cases hc
    intro w count w' hstep live hlive
    rw [perform_count hlive] at hstep
    cases hstep
    refine ⟨_, live, w.wrote_note _, hlive, .entry (.inr id) (fun _ => ?_) rfl⟩
    simp only [Channels.count, Channels.handlers_unqueued]
  | submit other submission =>
    cases hc
    refine submit_keeps host.uses_true (fun p _ => hexec p) trivial (fun _ _ => trivial) submission
      (fun o _ ho _ => ?_) changeStore_transcribing
    refine note_transcribing ho.not_ofEmission (fun b => ?_) fun b => ?_
    · cases o <;> first | exact ho.elim | trivial
    · cases o <;> first | rfl | exact ho.elim
  | subscribe other name | unsubscribe other listener =>
    cases hc
    exact (changeStore_transcribing _).bind fun _ =>
      Keeps.bind (note_transcribing id (fun _ => trivial) fun _ => rfl) fun _ => Keeps.pure _
  | register other event name =>
    cases hc
    refine changeChannels_note_transcribing (o := fun id => .registered form event id name)
      (fun _ => id) fun b => ⟨fun _ => ?_, ?_⟩
    · cases event <;> rfl
    · simp only [Channels.after, if_pos, Channels.unqueued_register]
  | unregister other event handler =>
    cases hc
    refine changeChannels_note_transcribing (o := fun found => .removed form event handler found)
      (fun _ => id) fun b => ⟨fun _ => ?_, ?_⟩
    · cases event <;> rfl
    · simp only [Channels.after, if_pos, Channels.unqueued_unregister]
  | emit other event payload =>
    cases hc
    exact emit_transcribing fun handler => deliver_keeps (fun _ _ => hexec _) (fun _ _ => hexec _)
      (fun _ hf => changeQueue_transcribing hf) payload handler

end Run

/-- Whatever runs, the journal is faithful about the handlers of a form. -/
theorem Program.run_transcribes (form : FormId) (host : Host σ κ) (fuel : Nat)
    (p : Program σ κ α) : Run.Keeps (transcribing form) (p.run host fuel) :=
  Program.keeps host.uses_true (fun _ _ => trivial)
    (fun fuel hless c _ hc =>
      Run.perform_transcribing (fun p => hless fuel (Nat.le_refl _) p p.uses_true) c hc)
    fuel p p.uses_true

end FormTree
