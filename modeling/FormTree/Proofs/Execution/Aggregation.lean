import FormTree.Proofs.Execution.Orderly

/-!
# Aggregation of signals

Whatever program runs on a connected form, and however deep its emissions are nested in one another,
what it writes is orderly as long as no connection is removed.  It is shown first for an event
without connection, which is all that a connection ever emits, then for every event, and with the
induction over runs for every program.  `run_aggregates` says what this means for the queues of a
new form, for whoever counts them in the middle of a run, and for the announcements that its host
hears.
-/

namespace FormTree

variable {σ κ α : Type} {form : FormId} {event target : Event} {payload : Payload}
  {c : Channels κ}

/-! ## Progress -/

/-- Progress of a connected form: as long as no connection is removed, all is orderly. -/
def aggregating (form : FormId) : Progress σ κ form where
  rel w w' := ∀ live, w.form? form = some live → ∃ entries live', w.Wrote entries w'
    ∧ w'.form? form = some live' ∧ (live.channels.Connected → Spares form entries live.channels →
      Orderly form false entries live.channels live'.channels)
  refl w live hlive := ⟨[], live, World.wrote_nil.2 rfl, hlive, fun h _ => .refl h⟩
  trans := by
    intro u v w h₁ h₂ live hlive
    obtain ⟨first, between, hfirst, hbetween, horderly⟩ := h₁ live hlive
    obtain ⟨second, live', hsecond, hlive', horderly'⟩ := h₂ between hbetween
    refine ⟨first ++ second, live', hfirst.append hsecond, hlive', fun hconnected hspares => ?_⟩
    have h := horderly hconnected (hspares.mono (List.subset_append_left ..) fun _ _ => Iff.rfl)
    exact h.trans (horderly' h.connected (hspares.mono (List.subset_append_right ..) h.owns))
  frame entries hwrote hother hsame live hlive := ⟨entries, live, hwrote, hsame live hlive,
    fun h _ => .of_idle h (fun _ _ => Iff.rfl) rfl (fun o ho => idle_of_skip (.inl (hother o ho)))
      fun _ _ hcounted => absurd rfl (hother _ hcounted)⟩
  absent hnone _ hlive := nomatch hnone.symm.trans hlive

namespace Run

variable {w v w' : World σ κ} {live : LiveForm κ}

theorem note_aggregating {o : Occurrence κ} (hidle : o.Idle form false)
    (hcounted : ∀ queue size, o ≠ .counted form queue size) :
    Keeps (aggregating form) (note o : Run σ κ Unit) := by
  intro w _ w' hstep live hlive
  rw [note_eq_ok.1 hstep]
  refine ⟨[o], live, w.wrote_note o, hlive, fun h _ => ?_⟩
  exact .of_idle h (fun _ _ => Iff.rfl) rfl (List.forall_mem_singleton.2 hidle) fun queue size ho =>
    absurd (List.mem_singleton.1 ho).symm (hcounted queue size)

/-- Whoever counts a queue is told its size. -/
theorem count_aggregating {host : Host σ κ} {exec : {α : Type} → Program σ κ α → Run σ κ α}
    {fuel : Nat} (queue : Aggregate) :
    Keeps (aggregating form) (perform host exec fuel (.waiting form queue)) := by
  intro w _ w' hstep live hlive
  rw [perform_waiting hlive] at hstep
  cases hstep
  refine ⟨_, live, w.wrote_note _, hlive, fun h _ => .of_idle h (fun _ _ => Iff.rfl) rfl ?_ ?_⟩
  · exact List.forall_mem_singleton.2 (idle_of_skip (.inr id))
  · intro other size hcounted
    cases List.mem_singleton.1 hcounted
    rfl

theorem changeStore_aggregating (f : Store κ → α × Store κ) :
    Keeps (aggregating form) (changeStore form f : Run σ κ α) := by
  intro w a w' hstep live hlive
  rw [changeStore_of hlive] at hstep
  cases hstep
  exact ⟨[], _, World.wrote_nil.2 rfl, World.form?_setForm_self hlive _, fun h _ => .refl h⟩

theorem register_aggregating (event : Event) (name : κ) : Keeps (aggregating form)
    (changeChannels form (·.register event (.host name)) : Run σ κ HandlerId) := by
  intro w a w' hstep live hlive
  rw [changeChannels_of hlive] at hstep
  cases hstep
  refine ⟨[], _, World.wrote_nil.2 rfl, World.form?_setForm_self hlive _, fun h _ => ?_⟩
  exact .of_idle (h.register name) (fun _ _ => Channels.owns_register name)
    (Channels.queue_register _) (by simp) (by simp)

/-- A removal that takes away no connection. -/
theorem unregister_aggregating (event : Event) (id : HandlerId) : Keeps (aggregating form) (do
    let found ← changeChannels form (·.unregister event id)
    note (.removed form event id found)
    return found : Run σ κ Bool) := by
  intro w a w' hstep live hlive
  obtain ⟨found, v, hchange, hrest⟩ := bind_eq_ok.1 hstep
  obtain ⟨_, u, hnote, hdone⟩ := bind_eq_ok.1 hrest
  obtain ⟨-, rfl⟩ := pure_eq_ok.1 hdone
  rw [changeChannels_of hlive] at hchange
  cases hchange
  rw [note_eq_ok.1 hnote]
  refine ⟨[.removed form event id (live.channels.unregister event id).1], _, rfl,
    World.form?_setForm_self hlive _, fun h hspares => ?_⟩
  have hidle : ∀ o ∈ [(.removed form event id (live.channels.unregister event id).1 : Occurrence κ)],
      o.Idle form false := List.forall_mem_singleton.2 (idle_of_skip (.inr not_false))
  cases hfound : (live.channels.unregister event id).1 with
  | false =>
    simp only [Channels.unregister_eq_self hfound]
    exact .of_idle h (fun _ _ => Iff.rfl) rfl (hfound ▸ hidle) (by simp)
  | true =>
    have hown : ¬ live.channels.Owns event id := hspares event id (by simp [hfound])
    exact .of_idle (h.unregister hown) (fun _ _ => h.owns_unregister hown)
      Channels.queue_unregister (hfound ▸ hidle) (by simp)

/-! ## Emissions -/

/-- An emission on a connected form is orderly, whoever makes it. -/
def Emits (form : FormId) (event : Event) (payload : Payload) (w w' : World σ κ) : Prop :=
  ∀ live, w.form? form = some live → live.channels.Connected → ∃ entries live', w.Wrote entries w'
    ∧ w'.form? form = some live' ∧ (Spares form entries live.channels → ∀ wired,
      Orderly form wired entries live.channels live'.channels
        ∧ ∀ calls, (emissionsIn form (wired :: calls) entries).head? = some ⟨event, payload, wired⟩)

/-- A connection has taken an event in, and has emitted what is to be emitted. -/
def Answers (form : FormId) (event : Event) (payload : Payload) (live : LiveForm κ)
    (w w' : World σ κ) : Prop :=
  ∃ entries live' c started, w.Wrote entries w' ∧ w'.form? form = some live'
    ∧ Takes event payload started live.channels c ∧ (Spares form entries live.channels →
      Orderly form true entries c live'.channels
        ∧ ∀ calls, (emissionsIn form (true :: calls) entries).head?
          = started.map (⟨·, payload, true⟩))

section Connections

variable {host : Host σ κ} {exec : {α : Type} → Program σ κ α → Run σ κ α}
  (hlive : w.form? form = some live) (hconnected : live.channels.Connected)

include hconnected

theorem answers_of_none (hlive : w'.form? form = some { live with channels := c })
    (hjournal : w'.journal = w.journal) (htakes : Takes event payload none live.channels c) :
    Answers form event payload live w w' :=
  ⟨[], _, c, none, World.wrote_nil.2 hjournal, hlive, htakes,
    fun _ => ⟨.refl (htakes.connected hconnected), fun _ => rfl⟩⟩

theorem answers_of_some (hlive : v.form? form = some { live with channels := c })
    (hjournal : v.journal = w.journal) (htakes : Takes event payload (some target) live.channels c)
    (hemits : Emits form target payload v w') : Answers form event payload live w w' := by
  obtain ⟨entries, live', hwrote, hlive', horderly⟩ :=
    hemits _ hlive (htakes.connected hconnected)
  refine ⟨entries, live', c, some target, ?_, hlive', htakes, fun hspares => ?_⟩
  · rwa [World.Wrote, ← hjournal]
  · exact horderly (hspares.mono (List.Subset.refl _) htakes.owns) true

variable (hanswers : ∀ ⦃target v calls v'⦄, Connection.of? target = none →
  exec (Program.emit form target payload) v = .ok (calls, v') → Emits form target payload v v')

include hlive hanswers

/-- A queue is changed, and what the change starts is emitted. -/
theorem answers_of_change {f : Channels κ → Bool × Channels κ} (hof : Connection.of? target = none)
    (htakes : Takes event payload (if (f live.channels).1 then some target else none) live.channels
      (f live.channels).2)
    (hrun : (do
      if ← changeChannels form f then
        let _ ← exec (Program.emit form target payload) : Run σ κ Unit) w = .ok ((), w')) :
    Answers form event payload live w w' := by
  rw [bind_of_ok (changeChannels_of hlive f)] at hrun
  have hlive' := World.form?_setForm_self hlive { live with channels := (f live.channels).2 }
  cases hchanged : (f live.channels).1 with
  | false =>
    rw [hchanged] at hrun htakes
    rw [pure_of_ok hrun]
    exact answers_of_none hconnected hlive' rfl htakes
  | true =>
    rw [hchanged] at hrun htakes
    obtain ⟨calls, v, hemit, hdone⟩ := bind_eq_ok.1 hrun
    rw [pure_of_ok hdone]
    exact answers_of_some hconnected hlive' rfl htakes (hanswers hof hemit)

theorem connect_answers {connection : Connection} (hof : Connection.of? event = some connection)
    (hrun : connect exec form payload connection w = .ok ((), w')) :
    Answers form event payload live w w' := by
  cases connection with
  | relays target =>
    obtain ⟨calls, v, hemit, hdone⟩ := bind_eq_ok.1 hrun
    rw [pure_of_ok hdone]
    exact answers_of_some hconnected hlive rfl (takes_relays hof)
      (hanswers (Connection.of?_relays hof).2 hemit)
  | enters a =>
    cases hid : payload.id? with
    | none =>
      simp only [connect, hid] at hrun
      rw [pure_of_ok hrun]
      exact answers_of_none hconnected hlive rfl (takes_no_id (.inl hof) hid)
    | some name =>
      simp only [connect, hid] at hrun
      exact answers_of_change hlive hconnected hanswers (by cases a <;> rfl) (takes_insert hof hid)
        hrun
  | leaves a =>
    cases hid : payload.id? with
    | none =>
      simp only [connect, hid] at hrun
      rw [pure_of_ok hrun]
      exact answers_of_none hconnected hlive rfl (takes_no_id (.inr hof) hid)
    | some name =>
      simp only [connect, hid] at hrun
      exact answers_of_change hlive hconnected hanswers (by cases a <;> rfl) (takes_erase hof hid)
        hrun

end Connections

section Emissions

variable {host : Host σ κ} {exec : {α : Type} → Program σ κ α → Run σ κ α}
  (hhandle : ∀ name payload, Keeps (aggregating form) (exec (host.handle name form payload)))

include hhandle

/-- The calls of host code are orderly. -/
theorem hosts_orderly {hosts : List (HandlerId × Handler κ)}
    (hhosts : ∀ entry ∈ hosts, ∃ name, entry.2 = .host name) (hlive : w.form? form = some live)
    (hrun : (hosts.forM fun entry => do
        note (.delivered form event entry.1 entry.2 payload)
        deliver host exec form payload entry.2) w = .ok ((), w')) :
    ∃ entries live', w.Wrote entries w' ∧ w'.form? form = some live'
      ∧ (live.channels.Connected → Spares form entries live.channels →
        Orderly form false entries live.channels live'.channels)
      ∧ Hosted form entries := by
  have hcall : ∀ entry ∈ hosts,
      Keeps (aggregating form) (deliver host exec form payload entry.2) := by
    intro entry hentry
    obtain ⟨name, hname⟩ := hhosts entry hentry
    rw [hname]
    exact hhandle name payload
  have hnote : ∀ entry ∈ hosts, Keeps (aggregating form)
      (note (.delivered form event entry.1 entry.2 payload) : Run σ κ Unit) := by
    intro entry hentry
    obtain ⟨name, hname⟩ := hhosts entry hentry
    rw [hname]
    exact note_aggregating idle_host nofun
  -- the first call is the one that the entries begin with; of the others it is enough that they keep
  -- the order
  cases hosts with
  | nil =>
    rw [pure_of_ok hrun]
    exact ⟨[], live, World.wrote_nil.2 rfl, hlive, fun h _ => .refl h, .inl rfl⟩
  | cons first others =>
    have hothers : Keeps (aggregating form) (others.forM fun entry => do
        note (.delivered form event entry.1 entry.2 payload)
        deliver host exec form payload entry.2) := .forM fun entry hentry =>
      (hnote entry (.tail _ hentry)).bind fun _ => hcall entry (.tail _ hentry)
    obtain ⟨_, u, hdeliver, hrest⟩ := bind_eq_ok.1 hrun
    have hcalled := (bind_of_ok (note_ok _)).symm.trans hdeliver
    obtain ⟨entries, live', hwrote, hlive', horderly⟩ :=
      (aggregating form).trans (hcall first (.head _) hcalled) (hothers hrest) live hlive
    obtain ⟨name, hname⟩ := hhosts first (.head _)
    refine ⟨_ :: entries, live', (w.wrote_note _).append hwrote, hlive', fun h hspares => ?_,
      .inr ⟨event, first.1, name, payload, entries, by rw [hname]⟩⟩
    have hfirst : Orderly form false [.delivered form event first.1 first.2 payload]
        live.channels live.channels := by
      rw [hname]
      exact .of_idle h (fun _ _ => Iff.rfl) rfl (List.forall_mem_singleton.2 idle_host) (by simp)
    exact hfirst.trans (horderly h (hspares.mono (List.subset_cons_self ..) fun _ _ => Iff.rfl))

/-- An event without connection is emitted in an orderly way. -/
theorem emit_emits_of_none {count : Nat} (hof : Connection.of? event = none)
    (hrun : emit host exec form event payload w = .ok (count, w')) :
    Emits form event payload w w' := by
  intro live hlive hconnected
  obtain ⟨v, hcalls, rfl, rfl⟩ := (emit_eq_ok hlive).1 hrun
  have hbegun : (w.note (.emitted form event payload)).form? form = some live := hlive
  obtain ⟨entries, live', hwrote, hlive', horderly, -⟩ :=
    hosts_orderly hhandle ((hconnected.front event).of_none hof) hbegun hcalls
  refine ⟨_, live', ((w.wrote_note _).append hwrote).append (v.wrote_note _), hlive',
    fun hspares wired => ?_⟩
  have hrest := horderly hconnected (hspares.mono (by simp) fun _ _ => Iff.rfl)
  rw [List.append_assoc, List.singleton_append]
  exact Orderly.emission (takes_of_none hof) (.refl hconnected) (fun _ => rfl) hrest
    hrest.served_hosts

/-- Every event is emitted in an orderly way, if the events without connection are. -/
theorem emit_emits {count : Nat}
    (hanswers : ∀ ⦃target v calls v'⦄, Connection.of? target = none →
      exec (Program.emit form target payload) v = .ok (calls, v') → Emits form target payload v v')
    (hrun : emit host exec form event payload w = .ok (count, w')) :
    Emits form event payload w w' := by
  cases hof : Connection.of? event with
  | none => exact emit_emits_of_none hhandle hof hrun
  | some connection =>
    intro live hlive hconnected
    obtain ⟨v, hcalls, rfl, rfl⟩ := (emit_eq_ok hlive).1 hrun
    obtain ⟨id, hosts, hhandlers, hhosts⟩ := (hconnected.front event).of_some hof
    rw [hhandlers] at hcalls
    obtain ⟨_, u, hdeliver, hrest⟩ := bind_eq_ok.1 hcalls
    have hconnect := (bind_of_ok (note_ok _)).symm.trans hdeliver
    have hbegun : ((w.note (.emitted form event payload)).note
        (.delivered form event id (.connection connection) payload)).form? form = some live := hlive
    obtain ⟨z, between, b', started, hz, hbetween, htakes, horderly⟩ :=
      connect_answers hbegun hconnected hanswers hof hconnect
    obtain ⟨y, live', hy, hlive', horderly', hhosted⟩ :=
      hosts_orderly hhandle hhosts hbetween hrest
    have hwrote := (w.wrote_note _).append ((World.wrote_note _ _).append (hz.append hy))
    refine ⟨_, live', hwrote.append (v.wrote_note _), hlive', fun hspares wired => ?_⟩
    obtain ⟨horderly, hhead⟩ :=
      horderly (hspares.mono (fun o ho => by simp [ho]) fun _ _ => Iff.rfl)
    have hlast := horderly' horderly.connected (hspares.mono (fun o ho => by simp [ho])
      fun event id => (horderly.owns event id).trans (htakes.owns event id))
    exact Orderly.emission htakes horderly hhead hlast (horderly.served hlast hhosted)

end Emissions

/-! ## Calls on the form -/

section Calls

variable {host : Host σ κ} {fuel : Nat} (hless : ∀ less ≤ fuel, ∀ {α : Type} (p : Program σ κ α),
  Keeps (aggregating form) (p.run host less))

include hless

theorem emit_aggregating : Keeps (aggregating form)
    (emit host (Program.run host fuel) form event payload) := by
  intro w count w' hrun live hlive
  by_cases hconnected : live.channels.Connected
  · have hemits : Emits form event payload w w' := by
      refine emit_emits (fun _ _ => hless fuel (Nat.le_refl _) _)
        (fun target v calls v' hof h => ?_) hrun
      cases fuel with
      | zero => exact absurd h Program.run_zero_ne_ok
      | succ fuel =>
        rw [Program.run_emit] at h
        exact emit_emits_of_none (fun _ _ => hless fuel (Nat.le_succ _) _) hof h
    obtain ⟨entries, live', hwrote, hlive', horderly⟩ := hemits live hlive hconnected
    exact ⟨entries, live', hwrote, hlive', fun _ hspares => (horderly hspares false).1⟩
  · rw [← Program.run_emit] at hrun
    obtain ⟨entries, live', hwrote, hlive', -⟩ :=
      Program.run_growing form host _ _ hrun live hlive
    exact ⟨entries, live', hwrote, hlive', fun h => absurd h hconnected⟩

theorem perform_aggregating (c : Call σ κ) (hc : c.form? = some form) :
    Keeps (aggregating form) (perform host (Program.run host fuel) fuel c) := by
  have hnote : ∀ o : Occurrence κ, ¬ o.OfEmission → (∀ queue size, o ≠ .counted form queue size) →
      Keeps (aggregating form) (note o : Run σ κ Unit) :=
    fun _ ho hcounted => note_aggregating (idle_of_skip (.inr ho)) hcounted
  have hbatch : ∀ o : Occurrence κ, o.form = form → o.OfBatch →
      Keeps (aggregating form) (note o : Run σ κ Unit) := by
    intro o _ ho
    refine hnote o ho.not_ofEmission ?_
    rintro _ _ rfl
    exact ho
  cases c with
  | memory | setMemory _ | create _ _ _ => cases hc
  | look other =>
    cases hc
    exact (Keeps.store form).bind fun _ => Keeps.bind (hnote _ id nofun) fun _ => Keeps.pure _
  | profile other => exact (Keeps.live _).bind fun _ => Keeps.pure _
  | count other event =>
    cases hc
    exact (Keeps.live form).bind fun _ => Keeps.bind (hnote _ id nofun) fun _ => Keeps.pure _
  | waiting other queue =>
    cases hc
    exact count_aggregating queue
  | submit other submission =>
    cases hc
    exact submit_keeps host.uses_true (fun p _ => hless fuel (Nat.le_refl _) p) trivial
      (fun _ _ => trivial) submission (fun o ho hb _ => hbatch o ho hb) changeStore_aggregating
  | subscribe other name | unsubscribe other listener =>
    cases hc
    exact (changeStore_aggregating _).bind fun _ =>
      Keeps.bind (hnote _ id nofun) fun _ => Keeps.pure _
  | register other event name =>
    cases hc
    exact (register_aggregating event name).bind fun _ =>
      Keeps.bind (hnote _ id nofun) fun _ => Keeps.pure _
  | unregister other event handler =>
    cases hc
    exact unregister_aggregating event handler
  | emit other event payload =>
    cases hc
    exact emit_aggregating hless

end Calls

end Run

/-- Every run keeps a connected form orderly. -/
theorem Program.run_aggregating (form : FormId) (host : Host σ κ) (fuel : Nat)
    (p : Program σ κ α) : Run.Keeps (aggregating form) (p.run host fuel) :=
  Program.keeps host.uses_true (fun _ _ => trivial)
    (fun _ hless c _ hc =>
      Run.perform_aggregating (fun less hle _ p => hless less hle p p.uses_true) c hc)
    fuel p p.uses_true

/-! ## Queues and announcements of a new form -/

/-- The queues of a form hold what the journal says, and the form announces and passes on by itself
exactly what it has to. -/
structure Aggregated (form : FormId) (entries : List (Occurrence κ)) (b : Channels κ) : Prop where
  /-- A queue holds the ids whose latest signal was the one that enters. -/
  mem_queue : ∀ a id, id ∈ b.queue a ↔ id ∈ held a (emissions form entries)
  size_queue : ∀ a, (b.queue a).size = (held a (emissions form entries)).card
  /-- What the form emits by itself stands directly behind the emission that starts it, with the
  same payload. -/
  starts : ∀ earlier e later, emissions form entries = earlier ++ e :: later →
    ∀ target payload, later.head? = some ⟨target, payload, true⟩
      ↔ payload = e.payload ∧ Starts earlier e target
  unprompted : Unprompted (emissions form entries)
  /-- Whoever counted a queue, at whatever moment, was told how many ids were held then. -/
  counts : ∀ before queue size after, entries = before ++ .counted form queue size :: after →
    size = (held queue (emissions form before)).card
  turns : ∀ a, InTurn (.external a.onFirst) (.external a.onEmpty)
    (announcements a (emissions form entries))

/-- Whatever runs on a new form, at any depth, its queues and announcements are exact, and the size
of a queue can be asked for. -/
theorem run_aggregates {w w' : World σ κ} {live : LiveForm κ} {host : Host σ κ} {fuel : Nat}
    {p : Program σ κ α} {a : α} (hosts : List (Event × κ)) (hlive : w.form? form = some live)
    (hnew : live.channels
      = Channels.connected.registerAll (hosts.map fun entry => (entry.1, .host entry.2)))
    (hrun : p.run host fuel w = .ok (a, w')) :
    ∃ entries live', w.Wrote entries w' ∧ w'.form? form = some live'
      ∧ (Spares form entries live.channels → Aggregated form entries live'.channels
        ∧ ∀ queue depth, ((Program.waiting form queue).run host (depth + 1) w').map Prod.fst
          = .ok (held queue (emissions form entries)).card) := by
  obtain ⟨entries, live', hwrote, hlive', horderly⟩ :=
    Program.run_aggregating form host fuel p hrun live hlive
  refine ⟨entries, live', hwrote, hlive', fun hspares => ?_⟩
  have hconnected : live.channels.Connected := hnew ▸ Channels.connected_registerAll hosts
  have hempty : Holds [] live.channels.queue := by
    rw [hnew, Channels.queue_registerAll]
    exact Channels.queue_connected ▸ Holds.nil
  have h := horderly hconnected hspares
  have hholds : Holds (emissions form entries) live'.channels.queue := h.holds [] [] hempty
  have hreacts := h.reacts [] [] hempty
  refine ⟨⟨hholds, fun a => hholds.size_eq, fun earlier e later hsplit target payload => ?_,
    h.unprompted [], h.tallied [] [] hempty, fun a => hreacts.inTurn (h.unprompted [])⟩,
    fun queue depth => ?_⟩
  · rw [emissions] at hsplit
    rw [hsplit] at hreacts
    exact hreacts.head?_iff
  · rw [Program.run_waiting hlive', ← hholds.size_eq]
    rfl

/-! A form whose host gives up what it just heard to be busy, in the middle of the announcement, and
counts what is busy before and after that. -/

namespace Yielding

/-- One handler makes a busy component idle again, the other does nothing. -/
def callbacks : Host Unit Bool where
  update _ previous := pure previous
  errors _ _ := pure []
  listen _ _ _ := pure ()
  handle yields form payload := if yields
    then do
      let _ ← Program.waiting form .busy
      let _ ← Program.emit form (.internal .fieldIdle) payload
      let _ ← Program.waiting form .busy
    else pure ()
  follow _ _ _ := pure ()

/-- Signals of all kinds, with a handler that is registered and removed in between. -/
def session : Program Unit Bool Unit := do
  let id ← Program.register 0 (.external .busy) true
  let _ ← Program.emit 0 (.internal .fieldBusy) (.component "a")
  let _ ← Program.unregister 0 (.external .busy) id
  let _ ← Program.emit 0 (.internal .fieldBusy) (.component "b")
  let _ ← Program.emit 0 (.internal .fieldBusy) .none
  let _ ← Program.emit 0 (.internal .fieldInvalid) (.field "b" none)
  let _ ← Program.emit 0 (.external .fieldEdit) (.field "b" none)

/-- The form, with a handler from the beginning on. -/
def created : LiveForm Bool := .create {} [(.idle, false)] .null

def start : World Unit Bool := .start #[created] ()

/-- What the host was told when it counted. -/
def counts (entries : List (Occurrence Bool)) : List Nat :=
  entries.filterMap fun o => match o with
    | .counted _ _ size => some size
    | _ => none

/-- What the run wrote: only handlers of events without connection were removed, the host heard of
the busy queue three times, and counted one and then nothing in the first announcement. -/
structure Wrote (entries : List (Occurrence Bool)) : Prop where
  removed : entries.all Occurrence.sparing = true
  announced : announcements .busy (emissions 0 entries)
    = [.external .busy, .external .idle, .external .busy]
  counted : counts entries = [1, 0]
  held : held .busy (emissions 0 entries) = {"b"}

instance (entries : List (Occurrence Bool)) : Decidable (Wrote entries) :=
  decidable_of_iff (entries.all Occurrence.sparing = true
      ∧ announcements .busy (emissions 0 entries)
        = [.external .busy, .external .idle, .external .busy]
      ∧ counts entries = [1, 0] ∧ FormTree.held .busy (emissions 0 entries) = {"b"})
    ⟨fun h => ⟨h.1, h.2.1, h.2.2.1, h.2.2.2⟩,
      fun h => ⟨h.removed, h.announced, h.counted, h.held⟩⟩

theorem run_start : ∃ w', session.run callbacks 8 start = .ok ((), w')
    ∧ Wrote w'.journal.reverse := by
  have hcheck : (session.run callbacks 8 start).toOption.any (fun result =>
      Wrote result.2.journal.reverse) = true := by
    decide +kernel
  obtain ⟨⟨_, w'⟩, hrun, hwrote⟩ := (Option.any_eq_true ..).1 hcheck
  exact ⟨w', toOption_eq_some.1 hrun, of_decide_eq_true hwrote⟩

end Yielding

open Yielding in
theorem run_aggregates_nested : ∃ w' entries live', session.run callbacks 8 start = .ok ((), w')
    ∧ start.Wrote entries w' ∧ w'.form? 0 = some live' ∧ Spares 0 entries created.channels
    ∧ Aggregated 0 entries live'.channels
    ∧ announcements .busy (emissions 0 entries)
      = [.external .busy, .external .idle, .external .busy]
    ∧ counts entries = [1, 0]
    ∧ held .busy (emissions 0 entries) = {"b"}
    ∧ ((Program.waiting 0 .busy).run callbacks 1 w').map Prod.fst = .ok 1 := by
  obtain ⟨w', hrun, hends⟩ := run_start
  have hlive : start.form? 0 = some created := rfl
  obtain ⟨entries, live', hwrote, hlive', haggregated⟩ :=
    run_aggregates [(.external .idle, false)] hlive rfl hrun
  have hjournal : w'.journal.reverse = entries := by
    rw [World.Wrote] at hwrote
    simp [hwrote, start, World.start]
  rw [hjournal] at hends
  have hconnected : created.channels.Connected :=
    Channels.connected_registerAll [(.external .idle, false)]
  have hspares : Spares 0 entries created.channels := hconnected.spares hends.removed
  obtain ⟨haggregated, hwaiting⟩ := haggregated hspares
  refine ⟨w', entries, live', hrun, hwrote, hlive', hspares, haggregated, hends.announced,
    hends.counted, hends.held, ?_⟩
  rw [hwaiting .busy 0, hends.held, Finset.card_singleton]

end FormTree
