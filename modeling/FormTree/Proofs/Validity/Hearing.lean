import FormTree.Proofs.Channel.Connected
import FormTree.Proofs.Channel.Emissions
import FormTree.Proofs.Validity.Settling

/-!
# What the host hears of invalid names

Host code that is registered for both events by which a form tells of invalid names is called with
the one and with the other in turn: each time a name is invalid after none was, and each time none is
after some were.  The form tells of it in the report of a verdict only, so nothing is heard while host
code runs amid a dispatch, and the calls follow the verdicts.

`Hears` says so of a stretch of the journal between two states of the channels, and `hearing` is the
progress of a form on which it holds.  Nothing is assumed of the handlers that come and go meanwhile,
as long as neither of the two is removed itself.
-/

namespace FormTree

variable {σ κ α : Type} {form : FormId}

/-! ## Being told -/

/-- The event by which the host is told that a name is invalid, or that none is. -/
def told : Bool → HostEvent
  | true => .invalid
  | false => .valid

theorem tellsValidity_told (invalid : Bool) : (Event.external (told invalid)).TellsValidity := by
  cases invalid <;> simp [told, Event.TellsValidity]

theorem of?_told (invalid : Bool) : Connection.of? (.external (told invalid)) = none := by
  cases invalid <;> rfl

/-- Whether there is an invalid name. -/
def Channels.troubled (b : Channels κ) : Bool := !b.invalid.members.isEmpty

namespace Channels

variable {b : Channels κ} {name : String}

theorem troubled_eq_true : b.troubled = true ↔ b.invalid.members ≠ [] := by
  simp [troubled]

theorem troubled_eq_false : b.troubled = false ↔ b.invalid.members = [] := by
  simp [troubled]

theorem members_insert_ne (q : IdQueue) : (q.insert name).2.members ≠ [] :=
  List.ne_nil_of_mem (IdQueue.mem_insert.2 (.inl rfl))

/-- The first name that enters makes the difference. -/
theorem troubled_of_insertId (h : (b.insertId .invalid name).1 = true) :
    b.troubled = false ∧ (b.insertId .invalid name).2.troubled = true :=
  ⟨troubled_eq_false.2 (IdQueue.insert_fst.1 h), troubled_eq_true.2 (members_insert_ne _)⟩

theorem troubled_of_insertId_still (h : (b.insertId .invalid name).1 = false) :
    (b.insertId .invalid name).2.troubled = b.troubled := by
  have hsome : b.troubled = true :=
    troubled_eq_true.2 (mt IdQueue.insert_fst.2 (Bool.eq_false_iff.1 h))
  exact (troubled_eq_true.2 (members_insert_ne _)).trans hsome.symm

/-- So does the last name that leaves. -/
theorem troubled_of_eraseId (h : (b.eraseId .invalid name).1 = true) :
    b.troubled = true ∧ (b.eraseId .invalid name).2.troubled = false := by
  obtain ⟨hmem, hnone⟩ := IdQueue.erase_fst.1 h
  exact ⟨troubled_eq_true.2 (List.ne_nil_of_mem hmem), troubled_eq_false.2 hnone⟩

theorem troubled_of_eraseId_still (h : (b.eraseId .invalid name).1 = false) :
    (b.eraseId .invalid name).2.troubled = b.troubled := by
  by_cases hmem : name ∈ b.invalid
  · have hleft : (b.invalid.erase name).2.members ≠ [] := fun hnone =>
      Bool.eq_false_iff.1 h (IdQueue.erase_fst.2 ⟨hmem, hnone⟩)
    rw [troubled_eq_true.2 (List.ne_nil_of_mem hmem)]
    exact troubled_eq_true.2 hleft
  · have hsame : (b.invalid.erase name).2 = b.invalid := congrArg Prod.snd (if_neg hmem)
    exact congrArg (fun q : IdQueue => !q.members.isEmpty) hsame

end Channels

/-- Where every handler has an id of its own, an id is found once. -/
theorem filterMap_ite_id {β : Type} {handlers : List (HandlerId × Handler κ)} {id : HandlerId}
    (hids : (handlers.map Prod.fst).Nodup) (hmem : id ∈ handlers.map Prod.fst) (x : β) :
    handlers.filterMap (fun entry => if entry.1 = id then some x else none) = [x] := by
  induction handlers with
  | nil => cases hmem
  | cons entry rest ih =>
    rw [List.map_cons, List.nodup_cons] at hids
    rw [List.filterMap_cons]
    by_cases h : entry.1 = id
    · rw [if_pos h]
      refine congrArg (x :: ·) (List.filterMap_eq_nil_iff.2 fun other hother => if_neg ?_)
      rintro hsame
      exact hids.1 (h.trans hsame.symm ▸ List.mem_map_of_mem hother)
    · rw [if_neg h]
      exact ih hids.2 ((List.mem_cons.1 hmem).resolve_left (Ne.symm h))

/-- Host code that is registered for both events that tell of a queue, under an id for each. -/
structure Attendant (κ : Type) where
  name : κ
  /-- The id among the handlers that hear that there is something in it, such as an invalid name. -/
  first : HandlerId
  /-- The id among the handlers that hear that there is nothing in it any more. -/
  last : HandlerId

namespace Attendant

/-- The id under which it is registered for an event. -/
def id (who : Attendant κ) (invalid : Bool) : HandlerId := if invalid then who.first else who.last

/-- Both registrations are there. -/
def Attends (who : Attendant κ) (b : Channels κ) : Prop :=
  ∀ invalid, (who.id invalid, .host who.name) ∈ b.handlers (.external (told invalid))

/-- What it is told by an event that is delivered under an id. -/
def hears? (who : Attendant κ) (event : Event) (id : HandlerId) : Option Bool :=
  [true, false].find? fun invalid => event = .external (told invalid) ∧ id = who.id invalid

/-- What it was told, in order: whether there was an invalid name. -/
def heard (who : Attendant κ) (form : FormId) (occurrences : List (Occurrence κ)) : List Bool :=
  occurrences.filterMap fun
    | .delivered other event id _ _ => if other = form then who.hears? event id else none
    | _ => none

/-- Neither of the two registrations was removed. -/
def Stays (who : Attendant κ) (form : FormId) (occurrences : List (Occurrence κ)) : Prop :=
  ∀ invalid, .removed form (.external (told invalid)) (who.id invalid) true ∉ occurrences

end Attendant

namespace Attendant

variable {who : Attendant κ} {first second entries : List (Occurrence κ)}

@[simp] theorem heard_nil : who.heard form [] = [] := rfl

@[simp] theorem heard_append :
    who.heard form (first ++ second) = who.heard form first ++ who.heard form second :=
  List.filterMap_append

theorem hears?_of_not {event : Event} (h : ¬ event.TellsValidity) (id : HandlerId) :
    who.hears? event id = none := by
  refine List.find?_eq_none.2 fun invalid _ => ?_
  rw [decide_eq_true_iff]
  rintro ⟨rfl, -⟩
  exact h (tellsValidity_told invalid)

theorem hears?_told (invalid : Bool) (id : HandlerId) :
    who.hears? (.external (told invalid)) id = if id = who.id invalid then some invalid else none := by
  by_cases h : id = who.id invalid <;> cases invalid <;> simp [hears?, told, h]

/-- Who is among the handlers of an event hears it once. -/
theorem filterMap_hears? {handlers : List (HandlerId × Handler κ)} {invalid : Bool}
    (hids : (handlers.map Prod.fst).Nodup) (hmem : who.id invalid ∈ handlers.map Prod.fst) :
    handlers.filterMap (fun entry => who.hears? (.external (told invalid)) entry.1) = [invalid] := by
  simp only [hears?_told]
  exact filterMap_ite_id hids hmem invalid

theorem heard_of_form_ne (h : ∀ o ∈ entries, o.form ≠ form) : who.heard form entries = [] := by
  refine List.filterMap_eq_nil_iff.2 fun o ho => ?_
  split
  · exact if_neg (h _ ho)
  · rfl

theorem stays_append : who.Stays form (first ++ second)
    ↔ who.Stays form first ∧ who.Stays form second := by
  simp only [Stays, List.mem_append, not_or, forall_and]

end Attendant

/-- A removal that is not one of the attendant's leaves both of its registrations. -/
theorem Attendant.Attends.unregister {who : Attendant κ} {b : Channels κ} {event : Event}
    {id : HandlerId} (h : who.Attends b) (hinternal : b.internal.Sound)
    (hexternal : b.external.Sound)
    (hstays : who.Stays form [.removed form event id (b.unregister event id).1]) :
    who.Attends (b.unregister event id).2 := by
  cases hfound : (b.unregister event id).1 with
  | false =>
    rw [Channels.unregister_eq_self hfound]
    exact h
  | true =>
    intro invalid
    rw [Channels.Sound.handlers_unregister ⟨hinternal, hexternal⟩]
    split
    · next heq =>
      subst heq
      refine List.mem_filter.2 ⟨h invalid, bne_iff_ne.2 ?_⟩
      rintro rfl
      exact hstays invalid (by simp [hfound])
    · exact h invalid

/-! ## What is heard between two states of the channels -/

/-- As long as it stays registered, host code hears of every change of whether there is an invalid
name, and of nothing else. -/
def Hears (form : FormId) (who : Attendant κ) (entries : List (Occurrence κ)) (b c : Channels κ) :
    Prop :=
  who.Attends b → who.Stays form entries →
    who.Attends c ∧ Alternates b.troubled (who.heard form entries) c.troubled

namespace Hears

variable {who : Attendant κ} {first second entries : List (Occurrence κ)} {b c d : Channels κ}

theorem append (h₁ : Hears form who first b c) (h₂ : Hears form who second c d) :
    Hears form who (first ++ second) b d := by
  intro hattends hstays
  obtain ⟨hfirst, hsecond⟩ := Attendant.stays_append.1 hstays
  obtain ⟨hattends, hfirst⟩ := h₁ hattends hfirst
  obtain ⟨hattends, hsecond⟩ := h₂ hattends hsecond
  exact ⟨hattends, by rw [Attendant.heard_append]; exact hfirst.append hsecond⟩

/-- Nothing is heard, and nothing has changed. -/
theorem of_silent (hheard : who.heard form entries = [])
    (h : who.Attends b → who.Stays form entries → who.Attends c ∧ c.troubled = b.troubled) :
    Hears form who entries b c := by
  intro hattends hstays
  obtain ⟨hattends, hsame⟩ := h hattends hstays
  rw [hheard, hsame]
  exact ⟨hattends, .nil _⟩

theorem refl (hheard : who.heard form entries = []) (b : Channels κ) :
    Hears form who entries b b := .of_silent hheard fun h _ => ⟨h, rfl⟩

end Hears

/-- A form whose connections are in place, and whose handlers for the host have an id each. -/
structure Listened (form : FormId) (w : World σ κ) (live : LiveForm κ) : Prop where
  found : w.form? form = some live
  wired : live.channels.Wired
  external : live.channels.external.Sound

theorem Listened.note {w : World σ κ} {live : LiveForm κ} (h : Listened form w live)
    (o : Occurrence κ) : Listened form (w.note o) live := ⟨h.found, h.wired, h.external⟩

/-- Progress of a form: what is heard follows the verdicts. -/
def hearing (form : FormId) (who : Attendant κ) : Progress σ κ form where
  rel w w' := ∀ live, Listened form w live → ∃ entries live', w.Wrote entries w'
    ∧ Listened form w' live' ∧ Hears form who entries live.channels live'.channels
    ∧ (verdictsIn form entries = [] → who.heard form entries = [])
  refl w live hlive := ⟨[], live, World.wrote_nil.2 rfl, hlive,
    .refl rfl _, fun _ => rfl⟩
  trans := by
    intro u v w h₁ h₂ live hlive
    obtain ⟨first, between, hwrote, hbetween, hfirst, hsilent⟩ := h₁ live hlive
    obtain ⟨second, live', hwrote', hlive', hsecond, hsilent'⟩ := h₂ between hbetween
    refine ⟨first ++ second, live', hwrote.append hwrote', hlive', hfirst.append hsecond, fun h => ?_⟩
    rw [verdictsIn_append, List.append_eq_nil_iff] at h
    rw [Attendant.heard_append, hsilent h.1, hsilent' h.2, List.append_nil]
  frame := by
    intro w w' entries hwrote hother hsame live hlive
    have hheard : who.heard form entries = [] := Attendant.heard_of_form_ne hother
    exact ⟨entries, live, hwrote, ⟨hsame live hlive.found, hlive.wired, hlive.external⟩,
      .refl hheard _, fun _ => hheard⟩
  absent hnone _ hlive := nomatch hnone.symm.trans hlive.found

/-- Neither signals or tells the validity of fields of the form nor removes handlers of the signals.
-/
def Call.Silent (form : FormId) : Call σ κ → Prop
  | .emit other event _ => other = form → ¬ event.IsValidity ∧ ¬ event.TellsValidity
  | .unregister other event _ => other = form → ¬ event.IsValidity
  | _ => True

theorem Program.emit_silent {event : Event} (hsignal : ¬ event.IsValidity)
    (htells : ¬ event.TellsValidity) (other : FormId) (payload : Payload) :
    (emit other event payload : Program σ κ Nat).Uses (Call.Silent form) :=
  (uses_call (c := .emit other event payload)).2 fun _ => ⟨hsignal, htells⟩

namespace Run

variable {host : Host σ κ} {fuel : Nat} {exec : {α : Type} → Program σ κ α → Run σ κ α}
  {who : Attendant κ}

/-! ## Steps in which nothing is heard -/

/-- An entry that tells nothing and removes no handler. -/
theorem note_hearing {o : Occurrence κ} (hheard : who.heard form [o] = []) :
    Keeps (hearing form who) (note o : Run σ κ Unit) := by
  intro w _ w' hstep live hlive
  rw [note_eq_ok.1 hstep]
  exact ⟨[o], live, w.wrote_note o, hlive.note o, .refl hheard _, fun _ => hheard⟩

theorem changeStore_hearing (f : Store κ → α × Store κ) :
    Keeps (hearing form who) (changeStore form f : Run σ κ α) := by
  intro w a w' hstep live hlive
  rw [changeStore_of hlive.found] at hstep
  cases hstep
  exact ⟨[], _, World.wrote_nil.2 rfl,
    ⟨World.form?_setForm_self hlive.found _, hlive.wired, hlive.external⟩, .refl rfl _,
    fun _ => rfl⟩

/-- A change of the channels that the journal tells of. -/
theorem changeChannels_note_hearing {f : Channels κ → α × Channels κ} {o : α → Occurrence κ}
    (hheard : ∀ a, who.heard form [o a] = [])
    (hf : ∀ b : Channels κ, b.Wired → b.external.Sound → (f b).2.Wired ∧ (f b).2.external.Sound
      ∧ (f b).2.invalid = b.invalid
      ∧ (who.Attends b → who.Stays form [o (f b).1] → who.Attends (f b).2)) :
    Keeps (hearing form who)
      (do let a ← changeChannels form f; note (o a); return a : Run σ κ α) := by
  intro w a w' hstep live hlive
  rw [bind_of_ok (changeChannels_of hlive.found f), bind_of_ok (note_ok _)] at hstep
  rw [pure_of_ok hstep]
  obtain ⟨hwired, hexternal, hinvalid, hattends⟩ := hf live.channels hlive.wired hlive.external
  have htroubled : (f live.channels).2.troubled = live.channels.troubled :=
    congrArg (fun q : IdQueue => !q.members.isEmpty) hinvalid
  exact ⟨_, _, by simp [World.Wrote],
    ⟨World.form?_setForm_self hlive.found _, hwired, hexternal⟩,
    .of_silent (hheard _) fun h hstays => ⟨hattends h hstays, htroubled⟩, fun _ => hheard _⟩

theorem busy_hearing {f : Channels κ → α × Channels κ}
    (hf : ∀ b, ∃ q, (f b).2 = b.setQueue .busy q) :
    Keeps (hearing form who) (changeChannels form f : Run σ κ α) := by
  intro w a w' hstep live hlive
  rw [changeChannels_of hlive.found] at hstep
  cases hstep
  obtain ⟨q, hq⟩ := hf live.channels
  refine ⟨[], _, World.wrote_nil.2 rfl, ⟨World.form?_setForm_self hlive.found _, ?_, ?_⟩,
    .of_silent rfl fun h _ => ⟨fun invalid => ?_, ?_⟩, fun _ => rfl⟩
  · exact hq ▸ hlive.wired.setQueue .busy q
  · exact hq ▸ hlive.external
  · exact hq ▸ h invalid
  · exact (congrArg Channels.troubled hq).trans rfl

section Emissions

variable (hhost : host.Uses (Call.Silent form))
  (hexec : ∀ {α : Type} (p : Program σ κ α), p.Uses (Call.Silent form) →
    Keeps (hearing form who) (exec p))

include hexec

theorem emit_call_hearing {event : Event} (hsignal : ¬ event.IsValidity)
    (htells : ¬ event.TellsValidity) (payload : Payload) :
    Keeps (hearing form who) (exec (Program.emit form event payload)) :=
  hexec _ (Program.emit_silent hsignal htells form payload)

include hhost

theorem emit_hearing {event : Event} (hsignal : ¬ event.IsValidity)
    (htells : ¬ event.TellsValidity) (payload : Payload) :
    Keeps (hearing form who) (emit host exec form event payload) := by
  refine emit_plain_keeps (fun _ hsignal htells => emit_call_hearing hexec hsignal htells payload)
    (fun _ => busy_hearing) hsignal (fun h live hlive => h live hlive.found hlive.wired live hlive)
    (fun name => hexec _ (hhost.handle ..)) (note_hearing rfl) (fun id handler => note_hearing ?_)
    fun _ => note_hearing rfl
  simp [Attendant.heard, Attendant.hears?_of_not htells]

end Emissions

/-! ## The emission of a verdict -/

section Verdicts

variable {w w' : World σ κ} {live : LiveForm κ} {payload : Payload}
  (hhost : host.Uses (Call.Silent form))
  (hless : ∀ less ≤ fuel, ∀ {α : Type} (p : Program σ κ α), p.Uses (Call.Silent form) →
    Keeps (hearing form who) (p.run host less))

include hhost hless

/-- When an event is delivered to host code amid a dispatch, the attendant hears it under its id and
hears nothing else. -/
theorem deliverAll_hears {event : Event} {handlers : List (HandlerId × Handler κ)}
    (hhosts : ∀ entry ∈ handlers, ∃ name, entry.2 = .host name) (hlive : Listened form w live)
    (hbusy : live.store.dispatching = true)
    (h : (handlers.forM fun entry => do
      note (.delivered form event entry.1 entry.2 payload)
      deliver host (Program.run host fuel) form payload entry.2) w = .ok ((), w')) :
    ∃ entries live', w.Wrote entries w' ∧ Listened form w' live' ∧ live'.store.dispatching = true
      ∧ who.heard form entries = handlers.filterMap (fun entry => who.hears? event entry.1)
      ∧ (who.Attends live.channels → who.Stays form entries →
        who.Attends live'.channels ∧ live'.channels.troubled = live.channels.troubled) := by
  induction handlers generalizing w live with
  | nil =>
    rw [pure_of_ok h]
    exact ⟨[], live, World.wrote_nil.2 rfl, hlive, hbusy, rfl, fun h _ => ⟨h, rfl⟩⟩
  | cons entry rest ih =>
    obtain ⟨_, v, hfirst, hrest⟩ := bind_eq_ok.1 h
    obtain ⟨_, _, hnote, hcall⟩ := bind_eq_ok.1 hfirst
    obtain ⟨name, hname⟩ := hhosts entry (by simp)
    rw [hname] at hcall
    rw [note_eq_ok.1 hnote] at hcall
    -- what the handler does is an interlude, in which there is no verdict and so nothing to hear
    obtain ⟨during, between, hwrote, hbetween, hhears, hsilent⟩ :=
      hless fuel (Nat.le_refl _) _ (hhost.handle ..) hcall live (hlive.note _)
    obtain ⟨_, _, hpasses⟩ := Program.run_passes host fuel _ hcall live hlive.found hbusy
    obtain rfl := hwrote.unique hpasses.wrote
    obtain rfl := Option.some.inj (hbetween.found.symm.trans hpasses.found)
    have hnothing := hsilent hpasses.interlude.no_verdict
    obtain ⟨entries, live', hwrote', hlive', hbusy', hheard, hlast⟩ :=
      ih (fun other hother => hhosts other (by simp [hother])) hbetween
        (hpasses.alike.dispatching.trans hbusy) hrest
    refine ⟨_ :: (during ++ entries), live', (w.wrote_note _).append (hwrote.append hwrote'), hlive',
      hbusy', ?_, fun hattends hstays => ?_⟩
    · have hone : who.heard form [.delivered form event entry.1 entry.2 payload]
          = (who.hears? event entry.1).toList := by
        simp only [Attendant.heard, List.filterMap_cons, List.filterMap_nil, if_true]
        cases who.hears? event entry.1 <;> rfl
      rw [← List.singleton_append, Attendant.heard_append, Attendant.heard_append, hone, hnothing,
        hheard, List.filterMap_cons]
      cases who.hears? event entry.1 <;> rfl
    · rw [← List.singleton_append, Attendant.stays_append, Attendant.stays_append] at hstays
      obtain ⟨hattends, halternates⟩ := hhears hattends hstays.2.1
      rw [hnothing] at halternates
      obtain ⟨hattends, hsame⟩ := hlast hattends hstays.2.2
      refine ⟨hattends, hsame.trans ?_⟩
      exact halternates.getLast?_getD.symm

/-- Who is told amid a dispatch hears it once. -/
theorem emit_told {invalid : Bool} {calls : Nat} (hlive : Listened form w live)
    (hbusy : live.store.dispatching = true)
    (h : emit host (Program.run host fuel) form (.external (told invalid)) payload w
      = .ok (calls, w')) :
    ∃ entries live', w.Wrote entries w' ∧ Listened form w' live' ∧ live'.store.dispatching = true
      ∧ (who.Attends live.channels → who.Stays form entries → who.Attends live'.channels
        ∧ live'.channels.troubled = live.channels.troubled ∧ who.heard form entries = [invalid]) := by
  obtain ⟨v, hcalls, rfl, rfl⟩ := (emit_eq_ok hlive.found).1 h
  have hhosts : ∀ entry ∈ live.channels.handlers (.external (told invalid)),
      ∃ name, entry.2 = .host name := by
    intro entry hentry
    cases hhandler : entry.2 with
    | host name => exact ⟨name, rfl⟩
    | connection connection =>
      have hof := hlive.wired.own _ entry hentry connection hhandler
      rw [of?_told] at hof
      cases hof
  obtain ⟨entries, live', hwrote, hlive', hbusy', hheard, hlast⟩ :=
    deliverAll_hears hhost hless hhosts (hlive.note _) hbusy hcalls
  refine ⟨_, live', ((w.wrote_note _).append hwrote).append (v.wrote_note _), hlive'.note _, hbusy',
    fun hattends hstays => ?_⟩
  rw [Attendant.stays_append, Attendant.stays_append] at hstays
  obtain ⟨hattends', hsame⟩ := hlast hattends hstays.1.2
  refine ⟨hattends', hsame, ?_⟩
  rw [Attendant.heard_append, Attendant.heard_append, hheard]
  have hids : ((live.channels.handlers (.external (told invalid))).map Prod.fst).Nodup :=
    hlive.external.once _
  have honce := Attendant.filterMap_hears? hids (List.mem_map_of_mem (hattends invalid))
  rw [honce]
  rfl

/-- A name moves in or out of the queue, and who is told of it hears it once. -/
theorem move_hears (invalid : Bool) {f : Channels κ → Bool × Channels κ} {q : IdQueue}
    (hf : (f live.channels).2 = live.channels.setQueue .invalid q)
    (hmoved : (f live.channels).1 = true →
      live.channels.troubled = !invalid ∧ (live.channels.setQueue .invalid q).troubled = invalid)
    (hstill : (f live.channels).1 = false →
      (live.channels.setQueue .invalid q).troubled = live.channels.troubled)
    (hlive : Listened form w live) (hbusy : live.store.dispatching = true)
    (h : (do
      if ← changeChannels form f then
        let _ ← Program.run host fuel (Program.emit form (.external (told invalid)) payload)
      : Run σ κ Unit) w = .ok ((), w')) :
    ∃ entries live', w.Wrote entries w' ∧ Listened form w' live' ∧ live'.store.dispatching = true
      ∧ Hears form who entries live.channels live'.channels := by
  rw [bind_of_ok (changeChannels_of hlive.found f), hf] at h
  -- the form with the name moved, which goes on to be listened to
  have hchanged : Listened form (w.setForm form _) { live with
      channels := live.channels.setQueue .invalid q } :=
    ⟨World.form?_setForm_self hlive.found _, hlive.wired.setQueue .invalid q, hlive.external⟩
  have hkept : who.Attends live.channels → who.Attends (live.channels.setQueue .invalid q) :=
    fun h invalid => h invalid
  cases hanswer : (f live.channels).1 with
  | false =>
    rw [hanswer] at h
    rw [pure_of_ok h]
    exact ⟨[], _, World.wrote_nil.2 rfl, hchanged, hbusy,
      .of_silent rfl fun h _ => ⟨hkept h, hstill hanswer⟩⟩
  | true =>
    rw [hanswer] at h
    obtain ⟨calls, v, hemit, hdone⟩ := bind_eq_ok.1 h
    rw [pure_of_ok hdone]
    obtain ⟨hbefore, hafter⟩ := hmoved hanswer
    cases fuel with
    | zero => exact absurd hemit Program.run_zero_ne_ok
    | succ fuel =>
      rw [Program.run_emit] at hemit
      obtain ⟨entries, live', hwrote, hlive', hbusy', htold⟩ :=
        emit_told hhost (fun less hle _ p => hless less (Nat.le_succ_of_le hle) p) hchanged hbusy hemit
      refine ⟨entries, live', hwrote, hlive', hbusy', fun hattends hstays => ?_⟩
      obtain ⟨hattends', hsame, hheard⟩ := htold (hkept hattends) hstays
      refine ⟨hattends', ?_⟩
      rw [hheard, hsame.trans hafter, hbefore]
      have hturn : Alternates (!invalid) [!!invalid] (!!invalid) := .cons (.nil _)
      rwa [Bool.not_not] at hturn

/-- The connection of a validity signal moves the name, and the attendant hears of it. -/
theorem connect_hears {name : String} {errors : List String} {value : Option Json}
    {connection : Connection} (hlive : Listened form w live) (hbusy : live.store.dispatching = true)
    (hof : Connection.of? (.internal (verdictSignal errors)) = some connection)
    (h : connect (Program.run host fuel) form (.field name value) connection w = .ok ((), w')) :
    ∃ entries live', w.Wrote entries w' ∧ Listened form w' live' ∧ live'.store.dispatching = true
      ∧ Hears form who entries live.channels live'.channels := by
  cases errors with
  | nil =>
    cases hof
    exact move_hears hhost hless false rfl Channels.troubled_of_eraseId
      Channels.troubled_of_eraseId_still hlive hbusy h
  | cons _ _ =>
    cases hof
    exact move_hears hhost hless true rfl Channels.troubled_of_insertId
      Channels.troubled_of_insertId_still hlive hbusy h

/-- A verdict that is signalled amid a dispatch is heard of, if it makes a difference. -/
theorem emit_verdict_hears {name : String} {errors : List String} {value : Option Json} {calls : Nat}
    (hlive : Listened form w live) (hbusy : live.store.dispatching = true)
    (h : emit host (Program.run host fuel) form (.internal (verdictSignal errors))
      (.field name value) w = .ok (calls, w')) :
    ∃ entries live', w.Wrote entries w' ∧ Listened form w' live'
      ∧ Hears form who entries live.channels live'.channels := by
  obtain ⟨v, hcalls, rfl, rfl⟩ := (emit_eq_ok hlive.found).1 h
  have hvalidity : (Event.internal (verdictSignal errors)).IsValidity := by
    cases errors <;> simp [verdictSignal, Event.IsValidity]
  have htells : ¬ (Event.internal (verdictSignal errors)).TellsValidity := by
    rintro (h | h) <;> cases h
  obtain ⟨id, connection, hosts, hof, hlist, hhosts⟩ := hlive.wired.front _ hvalidity
  rw [hlist] at hcalls
  obtain ⟨_, u, hfirst, hrest⟩ := bind_eq_ok.1 hcalls
  obtain ⟨_, _, hnote, hconnect⟩ := bind_eq_ok.1 hfirst
  rw [note_eq_ok.1 hnote] at hconnect
  -- what there is to hear comes from the connection; the verdict itself tells nothing of the whole
  obtain ⟨moved, between, hwrote, hbetween, hbusy', hmoved⟩ :=
    connect_hears hhost hless ((hlive.note _).note _) hbusy hof hconnect
  obtain ⟨others, live', hwrote', hlive', -, hheard, hlast⟩ :=
    deliverAll_hears hhost hless hhosts hbetween hbusy' hrest
  have hdelivered : who.heard form [.delivered form (.internal (verdictSignal errors)) id
      (.connection connection) (.field name value)] = [] := by
    simp [Attendant.heard, Attendant.hears?_of_not htells]
  have hothers : Hears form who others between.channels live'.channels := by
    have hnothing : who.heard form others = [] := by
      rw [hheard]
      exact List.filterMap_eq_nil_iff.2 fun entry _ => Attendant.hears?_of_not htells _
    exact .of_silent hnothing hlast
  refine ⟨_, live', ((w.wrote_note _).append ((World.wrote_note _ _).append
    (hwrote.append hwrote'))).append (v.wrote_note _), hlive'.note _, ?_⟩
  exact ((Hears.refl rfl _).append ((Hears.refl hdelivered _).append (hmoved.append hothers))).append
    (.refl rfl _)

end Verdicts

/-! ## Rounds -/

section Rounds

variable {w w' : World σ κ} {live : LiveForm κ} {state : Data}
  (hhost : host.Uses (Call.Silent form))
  (hless : ∀ less ≤ fuel, ∀ {α : Type} (p : Program σ κ α), p.Uses (Call.Silent form) →
    Keeps (hearing form who) (p.run host less))

include hhost hless

/-- A report with a verdict is heard of, if the verdict makes a difference. -/
theorem report_hears {after : After κ} {name : String} {errors : List String}
    (hlive : Listened form w live) (hbusy : live.store.dispatching = true)
    (hverdict : after.verdict? state = some (name, errors))
    (h : (Program.report form state after).run host fuel w = .ok ((), w')) :
    ∃ entries live', w.Wrote entries w' ∧ Listened form w' live'
      ∧ Hears form who entries live.channels live'.channels := by
  cases hevent : after.event? state with
  | none => exact absurd (After.verdict?_eq_none hevent) (by simp [hverdict])
  | some event =>
    obtain ⟨signal, payload⟩ := event
    have hsignal : ¬ (Event.internal signal).IsValidity := by
      cases after <;> cases hevent <;> decide
    have htells : ¬ (Event.internal signal).TellsValidity := by rintro (h | h) <;> cases h
    rw [Program.report_eq hevent, Program.run_bind_eq_ok] at h
    obtain ⟨_, v, hemit, hrest⟩ := h
    obtain ⟨change, between, hwrote, hbetween, hfirst, -⟩ :=
      emit_call_hearing (hless fuel (Nat.le_refl _)) hsignal htells payload hemit live hlive
    -- the handlers of the change may submit, but the form stays busy until the verdict is told
    obtain ⟨_, _, hpasses⟩ := Program.run_passes host fuel _ hemit live hlive.found hbusy
    obtain rfl := Option.some.inj (hbetween.found.symm.trans hpasses.found)
    have hbusy' := hpasses.alike.dispatching.trans hbusy
    simp only [hverdict] at hrest
    cases fuel with
    | zero => exact absurd hrest Program.run_zero_ne_ok
    | succ fuel =>
      obtain ⟨_, _, hprofile, hannounce⟩ := Program.run_bind_eq_ok.1 hrest
      rw [Program.run_profile hbetween.found] at hprofile
      cases hprofile
      split at hannounce
      · obtain ⟨_, u, hemit', hdone⟩ := Program.run_bind_eq_ok.1 hannounce
        obtain ⟨-, -, rfl⟩ := Program.run_done.1 hdone
        rw [Program.run_emit] at hemit'
        obtain ⟨outcome, live', hwrote', hlive', hsecond⟩ := emit_verdict_hears hhost
          (fun less hle _ p => hless less (Nat.le_succ_of_le hle) p) hbetween hbusy' hemit'
        exact ⟨_, live', hwrote.append hwrote', hlive', hfirst.append hsecond⟩
      · obtain ⟨-, -, rfl⟩ := Program.run_done.1 hannounce
        exact ⟨_, between, hwrote, hbetween, hfirst⟩

/-- What comes after a batch and has no verdict is like any other host code. -/
theorem follow_hearing {after : Option (After κ)} (h : after.bind (·.verdict? state) = none) :
    Keeps (hearing form who) (follow host (Program.run host fuel) form state after) := by
  rcases after with _ | after
  · exact Keeps.pure ()
  have hreport : Keeps (hearing form who) ((Program.report form state after).run host fuel) := by
    refine hless fuel (Nat.le_refl _) _ ?_
    cases hevent : after.event? state with
    | none =>
      cases after with
      | host _ => exact Program.uses_pure ()
      | _ => cases hevent
    | some event =>
      obtain ⟨signal, payload⟩ := event
      have hsignal : ¬ (Event.internal signal).IsValidity := by
        cases after <;> cases hevent <;> decide
      have hnone : after.verdict? state = none := h
      rw [Program.report_eq hevent, hnone]
      exact (Program.emit_silent hsignal (by rintro (h | h) <;> cases h) _ _).bind fun _ =>
        Program.uses_pure ()
  cases after with
  | host name => exact hless fuel (Nat.le_refl _) _ (hhost.follow ..)
  | _ => exact hreport

/-- What comes after a batch amid a dispatch is heard of as far as its verdict makes a difference. -/
theorem follow_during (state : Data) (after : Option (After κ)) :
    Keeps (hearing form who).during (do
      note (.followed form after state)
      follow host (Program.run host fuel) form state after) := by
  intro w _ w' hstep live hlive hbusy
  obtain ⟨_, v, hnote, hfollow⟩ := bind_eq_ok.1 hstep
  obtain ⟨_, last, hpasses⟩ :=
    follow_amid after hfollow live (note_eq_ok.1 hnote ▸ hlive) hbusy
  refine ⟨?_, last, hpasses.found, hpasses.alike.dispatching.trans hbusy⟩
  cases hverdict : after.bind (·.verdict? state) with
  | none =>
    exact (hearing form who).trans (note_hearing rfl hnote)
      (follow_hearing hhost hless hverdict hfollow)
  | some verdict =>
    obtain ⟨after, rfl, hafter⟩ := Option.bind_eq_some_iff.1 hverdict
    intro found hfound
    obtain rfl := Option.some.inj (hlive.symm.trans hfound.found)
    rw [note_eq_ok.1 hnote] at hfollow
    have hreport : (Program.report form state after).run host fuel
        (w.note (.followed form (some after) state)) = .ok ((), w') := by
      cases after with
      | host _ => cases hafter
      | _ => exact hfollow
    obtain ⟨entries, live', hwrote, hlive', hhears⟩ :=
      report_hears hhost hless (hfound.note _) hbusy hafter hreport
    refine ⟨_, live', (w.wrote_note _).append hwrote, hlive', (Hears.refl rfl _).append hhears,
      fun hnone => ?_⟩
    -- the entry of the follow-up has the verdict
    rw [verdictsIn_append, verdictsIn_followed, hverdict] at hnone
    cases hnone

/-- Whatever is applied amid a dispatch is heard of as far as its verdict makes a difference. -/
theorem apply_during (submission : Submission κ) :
    Keeps (hearing form who).during (apply host (Program.run host fuel) form submission) := by
  have hhush : ∀ {α : Type} (p : Program σ κ α), p.Uses (Call.Silent form) →
      Keeps (hearing form who).during (p.run host fuel) := fun p hp =>
    (hless fuel (Nat.le_refl _) p hp).during (Program.run_passes host fuel p)
  have hnote : ∀ o : Occurrence κ, o.form = form → o.OfRound →
      Keeps (hearing form who).during (note o : Run σ κ Unit) := by
    intro o _ ho
    refine note_during (note_hearing ?_)
    cases o <;> first | exact ho.elim | rfl
  refine apply_keeps hnote (compute_keeps hnote (fun _ _ => hhush _ (hhost.update ..))
    (fun _ _ => hhush _ (hhost.errors ..)) _)
    (fun next => changeStore_during (changeStore_hearing _) fun _ => rfl) (fun next listener => ?_)
    fun next => follow_during hhost hless next submission.after
  cases listener with
  | announces =>
    refine hhush _ (Program.announce_uses fun _ => ?_)
    constructor <;> rintro (h | h) <;> cases h
  | host _ name => exact hhush _ (hhost.listen ..)

/-- Every silent call on the form is heard of as far as its verdicts make a difference. -/
theorem perform_hearing (c : Call σ κ) (hsilent : c.Silent form) (hc : c.form? = some form) :
    Keeps (hearing form who) (perform host (Program.run host fuel) fuel c) := by
  cases c <;> simp only [Call.form?, Option.some.injEq, reduceCtorEq] at hc <;> subst hc
  case look =>
    exact (Keeps.store _).bind fun _ => Keeps.bind (note_hearing rfl) fun _ => Keeps.pure _
  case profile => exact (Keeps.live _).bind fun _ => Keeps.pure _
  case count | waiting =>
    exact (Keeps.live _).bind fun _ => Keeps.bind (note_hearing rfl) fun _ => Keeps.pure _
  case submit submission =>
    refine submit_keeps_during submission (fun o ho => note_hearing ?_) changeStore_hearing
      (fun _ _ => hless fuel (Nat.le_refl _) _ (hhost.follow ..)) (apply_during hhost hless)
    cases o <;> first | exact ho.elim | rfl
  case subscribe | unsubscribe =>
    exact (changeStore_hearing _).bind fun _ => Keeps.bind (note_hearing rfl) fun _ => Keeps.pure _
  case register event name =>
    refine changeChannels_note_hearing (o := fun id => .registered _ event id name) (fun _ => rfl)
      fun b hwired hexternal => ⟨hwired.register name, Channels.external_register hexternal, ?_,
        fun h _ invalid => ?_⟩
    · cases event <;> rfl
    · rw [Channels.handlers_register]
      exact List.mem_append_left _ (h invalid)
  case unregister event id =>
    refine changeChannels_note_hearing (o := fun found => .removed _ event id found) (fun _ => rfl)
      fun b hwired hexternal => ⟨hwired.unregister (hsilent rfl),
        Channels.external_unregister hexternal, ?_, fun h hstays =>
          h.unregister hwired.sound hexternal hstays⟩
    cases event <;> rfl
  case emit event payload =>
    obtain ⟨hsignal, htells⟩ := hsilent rfl
    exact emit_hearing hhost (hless fuel (Nat.le_refl _)) hsignal htells payload

end Rounds

end Run

/-- In every run of silent programs, the host hears of invalid names in turn. -/
theorem Program.run_hears {host : Host σ κ} (hhost : host.Uses (Call.Silent form))
    (who : Attendant κ) (fuel : Nat) (p : Program σ κ α) (hp : p.Uses (Call.Silent form)) :
    Run.Keeps (hearing form who) (p.run host fuel) := by
  refine Program.keeps hhost (fun c hc => ?_)
    (fun _ hless c hsilent hc => Run.perform_hearing hhost hless c hsilent hc) fuel p hp
  cases c <;> first | trivial | exact fun heq => absurd (congrArg some heq) hc

end FormTree
