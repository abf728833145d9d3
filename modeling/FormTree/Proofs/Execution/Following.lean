import FormTree.Proofs.Channel.Tidings
import FormTree.Proofs.Execution.Aggregation
import FormTree.Proofs.Execution.Nesting
import FormTree.Proofs.Execution.Registering
import FormTree.Proofs.Validity.Hearing

/-!
# Host code that follows the announcements

Host code that is registered for both announcements of a queue hears each of them once, so what it
has heard by the time that nothing is emitted any more says by its balance whether there is
something in the queue.

The order in which it hears them is another matter.  A handler that answers an announcement with a
signal can cause the next announcement, and who is registered behind that handler hears of the next
one first.  What is heard changes each time exactly if it is heard in the order of the
announcements, and so it is as long as nothing is announced while host code has yet to hear of an
earlier announcement (`Attendant.KeepsUp`): then the last thing that it heard is the case.
-/

namespace FormTree

variable {σ κ α : Type} {form : FormId} {a : Aggregate} {who : Attendant κ} {b c : Channels κ}

/-! ## Announcements in the journal -/

/-- What the journal announces of a queue, in order: whether there is something in it. -/
def announced (a : Aggregate) (form : FormId) (entries : List (Occurrence κ)) : List Bool :=
  entries.filterMap fun
    | .emitted other event _ => if other = form then a.told? event else none
    | _ => none

/-- What is announced is what the emissions tell. -/
theorem tidings_emissionsIn (calls : List Bool) (entries : List (Occurrence κ)) :
    tidings a (emissionsIn form calls entries) = announced a form entries := by
  induction entries generalizing calls with
  | nil => rfl
  | cons o rest ih =>
    have hfirst : (o.emission? form (calls.headD false)).toList.filterMap (a.told? ·.event)
        = announced a form [o] := by
      cases o with
      | emitted other event payload =>
        by_cases h : other = form
        · cases htold : a.told? event <;> simp [announced, Occurrence.emission?, h, htold]
        · simp [announced, Occurrence.emission?, h]
      | _ => rfl
    rw [emissionsIn, tidings, List.filterMap_append, hfirst]
    refine (congrArg (announced a form [o] ++ ·) (ih _)).trans ?_
    exact List.filterMap_append.symm

/-- The announcements of a connected form tell of every change, if nobody else makes any. -/
theorem Orderly.announced {entries : List (Occurrence κ)} (h : Orderly form false entries b c)
    (hgenuine : Genuine a (emissions form entries)) :
    Alternates (b.filled a) (announced a form entries) (c.filled a) := by
  obtain ⟨L, hL⟩ := exists_holds b.queue
  rw [hL.filled_eq, (h.holds [] L hL).filled_eq, ← tidings_emissionsIn [false]]
  exact (h.reacts [] L hL).alternates (h.unprompted []) hgenuine

/-! ## What host code hears of a queue -/

namespace Attendant

/-- It is registered for both announcements of a queue. -/
def Follows (who : Attendant κ) (a : Aggregate) (b : Channels κ) : Prop :=
  ∀ filled, (who.id filled, .host who.name) ∈ b.handlers (a.tells filled)

/-- What it hears of a queue by an event that is delivered under an id. -/
def hearsOf? (who : Attendant κ) (a : Aggregate) (event : Event) (id : HandlerId) : Option Bool :=
  (a.told? event).filter fun filled => id = who.id filled

/-- What it heard of a queue, in order: whether there is something in it. -/
def heardOf (who : Attendant κ) (a : Aggregate) (form : FormId) (entries : List (Occurrence κ)) :
    List Bool :=
  entries.filterMap fun
    | .delivered other event id _ _ => if other = form then who.hearsOf? a event id else none
    | _ => none

/-- Neither of its registrations for the announcements was taken off. -/
def Remains (who : Attendant κ) (a : Aggregate) (form : FormId) (entries : List (Occurrence κ)) :
    Prop :=
  ∀ filled, who.id filled ∉ takenOff form (a.tells filled) entries

instance (entries : List (Occurrence κ)) : Decidable (who.Remains a form entries) :=
  inferInstanceAs (Decidable (∀ _, _))

/-- Whenever something is announced of a queue, it has heard of everything that was announced
before: of what is due from the time before the entries, and of what they announce. -/
def KeepsUp (who : Attendant κ) (a : Aggregate) (form : FormId) (due : Nat)
    (entries : List (Occurrence κ)) : Prop :=
  ∀ n (h : n < entries.length), announced a form [entries[n]] ≠ [] →
    (who.heardOf a form (entries.take n)).length
      = due + (announced a form (entries.take n)).length

instance (due : Nat) (entries : List (Occurrence κ)) : Decidable (who.KeepsUp a form due entries) :=
  inferInstanceAs (Decidable (∀ n (h : n < entries.length), announced a form [entries[n]] ≠ [] → _))

/-- Every emission lets it hear what the event tells of the queue. -/
def Heeds (who : Attendant κ) (a : Aggregate) (form : FormId) (entries : List (Occurrence κ)) :
    Prop :=
  ∀ before event payload after, entries = before ++ .emitted form event payload :: after →
    who.heardOf a form (course form 0 after) = (a.told? event).toList

section Hearing

variable {event : Event} {id : HandlerId} {payload : Payload} {handler : Handler κ} {count : Nat}
  {o : Occurrence κ} {before entries first rest second : List (Occurrence κ)}

theorem hearsOf?_tells (filled : Bool) (id : HandlerId) :
    who.hearsOf? a (a.tells filled) id = if id = who.id filled then some filled else none := by
  by_cases h : id = who.id filled <;> simp [hearsOf?, Aggregate.told?_tells, h]

theorem hearsOf?_of_none (h : a.told? event = none) (id : HandlerId) :
    who.hearsOf? a event id = none := by
  rw [hearsOf?, h, Option.filter_none]

/-! ### Single entries -/

theorem heardOf_append :
    who.heardOf a form (first ++ second) = who.heardOf a form first ++ who.heardOf a form second :=
  List.filterMap_append

theorem heardOf_cons (o : Occurrence κ) (rest : List (Occurrence κ)) :
    who.heardOf a form (o :: rest) = who.heardOf a form [o] ++ who.heardOf a form rest :=
  List.filterMap_append (l := [o])

theorem announced_cons (o : Occurrence κ) (rest : List (Occurrence κ)) :
    announced a form (o :: rest) = announced a form [o] ++ announced a form rest :=
  List.filterMap_append (l := [o])

theorem announced_emitted :
    announced a form [(.emitted form event payload : Occurrence κ)] = (a.told? event).toList := by
  cases h : a.told? event <;> simp [announced, h]

/-- What is about another form, or belongs to no emission, is not heard. -/
theorem heardOf_of_skip (h : o.form ≠ form ∨ ¬ o.OfEmission) : who.heardOf a form [o] = [] := by
  cases o <;> simp_all [heardOf, Occurrence.form, Occurrence.OfEmission]

/-- Nor does it announce anything. -/
theorem announced_of_skip (h : o.form ≠ form ∨ ¬ o.OfEmission) : announced a form [o] = [] := by
  cases o <;> simp_all [announced, Occurrence.form, Occurrence.OfEmission]

/-- Who keeps up does so behind the first entry, with what is due then. -/
theorem KeepsUp.of_cons {due left : Nat} (h : who.KeepsUp a form due (o :: rest))
    (hleft : (who.heardOf a form [o]).length + left = due + (announced a form [o]).length) :
    who.KeepsUp a form left rest := by
  intro n hn hfirst
  have hnext := h (n + 1) (Nat.succ_lt_succ hn) hfirst
  rw [List.take_succ_cons, heardOf_cons, announced_cons, List.length_append,
    List.length_append] at hnext
  omega

/-! ### Emissions -/

theorem heardOf_emissionOf (handlers : List (HandlerId × Handler κ)) :
    who.heardOf a form (emissionOf form event payload handlers)
      = handlers.filterMap fun entry => who.hearsOf? a event entry.1 := by
  rw [emissionOf, heardOf_append, heardOf, List.filterMap_map]
  simp [heardOf]

theorem Remains.of_append (h : who.Remains a form (first ++ second)) : who.Remains a form first :=
  fun filled htaken => h filled (by
    rw [takenOff, List.filterMap_append]
    exact List.mem_append_left _ htaken)

/-- As long as its registrations are not taken off, they stand behind the announcements. -/
theorem Follows.mem_standing (h : who.Follows a b) (hremains : who.Remains a form entries)
    (filled : Bool) :
    (who.id filled, .host who.name) ∈ standing form (a.tells filled) b entries :=
  List.mem_filter.2 ⟨List.mem_append_left _ (h filled), decide_eq_true (hremains filled)⟩

/-- Who is registered for both announcements is called once by each emission of them. -/
theorem Follows.heeds (h : who.Follows a b) (haccounted : Accounted form entries b c)
    (hremains : who.Remains a form entries) : who.Heeds a form entries := by
  rintro before event payload after rfl
  rw [haccounted.emissions _ _ _ _ rfl, heardOf_emissionOf]
  cases htold : a.told? event with
  | none => exact List.filterMap_eq_nil_iff.2 fun entry _ => hearsOf?_of_none htold entry.1
  | some filled =>
    have hids := haccounted.once _ _ _ _ rfl
    obtain rfl := Aggregate.told?_eq_some.1 htold
    have hmem := List.mem_map_of_mem (f := Prod.fst) (h.mem_standing hremains.of_append filled)
    simp only [hearsOf?_tells]
    exact filterMap_ite_id hids hmem filled

theorem Heeds.of_cons (h : who.Heeds a form (o :: rest)) : who.Heeds a form rest := by
  rintro before event payload after rfl
  exact h (o :: before) event payload after rfl

end Hearing

end Attendant

/-! ## Announcements and what is heard of them -/

namespace Carries

open Attendant

variable {courses : List (List (Occurrence κ))} {entries : List (Occurrence κ)}

/-- It is heard what is due, and what is announced, in some order. -/
theorem heardOf_perm (h : Carries form courses entries) (hheeds : who.Heeds a form entries) :
    (who.heardOf a form entries).Perm
      (courses.flatMap (who.heardOf a form) ++ announced a form entries) := by
  induction h with
  | done => exact .nil
  | skip hskip _ ih =>
    rw [heardOf_cons, announced_cons, heardOf_of_skip hskip, announced_of_skip hskip]
    exact ih hheeds.of_cons
  | @begins courses event payload rest _ ih =>
    have hrest := ih hheeds.of_cons
    rw [List.flatMap_cons, hheeds [] event payload rest rfl] at hrest
    rw [announced_cons, announced_emitted, ← List.append_assoc]
    exact hrest.trans (List.perm_append_comm.append_right _)
  | @calls calls courses _ _ _ _ _ _ ih =>
    rw [heardOf_cons, List.flatMap_cons, heardOf_cons _ calls, List.append_assoc, List.append_assoc,
      ← List.append_assoc (who.heardOf a form calls), ← List.flatMap_cons]
    exact (ih hheeds.of_cons).append_left _
  | ends _ ih => exact ih hheeds.of_cons

/-- Who keeps up hears what is due and then what is announced, in this order. -/
theorem heardOf_eq (h : Carries form courses entries) (hheeds : who.Heeds a form entries)
    (hkeeps : who.KeepsUp a form (courses.flatMap (who.heardOf a form)).length entries) :
    who.heardOf a form entries
      = courses.flatMap (who.heardOf a form) ++ announced a form entries := by
  induction h with
  | done => rfl
  | skip hskip _ ih =>
    rw [heardOf_cons, announced_cons, heardOf_of_skip hskip, announced_of_skip hskip]
    refine ih hheeds.of_cons (hkeeps.of_cons ?_)
    rw [heardOf_of_skip hskip, announced_of_skip hskip, Nat.add_comm]
  | @begins courses event payload rest _ ih =>
    have hcourse := hheeds [] event payload rest rfl
    -- what the event tells is due from here on, and nothing else is if it tells anything
    have hdue : (course form 0 rest :: courses).flatMap (who.heardOf a form)
        = courses.flatMap (who.heardOf a form) ++ (a.told? event).toList := by
      rw [List.flatMap_cons, hcourse]
      by_cases htold : (a.told? event).toList = []
      · rw [htold, List.nil_append, List.append_nil]
      · have hnone := hkeeps 0 (Nat.succ_pos _) (by rwa [List.getElem_cons_zero, announced_emitted])
        rw [List.eq_nil_of_length_eq_zero (Nat.eq_zero_of_add_eq_zero_right hnone.symm),
          List.nil_append, List.append_nil]
    rw [announced_cons, announced_emitted, ← List.append_assoc, ← hdue]
    refine ih hheeds.of_cons (hkeeps.of_cons ?_)
    rw [hdue, List.length_append, announced_emitted]
    exact Nat.zero_add _
  | @calls calls courses event id handler payload _ _ ih =>
    rw [heardOf_cons, List.flatMap_cons, heardOf_cons _ calls, List.append_assoc, List.append_assoc,
      ← List.append_assoc (who.heardOf a form calls), ← List.flatMap_cons]
    refine congrArg _ (ih hheeds.of_cons (hkeeps.of_cons ?_))
    rw [List.flatMap_cons, List.flatMap_cons, heardOf_cons _ calls, List.append_assoc]
    exact List.length_append.symm
  | ends _ ih => exact ih hheeds.of_cons (hkeeps.of_cons (Nat.zero_add _))

end Carries

/-! ## Runs -/

/-- What host code that is registered for both announcements of a queue hears of it between two
states of the channels. -/
structure Followed (form : FormId) (a : Aggregate) (who : Attendant κ)
    (entries : List (Occurrence κ)) (b c : Channels κ) : Prop where
  /-- It is still registered. -/
  follows : who.Follows a c
  /-- It hears every announcement once, in some order. -/
  once : (who.heardOf a form entries).Perm (announced a form entries)
  /-- It hears of something in the queue once more than of nothing exactly if there was nothing and
  now there is something, and the other way round. -/
  balance : (who.heardOf a form entries).count true + (b.filled a).toNat
    = (who.heardOf a form entries).count false + (c.filled a).toNat
  /-- What it hears changes each time, up to what is the case at the end, exactly if it hears it in
  the order of the announcements. -/
  alternates : Alternates (b.filled a) (who.heardOf a form entries) (c.filled a)
    ↔ who.heardOf a form entries = announced a form entries
  /-- It does so if nothing is announced before it has heard of what was announced earlier. -/
  inOrder : who.KeepsUp a form 0 entries →
    who.heardOf a form entries = announced a form entries
  /-- Then it hears of something and of nothing in turn. -/
  inTurn : who.KeepsUp a form 0 entries →
    InTurn (!b.filled a) (b.filled a) (who.heardOf a form entries)
  /-- And what it heard last, if anything, is the case. -/
  last : who.KeepsUp a form 0 entries →
    (who.heardOf a form entries).getLast?.getD (b.filled a) = c.filled a

/-- What is announced changes each time, and host code hears it. -/
theorem Transcribed.followed {entries : List (Occurrence κ)} (h : Transcribed form entries b c)
    (horderly : Orderly form false entries b c) (hsound : b.Sound) (hfollows : who.Follows a b)
    (hgenuine : Genuine a (emissions form entries)) (hremains : who.Remains a form entries) :
    Followed form a who entries b c := by
  have haccounted := h.accounted hsound
  have hheeds := hfollows.heeds haccounted hremains
  have hannounced := horderly.announced hgenuine
  have honce : (who.heardOf a form entries).Perm (announced a form entries) :=
    h.carries.heardOf_perm hheeds
  have horder : who.KeepsUp a form 0 entries →
      who.heardOf a form entries = announced a form entries := h.carries.heardOf_eq hheeds
  refine ⟨fun filled => ?follows, honce, ?balance, ⟨fun hturns => ?_, fun heq => ?_⟩, horder,
    fun hkeeps => ?inTurn, fun hkeeps => ?last⟩
  case follows =>
    rw [haccounted.handlers]
    exact hfollows.mem_standing hremains filled
  case balance =>
    rw [honce.count_eq, honce.count_eq]
    exact hannounced.balance
  · exact hturns.eq_of_length_eq hannounced honce.length_eq
  · exact heq ▸ hannounced
  case inTurn =>
    rw [horder hkeeps]
    exact hannounced.inTurn
  case last =>
    rw [horder hkeeps]
    exact hannounced.getLast?_getD

/-- Whatever runs on a connected form, host code that is registered for both announcements of a queue
hears each of them once; and as long as it keeps up, in turn, so that the last one tells whether
there is something in the queue.  A run ends where nothing is being emitted, and so does every run
that is a part of it. -/
theorem run_follows {w w' : World σ κ} {live : LiveForm κ} {host : Host σ κ} {fuel : Nat}
    {p : Program σ κ α} {x : α} (a : Aggregate) (who : Attendant κ)
    (hlive : w.form? form = some live) (hconnected : live.channels.Connected)
    (hfollows : who.Follows a live.channels) (hrun : p.run host fuel w = .ok (x, w')) :
    ∃ entries live', w.Wrote entries w' ∧ w'.form? form = some live'
      ∧ (Spares form entries live.channels → Genuine a (emissions form entries) →
        who.Remains a form entries →
        Followed form a who entries live.channels live'.channels) := by
  obtain ⟨entries, live', hwrote, hlive', htranscribed⟩ :=
    Program.run_transcribes form host fuel p hrun live hlive
  obtain ⟨again, _, hagain, hsame, horderly⟩ :=
    Program.run_aggregating form host fuel p hrun live hlive
  obtain rfl := hagain.unique hwrote
  obtain rfl := Option.some.inj (hlive'.symm.trans hsame)
  refine ⟨again, live', hwrote, hlive', fun hspares hgenuine hremains => ?_⟩
  exact htranscribed.followed (horderly hconnected hspares) hconnected.sound hfollows hgenuine
    hremains

/-! A form whose host makes a component idle again as soon as it hears that it is busy, with host
code that follows what the form tells, registered before or behind that handler. -/

namespace Yielding

/-- One component signals that it is busy. -/
def signalling : Program Unit Bool Unit := do
  let _ ← Program.emit 0 (.internal .fieldBusy) (.component "a")

/-- The follower stands behind the handler that yields. -/
def overtaken : LiveForm Bool := .create {} [(.busy, true), (.busy, false), (.idle, false)] .null

/-- The follower stands before the handler that yields. -/
def attended : LiveForm Bool := .create {} [(.busy, false), (.idle, false), (.busy, true)] .null

/-- The follower, behind the connections and the handler that yields. -/
def behind : Attendant Bool := ⟨false, ⟨3, 0⟩, ⟨4, 0⟩⟩

/-- The follower, behind the connections. -/
def before : Attendant Bool := ⟨false, ⟨2, 0⟩, ⟨3, 0⟩⟩

/-- What the run wrote and left behind: no handler was removed, only the form announced anything, the
follower heard the given things, and nothing is busy. -/
structure Told (who : Attendant Bool) (heard : List Bool) (entries : List (Occurrence Bool))
    (w : World Unit Bool) : Prop where
  removed : entries.all Occurrence.sparing = true
  genuine : Genuine .busy (emissions 0 entries)
  remains : who.Remains .busy 0 entries
  heard : who.heardOf .busy 0 entries = heard
  idle : (w.form? 0).all (fun live => !live.channels.filled .busy) = true

instance (who : Attendant Bool) (heard : List Bool) (entries : List (Occurrence Bool))
    (w : World Unit Bool) : Decidable (Told who heard entries w) :=
  decidable_of_iff (entries.all Occurrence.sparing = true ∧ Genuine .busy (emissions 0 entries)
      ∧ who.Remains .busy 0 entries ∧ who.heardOf .busy 0 entries = heard
      ∧ (w.form? 0).all (fun live => !live.channels.filled .busy) = true)
    ⟨fun h => ⟨h.1, h.2.1, h.2.2.1, h.2.2.2.1, h.2.2.2.2⟩,
      fun h => ⟨h.removed, h.genuine, h.remains, h.heard, h.idle⟩⟩

theorem run_overtaken : ∃ w', signalling.run callbacks 8 (.start #[overtaken] ()) = .ok ((), w')
    ∧ Told behind [false, true] w'.journal.reverse w' := by
  have hcheck : (signalling.run callbacks 8 (.start #[overtaken] ())).toOption.any (fun result =>
      Told behind [false, true] result.2.journal.reverse result.2) = true := by
    decide +kernel
  obtain ⟨⟨_, w'⟩, hrun, htold⟩ := (Option.any_eq_true ..).1 hcheck
  exact ⟨w', toOption_eq_some.1 hrun, of_decide_eq_true htold⟩

theorem run_attended : ∃ w', signalling.run callbacks 8 (.start #[attended] ()) = .ok ((), w')
    ∧ Told before [true, false] w'.journal.reverse w'
    ∧ before.KeepsUp .busy 0 0 w'.journal.reverse := by
  have hcheck : (signalling.run callbacks 8 (.start #[attended] ())).toOption.any (fun result =>
      Told before [true, false] result.2.journal.reverse result.2
        ∧ before.KeepsUp .busy 0 0 result.2.journal.reverse) = true := by
    decide +kernel
  obtain ⟨⟨_, w'⟩, hrun, htold⟩ := (Option.any_eq_true ..).1 hcheck
  exact ⟨w', toOption_eq_some.1 hrun, of_decide_eq_true htold⟩

theorem follows_overtaken : behind.Follows .busy overtaken.channels
  | true => List.mem_of_getElem? (i := 1) rfl
  | false => List.mem_of_getElem? (i := 0) rfl

theorem follows_attended : before.Follows .busy attended.channels := by
  intro filled
  cases filled <;> exact .head _

end Yielding

open Yielding in
/-- Host code that stands behind a handler that yields hears that the component is idle, and then
that it is busy. -/
theorem follower_overtaken : ∃ w' entries live',
    signalling.run callbacks 8 (.start #[overtaken] ()) = .ok ((), w')
      ∧ (World.start #[overtaken] ()).Wrote entries w' ∧ w'.form? 0 = some live'
      ∧ overtaken.channels.Connected ∧ behind.Follows .busy overtaken.channels
      ∧ Spares 0 entries overtaken.channels ∧ Genuine .busy (emissions 0 entries)
      ∧ behind.Remains .busy 0 entries
      ∧ behind.heardOf .busy 0 entries = [false, true]
      ∧ live'.channels.filled .busy = false
      ∧ ¬ InTurn true false (behind.heardOf .busy 0 entries)
      ∧ (behind.heardOf .busy 0 entries).getLast?.getD (overtaken.channels.filled .busy)
        ≠ live'.channels.filled .busy := by
  obtain ⟨w', hrun, htold⟩ := run_overtaken
  have hconnected : overtaken.channels.Connected := Channels.connected_registerAll
    [(.external .busy, true), (.external .busy, false), (.external .idle, false)]
  obtain ⟨entries, live', hwrote, hlive', -⟩ :=
    Program.run_aggregating 0 callbacks 8 signalling hrun overtaken rfl
  rw [hwrote.journal_of_start] at htold
  have hidle : live'.channels.filled .busy = false := by simpa [hlive'] using htold.idle
  refine ⟨w', entries, live', hrun, hwrote, hlive', hconnected, follows_overtaken,
    hconnected.spares htold.removed, htold.genuine, htold.remains, htold.heard, hidle, ?_, ?_⟩
  · rw [htold.heard]
    rintro ⟨⟩
  · rw [htold.heard, hidle]
    decide

open Yielding in
theorem run_follows_attended : ∃ w' entries live',
    signalling.run callbacks 8 (.start #[attended] ()) = .ok ((), w')
      ∧ (World.start #[attended] ()).form? 0 = some attended
      ∧ (World.start #[attended] ()).Wrote entries w' ∧ w'.form? 0 = some live'
      ∧ attended.channels.Connected ∧ before.Follows .busy attended.channels
      ∧ Spares 0 entries attended.channels ∧ Genuine .busy (emissions 0 entries)
      ∧ before.Remains .busy 0 entries ∧ before.KeepsUp .busy 0 0 entries
      ∧ Followed 0 .busy before entries attended.channels live'.channels
      ∧ before.heardOf .busy 0 entries = [true, false] ∧ live'.channels.filled .busy = false := by
  obtain ⟨w', hrun, htold, hkeeps⟩ := run_attended
  have hconnected : attended.channels.Connected := Channels.connected_registerAll
    [(.external .busy, false), (.external .idle, false), (.external .busy, true)]
  have hlive : (World.start #[attended] ()).form? 0 = some attended := rfl
  obtain ⟨entries, live', hwrote, hlive', hfollowed⟩ :=
    run_follows .busy before hlive hconnected follows_attended hrun
  rw [hwrote.journal_of_start] at htold hkeeps
  have hspares : Spares 0 entries attended.channels := hconnected.spares htold.removed
  have hidle : live'.channels.filled .busy = false := by simpa [hlive'] using htold.idle
  exact ⟨w', entries, live', hrun, hlive, hwrote, hlive', hconnected, follows_attended, hspares,
    htold.genuine, htold.remains, hkeeps, hfollowed hspares htold.genuine htold.remains,
    htold.heard, hidle⟩

end FormTree
