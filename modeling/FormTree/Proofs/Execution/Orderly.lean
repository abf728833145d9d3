import FormTree.Proofs.Channel.Connected
import FormTree.Proofs.Channel.Emissions
import FormTree.Proofs.Execution.Progress

/-!
# Orderly stretches of the journal

The journal of a run says which events were emitted on a form, in which order, and which of them
the form emitted by itself (`emissions`): those that begin while a connection is called.  A stretch
of the journal is `Orderly` if the queues go on to hold what the emissions say, whoever counts them
is told so (`Tallied`), and the form emits by itself exactly what it has to.  One orderly stretch
after another is orderly (`Orderly.trans`), and so is an emission with what its connection and the
host code behind it write (`Orderly.emission`).
-/

namespace FormTree

variable {κ : Type} {form : FormId} {wired : Bool} {event other target : Event}
  {payload : Payload} {id : HandlerId} {b b' c d : Channels κ}

/-! ## Emissions in the journal -/

/-- Whether a handler is a connection of the form. -/
def Handler.isConnection : Handler κ → Bool
  | .connection _ => true
  | .host _ => false

namespace Occurrence

/-- The emission on a form that a journal entry begins. -/
def emission? (form : FormId) (wired : Bool) : Occurrence κ → Option Emission
  | .emitted other event payload => if other = form then some ⟨event, payload, wired⟩ else none
  | _ => none

/-- The emissions on a form that are under way after a journal entry, innermost first: whether what
is called for them at the moment is a connection. -/
def shift (form : FormId) (calls : List Bool) : Occurrence κ → List Bool
  | .emitted other _ _ => if other = form then false :: calls else calls
  | .delivered other _ _ handler _ =>
    if other = form then handler.isConnection :: calls.tail else calls
  | .completed other _ _ => if other = form then calls.tail else calls
  | _ => calls

end Occurrence

/-- The emissions on a form from where the given calls are under way. -/
def emissionsIn (form : FormId) : List Bool → List (Occurrence κ) → List Emission
  | _, [] => []
  | calls, o :: rest =>
    (o.emission? form (calls.headD false)).toList ++ emissionsIn form (o.shift form calls) rest

/-- The emissions on a form, in the order in which they begin.  At first host code runs. -/
def emissions (form : FormId) (entries : List (Occurrence κ)) : List Emission :=
  emissionsIn form [false] entries

/-- The calls under way after journal entries. -/
def callsAfter (form : FormId) (calls : List Bool) (entries : List (Occurrence κ)) : List Bool :=
  entries.foldl (fun calls o => o.shift form calls) calls

/-- Whoever counts a queue, at whatever moment, is told how many ids are held then. -/
def Tallied (form : FormId) (history : List Emission) (calls : List Bool)
    (entries : List (Occurrence κ)) : Prop :=
  ∀ before queue size after, entries = before ++ .counted form queue size :: after →
    size = (held queue (history ++ emissionsIn form calls before)).card

/-- An entry that begins no emission on the form and leaves the calls under way as they are. -/
def Occurrence.Idle (form : FormId) (wired : Bool) (o : Occurrence κ) : Prop :=
  (∀ calls, o.shift form (wired :: calls) = wired :: calls) ∧ o.emission? form wired = none

section Journal

variable {calls : List Bool} {L : List Emission} {o : Occurrence κ} {handler : Handler κ}
  {entries x y rest : List (Occurrence κ)}

/-! ### One stretch behind another -/

theorem emissionsIn_append : emissionsIn form calls (x ++ y)
    = emissionsIn form calls x ++ emissionsIn form (callsAfter form calls x) y := by
  induction x generalizing calls with
  | nil => rfl
  | cons o rest ih =>
    rw [List.cons_append, emissionsIn, emissionsIn, ih, List.append_assoc]
    rfl

theorem callsAfter_append : callsAfter form calls (x ++ y)
    = callsAfter form (callsAfter form calls x) y := List.foldl_append

theorem tallied_nil : Tallied form L calls ([] : List (Occurrence κ)) := by
  intro before queue size after hsplit
  simp at hsplit

theorem Tallied.cons (ho : ∀ queue size, o = .counted form queue size → size = (held queue L).card)
    (hrest : Tallied form (L ++ (o.emission? form (calls.headD false)).toList) (o.shift form calls)
      rest) : Tallied form L calls (o :: rest) := by
  intro before queue size after hsplit
  rcases List.cons_eq_append_iff.1 hsplit with ⟨rfl, hfirst⟩ | ⟨before, rfl, hrest'⟩
  · rw [emissionsIn, List.append_nil]
    exact ho queue size (List.cons.inj hfirst).1.symm
  · rw [emissionsIn, ← List.append_assoc]
    exact hrest before queue size after hrest'

theorem Tallied.append (hx : Tallied form L calls x)
    (hy : Tallied form (L ++ emissionsIn form calls x) (callsAfter form calls x) y) :
    Tallied form L calls (x ++ y) := by
  intro before queue size after hsplit
  rcases List.append_eq_append_iff.1 hsplit with ⟨middle, rfl, hy'⟩ | ⟨middle, rfl, hx'⟩
  · rw [emissionsIn_append, ← List.append_assoc]
    exact hy middle queue size after hy'
  · cases middle with
    | nil =>
      have h := hy [] queue size after hx'.symm
      rwa [List.append_nil, emissionsIn, List.append_nil] at h
    | cons first middle =>
      obtain ⟨rfl, -⟩ := List.cons.inj hx'
      exact hx before queue size middle rfl

/-! ### Single entries -/

theorem emissionsIn_emitted :
    emissionsIn form (wired :: calls) (.emitted form event payload :: rest)
      = ⟨event, payload, wired⟩ :: emissionsIn form (false :: wired :: calls) rest := by
  simp [emissionsIn, Occurrence.emission?, Occurrence.shift]

theorem emissionsIn_delivered :
    emissionsIn form (wired :: calls) (.delivered form event id handler payload :: rest)
      = emissionsIn form (handler.isConnection :: calls) rest := by
  simp [emissionsIn, Occurrence.emission?, Occurrence.shift]

theorem callsAfter_emitted : callsAfter form calls (.emitted form event payload :: rest)
    = callsAfter form (false :: calls) rest := by
  simp [callsAfter, Occurrence.shift]

theorem callsAfter_delivered :
    callsAfter form (wired :: calls) (.delivered form event id handler payload :: rest)
      = callsAfter form (handler.isConnection :: calls) rest := by
  simp [callsAfter, Occurrence.shift]

theorem callsAfter_completed {count : Nat} :
    callsAfter form (wired :: calls) [(.completed form event count : Occurrence κ)] = calls := by
  simp [callsAfter, Occurrence.shift]

theorem tallied_emitted
    (h : Tallied form (L ++ [⟨event, payload, wired⟩]) (false :: wired :: calls) rest) :
    Tallied form L (wired :: calls) (.emitted form event payload :: rest) := by
  refine .cons nofun ?_
  simpa [Occurrence.emission?, Occurrence.shift] using h

theorem tallied_delivered (h : Tallied form L (handler.isConnection :: calls) rest) :
    Tallied form L (wired :: calls) (.delivered form event id handler payload :: rest) := by
  refine .cons nofun ?_
  simpa [Occurrence.emission?, Occurrence.shift] using h

/-- What is about another form, or belongs to no emission, is idle. -/
theorem idle_of_skip (h : o.form ≠ form ∨ ¬ o.OfEmission) : o.Idle form wired := by
  cases o <;> simp_all [Occurrence.Idle, Occurrence.emission?, Occurrence.shift, Occurrence.form,
    Occurrence.OfEmission]

/-- So is a call of host code after another one. -/
theorem idle_host {name : κ} :
    (Occurrence.delivered form event id (.host name) payload).Idle form false := by
  simp [Occurrence.Idle, Occurrence.emission?, Occurrence.shift, Handler.isConnection]

/-! ### Idle stretches -/

theorem emissionsIn_of_idle (h : ∀ o ∈ entries, o.Idle form wired) :
    emissionsIn form (wired :: calls) entries = [] := by
  induction entries with
  | nil => rfl
  | cons o rest ih =>
    obtain ⟨hshift, hnone⟩ := h o (.head _)
    rw [emissionsIn, hshift, List.headD_cons, hnone, ih fun other hother => h other (.tail _ hother)]
    rfl

theorem callsAfter_of_idle (h : ∀ o ∈ entries, o.Idle form wired) :
    callsAfter form (wired :: calls) entries = wired :: calls := by
  induction entries with
  | nil => rfl
  | cons o rest ih =>
    rw [callsAfter, List.foldl_cons, (h o (.head _)).1]
    exact ih fun other hother => h other (.tail _ hother)

theorem tallied_of_idle (h : ∀ o ∈ entries, o.Idle form wired)
    (hcounted : ∀ queue size, .counted form queue size ∈ entries → size = (held queue L).card) :
    Tallied form L (wired :: calls) entries := by
  rintro before queue size after rfl
  rw [emissionsIn_of_idle fun o ho => h o (List.mem_append_left _ ho), List.append_nil]
  exact hcounted queue size (by simp)

end Journal

/-! ## Orderly stretches -/

/-- A stretch of the journal, between two states of the channels, in which the form reacts to the
emissions as it has to.  It begins inside a call of a connection or of host code. -/
structure Orderly (form : FormId) (wired : Bool) (entries : List (Occurrence κ))
    (b c : Channels κ) : Prop where
  connected : c.Connected
  owns : ∀ event id, c.Owns event id ↔ b.Owns event id
  /-- Every emission that begins in the stretch is complete at its end. -/
  ends : ∀ calls, callsAfter form (wired :: calls) entries = wired :: calls
  head : ∀ calls e, (emissionsIn form (wired :: calls) entries).head? = some e → e.wired = wired
  reacts : ∀ calls L, Holds L b.queue → Reacts L (emissionsIn form (wired :: calls) entries)
  holds : ∀ calls L, Holds L b.queue →
    Holds (L ++ emissionsIn form (wired :: calls) entries) c.queue
  tallied : ∀ calls L, Holds L b.queue → Tallied form L (wired :: calls) entries

/-- No connection was removed. -/
def Spares (form : FormId) (entries : List (Occurrence κ)) (b : Channels κ) : Prop :=
  ∀ event id, .removed form event id true ∈ entries → ¬ b.Owns event id

theorem Spares.mono {entries part : List (Occurrence κ)} (h : Spares form entries b)
    (hpart : part ⊆ entries) (howns : ∀ event id, c.Owns event id ↔ b.Owns event id) :
    Spares form part c :=
  fun event id hremoved hown => h event id (hpart hremoved) ((howns event id).1 hown)

/-- Whether a journal entry is no removal of a handler whose event has a connection. -/
def Occurrence.sparing : Occurrence κ → Bool
  | .removed _ event _ _ => Connection.of? event = none
  | _ => true

/-- No connection is removed from behind an event that has none. -/
theorem Channels.Connected.spares {entries : List (Occurrence κ)} (h : b.Connected)
    (hall : entries.all Occurrence.sparing = true) : Spares form entries b := by
  intro event id hremoved hown
  have hof : Connection.of? event = none :=
    of_decide_eq_true (List.all_eq_true.1 hall _ hremoved)
  obtain ⟨connection, hmem⟩ := hown
  obtain ⟨name, hname⟩ := (h.front event).of_none hof _ hmem
  cases hname

namespace Orderly

variable {entries first second : List (Occurrence κ)}

/-- A stretch without emissions, in which the queues stay as they are. -/
theorem of_idle (hconnected : c.Connected)
    (howns : ∀ event id, c.Owns event id ↔ b.Owns event id) (hqueue : c.queue = b.queue)
    (hidle : ∀ o ∈ entries, o.Idle form wired)
    (hcounted : ∀ queue size, .counted form queue size ∈ entries → size = (b.queue queue).size) :
    Orderly form wired entries b c := by
  refine ⟨hconnected, howns, fun _ => callsAfter_of_idle hidle, ?head, ?reacts, ?holds, ?tallied⟩
  case head =>
    intro calls e he
    rw [emissionsIn_of_idle hidle] at he
    cases he
  case reacts =>
    intro calls L _
    rw [emissionsIn_of_idle hidle]
    trivial
  case holds =>
    intro calls L hL
    rwa [emissionsIn_of_idle hidle, List.append_nil, hqueue]
  case tallied =>
    intro calls L hL
    exact tallied_of_idle hidle fun queue size hmem => (hcounted queue size hmem).trans hL.size_eq

theorem refl (h : b.Connected) : Orderly form wired [] b b :=
  of_idle h (fun _ _ => Iff.rfl) rfl (by simp) (by simp)

theorem unprompted (h : Orderly form false entries b c) (calls : List Bool) :
    Unprompted (emissionsIn form (false :: calls) entries) := h.head calls

/-- One thing after another that host code does. -/
theorem trans (h₁ : Orderly form false first b c) (h₂ : Orderly form false second c d) :
    Orderly form false (first ++ second) b d := by
  have hall : ∀ calls, emissionsIn form (false :: calls) (first ++ second)
      = emissionsIn form (false :: calls) first ++ emissionsIn form (false :: calls) second := by
    intro calls
    rw [emissionsIn_append, h₁.ends]
  refine ⟨h₂.connected, ?owns, ?ends, ?head, ?reacts, ?holds, ?tallied⟩
  case owns => exact fun event id => (h₂.owns event id).trans (h₁.owns event id)
  case ends =>
    intro calls
    rw [callsAfter_append, h₁.ends, h₂.ends]
  case head =>
    intro calls
    rw [hall]
    exact (h₁.unprompted calls).append (h₂.unprompted calls)
  case reacts =>
    intro calls L hL
    rw [hall]
    exact (h₁.reacts calls L hL).append (h₂.reacts calls _ (h₁.holds calls L hL))
      (h₂.unprompted calls)
  case holds =>
    intro calls L hL
    rw [hall, ← List.append_assoc]
    exact h₂.holds calls _ (h₁.holds calls L hL)
  case tallied =>
    intro calls L hL
    refine (h₁.tallied calls L hL).append ?_
    rw [h₁.ends]
    exact h₂.tallied calls _ (h₁.holds calls L hL)

end Orderly

/-! ## What a connection does -/

/-- The channels before and after an event was taken in: the queues hold what its emission says
too, and it starts the given event, if any. -/
structure Takes (event : Event) (payload : Payload) (started : Option Event) (b c : Channels κ) :
    Prop where
  connected : b.Connected → c.Connected
  owns : ∀ event id, c.Owns event id ↔ b.Owns event id
  holds : ∀ wired L, Holds L b.queue → Holds (L ++ [⟨event, payload, wired⟩]) c.queue
  starts : ∀ wired L target, Holds L b.queue →
    (Starts L ⟨event, payload, wired⟩ target ↔ started = some target)

/-- No signal: the queues stay as they are. -/
theorem Takes.of_silent {started : Option Event}
    (hsilent : ∀ wired a, Emission.signal? a ⟨event, payload, wired⟩ = none)
    (hrelayed : ∀ target, (event, target) ∈ relayed ↔ started = some target) :
    Takes event payload started b b where
  connected := id
  owns _ _ := Iff.rfl
  holds wired _ h := h.silent (hsilent wired)
  starts wired _ target _ := (starts_iff_of_silent (hsilent wired)).trans (hrelayed target)

/-- An event without connection. -/
theorem takes_of_none (hof : Connection.of? event = none) : Takes event payload none b b := by
  refine .of_silent (fun wired => Emission.signal?_of_not ?_ ?_) fun target => ?_
  · exact fun a h => nomatch hof.symm.trans h
  · exact fun a h => nomatch hof.symm.trans h
  · rw [← Connection.of?_eq_relays_iff, hof]
    simp

theorem takes_relays (hof : Connection.of? event = some (.relays target)) :
    Takes event payload (some target) b b := by
  refine .of_silent (fun wired => Emission.signal?_of_not ?_ ?_) fun other => ?_
  · exact fun a h => nomatch hof.symm.trans h
  · exact fun a h => nomatch hof.symm.trans h
  · rw [← Connection.of?_eq_relays_iff, hof]
    simp

section Signals

variable {a : Aggregate} {name : String}

/-- A signal without id. -/
theorem takes_no_id (hof : Connection.of? event = some (.enters a)
    ∨ Connection.of? event = some (.leaves a)) (hid : payload.id? = none) :
    Takes event payload none b b := by
  refine .of_silent (fun wired => Emission.signal?_of_no_id hid) fun target => ?_
  rw [← Connection.of?_eq_relays_iff]
  rcases hof with hof | hof <;> simp [hof]

theorem takes_insert (hof : Connection.of? event = some (.enters a))
    (hid : payload.id? = some name) :
    Takes event payload (if (b.insertId a name).1 then some (.external a.onFirst) else none) b
      (b.insertId a name).2 := by
  have hsignal : ∀ wired, Emission.signal? a ⟨event, payload, wired⟩ = some (name, true) :=
    fun wired => Emission.signal?_of_enters hof hid
  refine ⟨fun h => h.setQueue a _, fun _ _ => Channels.owns_setQueue a _, fun wired L h => ?_,
    fun wired L target h => ?_⟩
  · rw [Channels.insertId, Channels.queue_setQueue]
    exact h.insert (hsignal wired)
  · rw [h.starts_insert (hsignal wired)]
    rw [Option.ite_none_right_eq_some, Option.some_inj]
    exact and_congr_right fun _ => eq_comm

theorem takes_erase (hof : Connection.of? event = some (.leaves a))
    (hid : payload.id? = some name) :
    Takes event payload (if (b.eraseId a name).1 then some (.external a.onEmpty) else none) b
      (b.eraseId a name).2 := by
  have hsignal : ∀ wired, Emission.signal? a ⟨event, payload, wired⟩ = some (name, false) :=
    fun wired => Emission.signal?_of_leaves hof hid
  refine ⟨fun h => h.setQueue a _, fun _ _ => Channels.owns_setQueue a _, fun wired L h => ?_,
    fun wired L target h => ?_⟩
  · rw [Channels.eraseId, Channels.queue_setQueue]
    exact h.erase (hsignal wired)
  · rw [h.starts_erase (hsignal wired)]
    rw [Option.ite_none_right_eq_some, Option.some_inj]
    exact and_congr_right fun _ => eq_comm

end Signals

/-! ## Emissions -/

/-- The entries between the beginning and the completion of an emission are those of its connection,
if it has one, and those of host code. -/
structure Served (form : FormId) (entries z y : List (Occurrence κ)) : Prop where
  emissions : ∀ calls, emissionsIn form (false :: calls) entries
    = emissionsIn form (true :: calls) z ++ emissionsIn form (false :: calls) y
  ends : ∀ calls, ∃ last, callsAfter form (false :: calls) entries = last :: calls
  tallied : ∀ calls L, Tallied form L (true :: calls) z →
    Tallied form (L ++ emissionsIn form (true :: calls) z) (false :: calls) y →
    Tallied form L (false :: calls) entries

/-- Calls of host code, the first of which ends the call that was before it. -/
def Hosted (form : FormId) (entries : List (Occurrence κ)) : Prop :=
  entries = [] ∨ ∃ event id name payload rest,
    entries = .delivered form event id (.host name) payload :: rest

section Served

variable {x y z : List (Occurrence κ)} {handler : Handler κ}

/-- Without connection. -/
theorem Orderly.served_hosts (hy : Orderly form false y b c) : Served form y [] y where
  emissions _ := rfl
  ends calls := ⟨false, hy.ends calls⟩
  tallied _ _ _ h := by rwa [emissionsIn, List.append_nil] at h

/-- With a connection in front. -/
theorem Orderly.served (hz : Orderly form true z b c) (hy : Orderly form false y c d)
    (hhosted : Hosted form y) {connection : Connection} : Served form
      (.delivered form event id (.connection connection) payload :: (z ++ y)) z y := by
  have hconnection : (Handler.connection connection : Handler κ).isConnection = true := rfl
  refine ⟨?emissions, ?ends, ?tallied⟩
  case emissions =>
    intro calls
    rw [emissionsIn_delivered, emissionsIn_append, hconnection, hz.ends]
    -- the first call of host code sets the mark anew, so what the connection left of it is lost
    obtain rfl | ⟨_, _, _, _, _, rfl⟩ := hhosted
    · rfl
    · rw [emissionsIn_delivered, emissionsIn_delivered]
  case ends =>
    intro calls
    rw [callsAfter_delivered, callsAfter_append, hconnection, hz.ends]
    have hlast := hy.ends calls
    obtain rfl | ⟨_, _, _, _, _, rfl⟩ := hhosted
    · exact ⟨true, rfl⟩
    · rw [callsAfter_delivered] at hlast ⊢
      exact ⟨false, hlast⟩
  case tallied =>
    intro calls L htallied hrest
    refine tallied_delivered (htallied.append ?_)
    rw [hz.ends]
    obtain rfl | ⟨_, _, _, _, _, rfl⟩ := hhosted
    · exact tallied_nil
    · intro before queue size after hsplit
      have hsize := hrest before queue size after hsplit
      cases before with
      | nil => cases hsplit
      | cons _ before =>
        cases hsplit
        rwa [emissionsIn_delivered] at hsize ⊢

/-- An emission is orderly: the event is taken in, the connection writes what it has to emit, and
host code comes behind it. -/
theorem Orderly.emission {started : Option Event} {count : Nat}
    (htakes : Takes event payload started b b') (hz : Orderly form true z b' c)
    (hhead : ∀ calls, (emissionsIn form (true :: calls) z).head?
      = started.map (⟨·, payload, true⟩))
    (hy : Orderly form false y c d) (hx : Served form x z y) :
    Orderly form wired (.emitted form event payload :: (x ++ [.completed form event count])) b d
      ∧ ∀ calls, (emissionsIn form (wired :: calls)
          (.emitted form event payload :: (x ++ [.completed form event count]))).head?
        = some ⟨event, payload, wired⟩ := by
  have hall : ∀ calls, emissionsIn form (wired :: calls)
      (.emitted form event payload :: (x ++ [.completed form event count]))
        = ⟨event, payload, wired⟩ :: (emissionsIn form (true :: wired :: calls) z
          ++ emissionsIn form (false :: wired :: calls) y) := by
    intro calls
    rw [emissionsIn_emitted, emissionsIn_append, hx.emissions]
    simp [emissionsIn, Occurrence.emission?]
  refine ⟨⟨hy.connected, ?owns, ?ends, ?head, ?reacts, ?holds, ?tallied⟩, ?first⟩
  case owns =>
    exact fun event id =>
      (hy.owns event id).trans ((hz.owns event id).trans (htakes.owns event id))
  case ends =>
    intro calls
    obtain ⟨last, hlast⟩ := hx.ends (wired :: calls)
    rw [callsAfter_emitted, callsAfter_append, hlast, callsAfter_completed]
  case head =>
    intro calls e he
    rw [hall] at he
    cases he
    rfl
  case reacts =>
    intro calls L hL
    rw [hall]
    have htaken := htakes.holds wired L hL
    refine ⟨fun target payload' => ?_, (hz.reacts _ _ htaken).append
      (hy.reacts _ _ (hz.holds _ _ htaken)) (hy.unprompted _)⟩
    rw [htakes.starts wired L target hL, List.head?_append, hhead]
    cases started with
    | none =>
      -- the next emission, if there is one, is made by host code
      simp only [Option.map_none, Option.none_or, reduceCtorEq, and_false, iff_false]
      exact fun h => nomatch hy.unprompted _ _ h
    | some started => simp [eq_comm, and_comm]
  case holds =>
    intro calls L hL
    rw [hall, ← List.singleton_append, ← List.append_assoc, ← List.append_assoc]
    exact hy.holds _ _ (hz.holds _ _ (htakes.holds wired L hL))
  case tallied =>
    intro calls L hL
    have htaken := htakes.holds wired L hL
    refine tallied_emitted (Tallied.append ?_ (.cons nofun tallied_nil))
    exact hx.tallied _ _ (hz.tallied _ _ htaken) (hy.tallied _ _ (hz.holds _ _ htaken))
  case first =>
    intro calls
    rw [hall]
    rfl

end Served

end FormTree
