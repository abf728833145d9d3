import FormTree.Proofs.Document.Directory
import FormTree.Proofs.Document.Moving

/-!
# The names of moved items

A node in an item of a container has the name path of the container, the index of the item, and a rest
that depends on where it stands in the item alone.  So when the items of a container are rearranged,
the names of what stands in an item are those that it had, with the new index in the place of the old
one; and all other names belong to the nodes that they belonged to.  For this the names have to be fit
for name paths: otherwise a name may come to belong to another node.
-/

namespace FormTree

variable {κ : Type}

/-- The name of what is called `rest` in the item at an index of a container. -/
def itemName (container : String) (index : Nat) (rest : String) : String :=
  container ++ "." ++ toString index ++ "." ++ rest

/-- The segments of the container, the index, and the segments of the rest. -/
theorem intercalate_item (above : List String) (index : Nat) (rest : List String)
    (habove : above ≠ []) (hrest : rest ≠ []) : ".".intercalate (above ++ toString index :: rest)
      = itemName (".".intercalate above) index (".".intercalate rest) := by
  rw [String.intercalate_append_of_ne_nil habove (List.cons_ne_nil _ _),
    show toString index :: rest = [toString index] ++ rest from rfl,
    String.intercalate_append_of_ne_nil (List.cons_ne_nil _ _) hrest, String.intercalate_singleton]
  simp [itemName, String.append_assoc]

theorem segments_item_injective {above : List String} {index other : Nat}
    {rest further : List String}
    (h : above ++ toString index :: rest = above ++ toString other :: further) :
    index = other ∧ rest = further := by
  obtain ⟨hindex, hrest⟩ := List.cons.inj (List.append_cancel_left h)
  exact ⟨Nat.repr_inj.1 hindex, hrest⟩

/-- The index and the rest can be recovered from the name. -/
theorem itemName_injective {container rest further : String} {index other : Nat}
    (h : itemName container index rest = itemName container other further) :
    index = other ∧ rest = further := by
  obtain ⟨above, habove, hdotless, rfl⟩ := exists_segments container
  obtain ⟨first, hfirst, hdotless₁, rfl⟩ := exists_segments rest
  obtain ⟨second, hsecond, hdotless₂, rfl⟩ := exists_segments further
  rw [← intercalate_item _ _ _ habove hfirst, ← intercalate_item _ _ _ habove hsecond] at h
  have hall : ∀ {i : Nat} {parts : List String}, (∀ segment ∈ parts, Dotless segment) →
      ∀ segment ∈ above ++ toString i :: parts, Dotless segment := by
    intro i parts hparts segment hsegment
    rcases List.mem_append.1 hsegment with hmem | hmem
    · exact hdotless segment hmem
    · rcases List.mem_cons.1 hmem with rfl | hmem
      · exact dotless_toString i
      · exact hparts segment hmem
  obtain ⟨rfl, rfl⟩ := segments_item_injective
    (intercalate_injective (by simp) (by simp) (hall hdotless₁) (hall hdotless₂) h)
  exact ⟨rfl, rfl⟩

section

variable {config : Config κ} {form : FormId} {state state' : Data} {u v t : Visit}
  {definition : List Data} {sources : List Nat} {name rest : String} {index source : Nat}
  {entry : Entry κ}

theorem Visit.segments_within (hcontainer : ∃ c : Container, v.kind = c.kind) (t : Visit)
    (index : Nat) : (t.within v index).segments = v.segments ++ toString index :: t.segments := by
  obtain ⟨c, hc⟩ := hcontainer
  have hinside : v.kind.segmentsInside v.name index = [v.name, toString index] := by
    rw [hc]
    cases c <;> rfl
  have habove : (t.within v index).above
      = v.above ++ v.kind.segmentsInside v.name index ++ t.above := rfl
  have hname : (t.within v index).name = t.name := rfl
  rw [Visit.segments, habove, hname, hinside]
  simp [Visit.segments]

theorem Visit.namePath_within (hcontainer : ∃ c : Container, v.kind = c.kind) (t : Visit)
    (index : Nat) :
    (t.within v index).namePath "." = itemName (v.namePath ".") index (t.namePath ".") := by
  rw [Visit.namePath, Visit.segments_within hcontainer,
    intercalate_item _ _ _ (by simp [Visit.segments]) (by simp [Visit.segments])]
  rfl

/-- A node that is named like something in an item of a container stands in that item. -/
theorem WellNamed.within_of_namePath (h : WellNamed state) (hv : state.Reached v)
    (hcontainer : ∃ c : Container, v.kind = c.kind) (hu : state.Reached u) (hnamed : u.kind.Named)
    (hname : u.namePath "." = itemName (v.namePath ".") index rest) :
    ∃ t : Visit, u = t.within v index ∧ v.Encloses u ∧ t.namePath "." = rest := by
  have hvnamed : v.kind.Named := by
    obtain ⟨c, hc⟩ := hcontainer
    rw [hc]
    cases c <;> trivial
  obtain ⟨parts, hparts, hdotless, rfl⟩ := exists_segments rest
  rw [Visit.namePath.eq_1 "." v, ← intercalate_item _ _ _ (by simp [Visit.segments]) hparts] at hname
  have hsegments : u.segments = v.segments ++ toString index :: parts := by
    refine h.segments_of_namePath hu hnamed (by simp) (fun segment hsegment => ?_) hname
    rcases List.mem_append.1 hsegment with hmem | hmem
    · exact h.dotless_segments hv hvnamed segment hmem
    · rcases List.mem_cons.1 hmem with rfl | hmem
      · exact dotless_toString index
      · exact hdotless segment hmem
  rcases h.encloses_of_isPrefix hv hvnamed hu hnamed (hsegments ▸ List.prefix_append ..)
    with rfl | hencloses
  · simp at hsegments
  · obtain ⟨other, t, rfl⟩ := hencloses.exists_within hcontainer
    rw [Visit.segments_within hcontainer] at hsegments
    obtain ⟨rfl, hsame⟩ := segments_item_injective hsegments
    exact ⟨t, rfl, hencloses, by rw [Visit.namePath, hsame]⟩

theorem WellNamed.unambiguous (h : WellNamed state) : state.Unambiguous "." :=
  fun _ _ hu hunamed hv hvnamed => h.eq_of_namePath hu hunamed hv hvnamed

theorem Visit.Encloses.not_above (h : v.Encloses u) : ¬ u.path <+: v.path := by
  obtain ⟨slot, q, hq⟩ := h.path_eq
  intro hpre
  have hlength := hpre.length_le
  simp only [hq, List.length_append, List.length_cons] at hlength
  omega

theorem Visit.Encloses.below (h : v.Encloses u) : v.path <+: u.path := by
  obtain ⟨slot, q, hq⟩ := h.path_eq
  exact ⟨_, hq.symm⟩

/-! ## Where a node comes from -/

/-- Where a node comes from when the items of a container are rearranged: a node in an item comes from
the item that was taken over, and any other node from one that reads alike. -/
inductive Visit.Origin (v : Visit) (sources : List Nat) : Visit → Visit → Prop where
  | moved {t : Visit} {index source : Nat} (hsource : sources[index]? = some source)
    (hinside : v.Encloses (t.within v source)) :
    Origin v sources (t.within v index) (t.within v source)
  | kept {u u' : Visit} (halike : u.Alike u') (houtside : ¬ v.Encloses u) : Origin v sources u' u

namespace Rewritten

variable (h : Rewritten config state v definition state') (hmoved : Rearranged v definition sources)
include h hmoved

/-- Every node comes from one that was reached before. -/
theorem origin (hu' : state'.Reached u') : ∃ u, state.Reached u ∧ v.Origin sources u' u := by
  rcases h.cases hu' with rfl | hinside | ⟨hbelow, u, hu, halike, -⟩
  · exact ⟨v, h.reached, .kept hmoved.alike fun hself => hself.not_above (List.prefix_refl _)⟩
  · obtain ⟨_, source, t, hsource, hbefore, rfl⟩ := hmoved.encloses_iff.1 hinside
    exact ⟨_, h.reached.trans hbefore, .moved hsource hbefore⟩
  · exact ⟨u, hu, .kept halike fun hinside => hbelow (halike.path ▸ hinside.below)⟩

/-- Every node outside the items is still reached. -/
theorem outside (hu : state.Reached u) (houtside : ¬ v.Encloses u) :
    ∃ u', state'.Reached u' ∧ u.Alike u' := by
  by_cases hbelow : v.path <+: u.path
  · obtain rfl := (h.reached.inside_of_isPrefix hu hbelow).resolve_right houtside
    exact ⟨_, h.self, hmoved.alike⟩
  · obtain ⟨u', hu', halike, -⟩ := h.kept u hu hbelow
    exact ⟨u', hu', halike⟩

variable (hnames : WellNamed state)
include hnames

/-- What is named like something in an item comes from the item that was taken over, where it has the
rest of the name. -/
theorem origin_item (hu' : state'.Reached u') (hnamed : u'.kind.Named)
    (hname : u'.namePath "." = itemName (v.namePath ".") index rest) :
    ∃ (t : Visit) (source : Nat), u' = t.within v index ∧ sources[index]? = some source
      ∧ v.Encloses (t.within v source) ∧ t.namePath "." = rest := by
  obtain ⟨u, hu, horigin⟩ := h.origin hmoved hu'
  cases horigin with
  | moved hsource hinside =>
    rw [Visit.namePath_within hmoved.container] at hname
    obtain ⟨rfl, rfl⟩ := itemName_injective hname
    exact ⟨_, _, rfl, hsource, hinside, rfl⟩
  | kept halike houtside =>
    rw [Visit.namePath, halike.segments] at hname
    obtain ⟨_, rfl, hinside, -⟩ :=
      hnames.within_of_namePath h.reached hmoved.container hu (halike.kind ▸ hnamed) hname
    exact absurd hinside houtside

/-- Names are not ambiguous after the items were rearranged. -/
theorem unambiguous : state'.Unambiguous "." := by
  intro u' w' hu' hunamed hw' hwnamed hname
  obtain ⟨u, hu, horigin⟩ := h.origin hmoved hu'
  cases horigin with
  | @moved t index source hsource hinside =>
    rw [Visit.namePath_within hmoved.container] at hname
    obtain ⟨s, other, rfl, hother, hinside', hrest⟩ :=
      h.origin_item hmoved hnames hw' hwnamed hname.symm
    obtain rfl := Option.some.inj (hsource.symm.trans hother)
    have hsame : t.within v source = s.within v source :=
      hnames.unambiguous _ _ (h.reached.trans hinside) hunamed (h.reached.trans hinside') hwnamed
        (by simp only [Visit.namePath_within hmoved.container, hrest])
    rw [(Visit.within_injective hsame).2]
  | kept halike houtside =>
    obtain ⟨w, hw, horigin'⟩ := h.origin hmoved hw'
    rw [Visit.namePath, halike.segments] at hname
    cases horigin' with
    | moved hsource hinside =>
      rw [Visit.namePath_within hmoved.container] at hname
      obtain ⟨_, rfl, hinside', -⟩ :=
        hnames.within_of_namePath h.reached hmoved.container hu (halike.kind ▸ hunamed) hname
      exact absurd hinside' houtside
    | kept halike' houtside' =>
      rw [Visit.namePath, halike'.segments] at hname
      obtain rfl := hnames.unambiguous u w hu (halike.kind ▸ hunamed) hw (halike'.kind ▸ hwnamed) hname
      exact hu'.eq_of_path hw' (halike.path.trans halike'.path.symm)

end Rewritten

end

/-! ## Names and values -/

/-- What became of the names and values of a form when the items of the container of a name were
rearranged, and the form was rendered again: what was named like something in the item at
`source index` is named likewise in the item at `index`, and all other names belong to the nodes that
they belonged to.  Of these only the container and what stands around it have other values. -/
structure Form.Readdressed (f : Form κ) (state : Data) (f' : Form κ) (state' : Data) (name : String)
    (path : Path) (source : Nat → Nat) : Prop where
  contains : ∀ index rest, f'.directory.contains (itemName name index rest)
    = f.directory.contains (itemName name (source index) rest)
  valueIn : ∀ index rest value, f'.valueIn state' (itemName name index rest) = .ok value
    ↔ f.valueIn state (itemName name (source index) rest) = .ok value
  get?_other : ∀ other, (∀ index rest, other ≠ itemName name index rest) →
    f'.directory.get? other = f.directory.get? other
  valueIn_other : ∀ other, (∀ index rest, other ≠ itemName name index rest) →
    (∀ entry, f.directory.get? other = some entry → ¬ entry.path <+: path) →
    f'.valueIn state' other = f.valueIn state other

theorem Kind.Addressable.named {kind : Kind} (h : kind.Addressable) : kind.Named := by
  rcases h with rfl | rfl | rfl <;> trivial

/-- A name that nothing in an item could have belongs to a node outside the items. -/
theorem Rearranged.outside_of_name {config : Config κ} {form : FormId} {u v : Visit}
    {definition : List Data} {sources : List Nat} {name : String} {entry : Entry κ}
    (hmoved : Rearranged v definition sources) (hdot : config.settings.nameSeparator = ".")
    (hother : ∀ index rest, name ≠ itemName (v.namePath ".") index rest)
    (hregistered : u.registered config form = some (name, entry)) : ¬ v.Encloses u := by
  intro hinside
  obtain ⟨rfl, -⟩ := Visit.of_registered hregistered
  obtain ⟨index, t, rfl⟩ := hinside.exists_within hmoved.container
  rw [hdot, Visit.namePath_within hmoved.container] at hother
  exact hother _ _ rfl

namespace Rewritten

variable {config : Config κ} {form : FormId} {state state' : Data} {v : Visit}
  {definition : List Data} {sources : List Nat} {source : Nat → Nat}

/-- A form can be read after the items were rearranged. -/
theorem exists_read? {directory : Directory κ} (h : Rewritten config state v definition state')
    (hmoved : Rearranged v definition sources)
    (hread : Directory.read? config form state = some directory) :
    ∃ directory', Directory.read? config form state' = some directory' := by
  obtain ⟨nodes, hnodes⟩ := Directory.readForm_of_read? hread h.reached
  obtain ⟨_, -, -, hsound⟩ := readForm_ok_iff.1 ⟨nodes, hnodes⟩
  obtain ⟨nodes', hnodes'⟩ := h.readable hnodes (hmoved.sound (hsound v h.reached))
    (hmoved.soundBelow fun u hu => hsound u (h.reached.trans hu))
  exact Directory.exists_read? hnodes'

section

variable {f f' : Form κ} {visits visits' : List Visit}
  (h : Rewritten config state v definition state') (hmoved : Rearranged v definition sources)
  (hnames : WellNamed state) (hdot : config.settings.nameSeparator = ".")
  (hlists : Directory.Lists config form state visits f.directory)
  (hlists' : Directory.Lists config form state' visits' f'.directory)
include h hmoved hnames hdot hlists hlists'

theorem valueIn_item {index : Nat} {rest : String} {value : Json}
    (hsource : ∀ found, sources[index]? = some found → source index = found)
    (hnone : sources[index]? = none → v.items.length ≤ source index) :
    f'.valueIn state' (itemName (v.namePath ".") index rest) = .ok value
      ↔ f.valueIn state (itemName (v.namePath ".") (source index) rest) = .ok value := by
  rw [hlists'.valueIn_iff (hdot ▸ h.unambiguous hmoved hnames),
    hlists.valueIn_iff (hdot ▸ hnames.unambiguous), hdot]
  constructor
  · rintro ⟨u', hu', haddressable, hname, rfl⟩
    obtain ⟨t, found, rfl, hfound, hinside, rfl⟩ :=
      h.origin_item hmoved hnames hu' haddressable.named hname
    obtain rfl := hsource found hfound
    exact ⟨t.within v (source index), h.reached.trans hinside, haddressable,
      Visit.namePath_within hmoved.container t _, rfl⟩
  · rintro ⟨u, hu, haddressable, hname, rfl⟩
    obtain ⟨t, rfl, hinside, rfl⟩ :=
      hnames.within_of_namePath h.reached hmoved.container hu haddressable.named hname
    have hlt := Visit.lt_of_encloses hmoved.container hinside
    cases hindex : sources[index]? with
    | none => exact absurd (hnone hindex) (Nat.not_le_of_lt hlt)
    | some found =>
      obtain rfl := hsource found hindex
      have harrived := hmoved.encloses_iff.2 ⟨index, _, t, hindex, hinside, rfl⟩
      exact ⟨t.within v index, h.self.trans harrived, haddressable,
        Visit.namePath_within hmoved.container t _, rfl⟩

theorem get?_other {name : String}
    (hother : ∀ index rest, name ≠ itemName (v.namePath ".") index rest) :
    f'.directory.get? name = f.directory.get? name := by
  ext entry
  rw [hlists'.get?_iff (hdot ▸ h.unambiguous hmoved hnames),
    hlists.get?_iff (hdot ▸ hnames.unambiguous)]
  constructor
  · rintro ⟨u', hu', hregistered⟩
    obtain ⟨u, hu, horigin⟩ := h.origin hmoved hu'
    cases horigin with
    | moved hsource hinside =>
      obtain ⟨rfl, -⟩ := Visit.of_registered hregistered
      rw [hdot, Visit.namePath_within hmoved.container] at hother
      exact absurd rfl (hother _ _)
    | kept halike => exact ⟨u, hu, halike.registered config form ▸ hregistered⟩
  · rintro ⟨u, hu, hregistered⟩
    obtain ⟨u', hu', halike⟩ := h.outside hmoved hu
      (hmoved.outside_of_name hdot hother hregistered)
    exact ⟨u', hu', (halike.registered config form).trans hregistered⟩

theorem valueIn_other {name : String}
    (hother : ∀ index rest, name ≠ itemName (v.namePath ".") index rest)
    (hapart : ∀ entry, f.directory.get? name = some entry → ¬ entry.path <+: v.path) :
    f'.valueIn state' name = f.valueIn state name := by
  have hsame := h.get?_other hmoved hnames hdot hlists hlists' hother
  cases hget : f.directory.get? name with
  | none =>
    rw [Form.valueIn, Form.valueIn, Directory.entry, Directory.entry, hsame, hget]
    rfl
  | some entry =>
    obtain ⟨u, hu, hregistered⟩ := hlists.of_get? hget
    obtain ⟨-, hpath, -⟩ := Visit.of_registered hregistered
    have houtside := hmoved.outside_of_name hdot hother hregistered
    obtain ⟨u', hu', halike⟩ := h.outside hmoved hu houtside
    have habove : ¬ u.path <+: v.path := hpath ▸ hapart entry hget
    have hbelow : ¬ v.path <+: u.path := fun hpre => (h.reached.inside_of_isPrefix hu hpre).elim
      (fun heq => habove (heq ▸ List.prefix_refl _)) houtside
    obtain rfl := h.same hu hu' halike hbelow habove
    rw [Form.valueIn_of_registered hget hregistered hu.stands.definition,
      Form.valueIn_of_registered (hsame.trans hget) hregistered hu'.stands.definition]

/-- Rearranging the items of a container readdresses what stands in them. -/
theorem readdressed
    (hsource : ∀ index found, sources[index]? = some found → source index = found)
    (hnone : ∀ index, sources[index]? = none → v.items.length ≤ source index) :
    f.Readdressed state f' state' (v.namePath ".") v.path source := by
  have hvalue : ∀ index rest value,
      f'.valueIn state' (itemName (v.namePath ".") index rest) = .ok value
        ↔ f.valueIn state (itemName (v.namePath ".") (source index) rest) = .ok value :=
    fun index _ _ => h.valueIn_item hmoved hnames hdot hlists hlists' (hsource index) (hnone index)
  refine ⟨fun index rest => Bool.eq_iff_iff.2 ?_, hvalue,
    fun _ => h.get?_other hmoved hnames hdot hlists hlists',
    fun _ => h.valueIn_other hmoved hnames hdot hlists hlists'⟩
  rw [hlists'.contains_iff (hdot ▸ h.unambiguous hmoved hnames),
    hlists.contains_iff (hdot ▸ hnames.unambiguous)]
  exact exists_congr (hvalue index rest)

end

end Rewritten

end FormTree
