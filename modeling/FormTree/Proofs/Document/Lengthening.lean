import FormTree.Proofs.Document.Readdressing

/-!
# Items put at the end of a container

When a container gets further items at its end, all nodes stay that there are, and in each new item
stand the nodes of its document.  The names there are those of the document, below the name of the
container and the index of the item; all other names are those that there were.
-/

namespace FormTree

variable {κ : Type}

/-! ## Further items -/

/-- In a new definition of a container some copies of an item stand behind the items, and whatever else
a reader looks at is as it was. -/
structure Lengthened (c : Container) (v : Visit) (definition : List Data) (item : Data)
    (added : Nat) : Prop where
  kind : v.kind = c.kind
  slots : ∀ slot, slot ≠ v.kind.insideAt → slot ≠ v.kind.errorsAt →
    slotAt definition slot = slotAt v.definition slot
  items : (slotAt definition v.kind.insideAt).items = v.items ++ List.replicate added item
  /-- As long as there are no further items there need not be a list. -/
  content : slotAt definition v.kind.insideAt = slotAt v.definition v.kind.insideAt
    ∨ ∃ items, slotAt definition v.kind.insideAt = .list items

theorem getElem?_append_replicate {α : Type} {items : List α} {item found : α} {added index : Nat} :
    (items ++ List.replicate added item)[index]? = some found
      ↔ items[index]? = some found
        ∨ items.length ≤ index ∧ index < items.length + added ∧ found = item := by
  rw [List.getElem?_append]
  split
  · next hlt => simp [Nat.not_le_of_lt hlt]
  · next hnot =>
    have hle := Nat.le_of_not_lt hnot
    rw [List.getElem?_replicate, List.getElem?_eq_none hle, ← Nat.sub_lt_iff_lt_add' hle]
    split <;> simp_all [eq_comm]

namespace Lengthened

variable {config : Config κ} {form : FormId} {c : Container} {u v : Visit} {definition : List Data}
  {item : Data} {added : Nat} {nodes : List (Node κ)}

/-- A container with further items reads alike. -/
theorem alike (h : Lengthened c v definition item added) :
    v.Alike { v with definition := definition } :=
  .of_slots ⟨c, h.kind⟩ h.slots

/-- Inside a container with further items stands what was there, and in each of these items what
stands in its document. -/
theorem encloses_iff (h : Lengthened c v definition item added) :
    Visit.Encloses { v with definition := definition } u ↔ v.Encloses u
      ∨ ∃ (index : Nat) (t : Visit), v.items.length ≤ index ∧ index < v.items.length + added
        ∧ (c.document item).Reached (t.under c.lead []) ∧ u = t.within v index := by
  have hkind : ({ v with definition := definition } : Visit).kind = c.kind := h.kind
  rw [Visit.encloses_iff hkind, Visit.encloses_iff h.kind]
  simp only [Visit.items, h.items, getElem?_append_replicate, h.alike.within_eq]
  constructor
  · rintro ⟨index, found, t, hfound | ⟨hle, hlt, rfl⟩, ht, rfl⟩
    · exact .inl ⟨index, found, t, hfound, ht, rfl⟩
    · exact .inr ⟨index, t, hle, hlt, ht, rfl⟩
  · rintro (⟨index, found, t, hfound, ht, rfl⟩ | ⟨index, t, hle, hlt, ht, rfl⟩)
    · exact ⟨index, found, t, .inl hfound, ht, rfl⟩
    · exact ⟨index, item, t, .inr ⟨hle, hlt, rfl⟩, ht, rfl⟩

theorem mem_items (h : Lengthened c v definition item added) {items : List Data} {found : Data}
    (hitems : slotAt definition v.kind.insideAt = .list items) (hfound : found ∈ items) :
    found ∈ v.items ∨ found = item := by
  have hall := h.items
  rw [hitems, Data.items_list] at hall
  rw [hall] at hfound
  exact (List.mem_append.1 hfound).imp_right List.eq_of_mem_replicate

/-- A container with further items that can be read is as sound. -/
theorem sound (h : Lengthened c v definition item added) (hsound : v.Sound config)
    (hread : Node.readForm config form (c.document item) = some (.ok nodes)) :
    ({ v with definition := definition } : Visit).Sound config := by
  obtain ⟨found, hfound, hnodes, -⟩ := readForm_ok_iff.1 ⟨nodes, hread⟩
  refine hsound.of_items h.kind h.alike (h.content.imp_right ?_)
  rintro ⟨items, hitems⟩
  refine ⟨items, hitems, fun other hother => (h.mem_items hitems hother).imp_right ?_⟩
  rintro rfl
  exact ⟨found, hfound, hnodes⟩

theorem soundBelow (h : Lengthened c v definition item added)
    (hsound : SoundBelow config v.Encloses)
    (hread : Node.readForm config form (c.document item) = some (.ok nodes)) :
    SoundBelow config (Visit.Encloses { v with definition := definition }) := by
  obtain ⟨_, -, -, hdocument⟩ := readForm_ok_iff.1 ⟨nodes, hread⟩
  intro u hu
  rcases h.encloses_iff.1 hu with hbefore | ⟨index, t, -, -, ht, rfl⟩
  · exact hsound u hbefore
  · exact (hdocument _ ht).under

end Lengthened

/-! ## Where a node comes from -/

namespace Rewritten

section

variable {config : Config κ} {state state' : Data} {c : Container} {u u' v w' : Visit}
  {definition : List Data} {item : Data} {added index : Nat} {rest : String}
  (h : Rewritten config state v definition state') (hmore : Lengthened c v definition item added)
include h hmore

/-- Every node that was reached still is, and reads alike; only the container and what stands around
it have other definitions. -/
theorem stays (hu : state.Reached u) :
    ∃ u', state'.Reached u' ∧ u.Alike u' ∧ (¬ u.path <+: v.path → u' = u) := by
  by_cases hbelow : v.path <+: u.path
  · rcases h.reached.inside_of_isPrefix hu hbelow with rfl | hinside
    · exact ⟨_, h.self, hmore.alike, fun hne => absurd (List.prefix_refl _) hne⟩
    · exact ⟨u, h.self.trans (hmore.encloses_iff.2 (.inl hinside)), .refl u, fun _ => rfl⟩
  · obtain ⟨u', hu', halike, -⟩ := h.kept u hu hbelow
    exact ⟨u', hu', halike, h.same hu hu' halike hbelow⟩

/-- What stands in the document of the item stands in each of the further items. -/
theorem arrives {t : Visit} (hle : v.items.length ≤ index) (hlt : index < v.items.length + added)
    (ht : (c.document item).Reached (t.under c.lead [])) : state'.Reached (t.within v index) :=
  h.self.trans (hmore.encloses_iff.2 (.inr ⟨index, t, hle, hlt, ht, rfl⟩))

/-- Every node that is reached was reached before, or stands in one of the further items. -/
theorem stayed_or_arrived (hu' : state'.Reached u') : (∃ u, state.Reached u ∧ u.Alike u')
    ∨ ∃ (index : Nat) (t : Visit), v.items.length ≤ index ∧ index < v.items.length + added
      ∧ (c.document item).Reached (t.under c.lead []) ∧ u' = t.within v index := by
  rcases h.cases hu' with rfl | hinside | ⟨-, u, hu, halike, -⟩
  · exact .inl ⟨v, h.reached, hmore.alike⟩
  · rcases hmore.encloses_iff.1 hinside with hbefore | harrived
    · exact .inl ⟨u', h.reached.trans hbefore, .refl u'⟩
    · exact .inr harrived
  · exact .inl ⟨u, hu, halike⟩

variable (hnames : WellNamed state)
include hnames

omit h in
/-- What is named like something in an item stands in one of the items that there were. -/
theorem lt_of_namePath (hv : state.Reached v) (hu : state.Reached u) (hnamed : u.kind.Named)
    (hname : u.namePath "." = itemName (v.namePath ".") index rest) : index < v.items.length := by
  obtain ⟨t, rfl, hinside, -⟩ := hnames.within_of_namePath hv ⟨c, hmore.kind⟩ hu hnamed hname
  exact Visit.lt_of_encloses ⟨c, hmore.kind⟩ hinside

/-- What is named like something in a further item stands in that item, and its name there is the one
that it has in the document of the item. -/
theorem arrived_of_namePath (hle : v.items.length ≤ index) (hu' : state'.Reached u')
    (hnamed : u'.kind.Named) (hname : u'.namePath "." = itemName (v.namePath ".") index rest) :
    ∃ t : Visit, (c.document item).Reached (t.under c.lead []) ∧ u' = t.within v index
      ∧ t.namePath "." = rest := by
  rcases h.stayed_or_arrived hmore hu' with ⟨u, hu, halike⟩ | ⟨other, t, -, -, ht, rfl⟩
  · rw [Visit.namePath, halike.segments] at hname
    exact absurd (lt_of_namePath hmore hnames h.reached hu (halike.kind ▸ hnamed) hname)
      (Nat.not_lt_of_le hle)
  · rw [Visit.namePath_within ⟨c, hmore.kind⟩] at hname
    obtain ⟨rfl, rfl⟩ := itemName_injective hname
    exact ⟨t, ht, rfl, rfl⟩

/-- Names are not ambiguous if they are distinct within the scopes of the document of the items. -/
theorem unambiguous_lengthened (hitem : WellNamed (c.document item)) :
    state'.Unambiguous "." := by
  intro u' w' hu' hunamed hw' hwnamed hname
  rcases h.stayed_or_arrived hmore hu' with ⟨u, hu, halike⟩ | ⟨index, t, hle, -, ht, rfl⟩
  · rcases h.stayed_or_arrived hmore hw' with ⟨w, hw, halike'⟩ | ⟨index, t, hle, -, ht, rfl⟩
    · rw [Visit.namePath, halike.segments, Visit.namePath, halike'.segments] at hname
      obtain rfl := hnames.unambiguous u w hu (halike.kind ▸ hunamed) hw (halike'.kind ▸ hwnamed) hname
      exact hu'.eq_of_path hw' (halike.path.trans halike'.path.symm)
    · rw [Visit.namePath_within ⟨c, hmore.kind⟩] at hname
      obtain ⟨s, hs, rfl, hrest⟩ := h.arrived_of_namePath hmore hnames hle hu' hunamed hname
      have hsame := hitem.unambiguous _ _ hs hunamed ht hwnamed hrest
      rw [Visit.under_injective hsame]
  · rw [Visit.namePath_within ⟨c, hmore.kind⟩] at hname
    obtain ⟨s, hs, rfl, hrest⟩ := h.arrived_of_namePath hmore hnames hle hw' hwnamed hname.symm
    have hsame := hitem.unambiguous _ _ hs hwnamed ht hunamed hrest
    rw [Visit.under_injective hsame]

end

/-- A form can be read after a container got further items that can be read. -/
theorem exists_read?_lengthened {config : Config κ} {form : FormId} {state state' : Data}
    {c : Container} {v : Visit} {definition : List Data} {item : Data} {added : Nat}
    {nodes : List (Node κ)} {directory : Directory κ}
    (h : Rewritten config state v definition state') (hmore : Lengthened c v definition item added)
    (hitem : Node.readForm config form (c.document item) = some (.ok nodes))
    (hread : Directory.read? config form state = some directory) :
    ∃ directory', Directory.read? config form state' = some directory' := by
  obtain ⟨nodes', hnodes⟩ := Directory.readForm_of_read? hread h.reached
  obtain ⟨_, -, -, hsound⟩ := readForm_ok_iff.1 ⟨nodes', hnodes⟩
  obtain ⟨nodes'', hnodes'⟩ := h.readable hnodes (hmore.sound (hsound v h.reached) hitem)
    (hmore.soundBelow (fun u hu => hsound u (h.reached.trans hu)) hitem)
  exact Directory.exists_read? hnodes'

end Rewritten

/-! ## Names and values -/

/-- What became of the names and values of a form when the container of a name, with `count` items, got
`added` further ones, and the form was rendered again.  The names and values of what such an item is as
a document of its own are those of `g`. -/
structure Form.Extended (f : Form κ) (state : Data) (f' : Form κ) (state' : Data) (name : String)
    (path : Path) (count added : Nat) (g : Form κ) (document : Data) : Prop where
  /-- Names belong to the nodes that they belonged to. -/
  get?_kept : ∀ other entry, f.directory.get? other = some entry →
    f'.directory.get? other = some entry
  /-- Only the container and what stands around it have other values. -/
  valueIn_kept : ∀ other entry, f.directory.get? other = some entry → ¬ entry.path <+: path →
    f'.valueIn state' other = f.valueIn state other
  /-- The names in a further item are those of the document, and have the values there. -/
  contains_added : ∀ index rest, count ≤ index → index < count + added →
    f'.directory.contains (itemName name index rest) = g.directory.contains rest
  valueIn_added : ∀ index rest value, count ≤ index → index < count + added →
    (f'.valueIn state' (itemName name index rest) = .ok value ↔ g.valueIn document rest = .ok value)
  /-- There are no other names. -/
  kept_or_added : ∀ other, f'.directory.contains other = true → f.directory.contains other = true
    ∨ ∃ index rest, count ≤ index ∧ index < count + added ∧ other = itemName name index rest

namespace Rewritten

section

variable {config : Config κ} {form : FormId} {state state' : Data} {c : Container} {v : Visit}
  {definition : List Data} {item : Data} {added : Nat} {f f' g : Form κ}
  {visits visits' others : List Visit}
  (h : Rewritten config state v definition state') (hmore : Lengthened c v definition item added)
  (hnames : WellNamed state) (hitem : WellNamed (c.document item))
  (hdot : config.settings.nameSeparator = ".")
  (hlists : Directory.Lists config form state visits f.directory)
  (hlists' : Directory.Lists config form state' visits' f'.directory)
include h hmore hnames hitem hdot hlists hlists'

theorem get?_kept {name : String} {entry : Entry κ} (hget : f.directory.get? name = some entry) :
    f'.directory.get? name = some entry := by
  obtain ⟨u, hu, hregistered⟩ := hlists.of_get? hget
  obtain ⟨u', hu', halike, -⟩ := h.stays hmore hu
  exact (hlists'.get?_iff (hdot ▸ h.unambiguous_lengthened hmore hnames hitem)).2
    ⟨u', hu', (halike.registered config form).trans hregistered⟩

theorem valueIn_kept {name : String} {entry : Entry κ} (hget : f.directory.get? name = some entry)
    (hapart : ¬ entry.path <+: v.path) : f'.valueIn state' name = f.valueIn state name := by
  have hget' := h.get?_kept hmore hnames hitem hdot hlists hlists' hget
  obtain ⟨u, hu, hregistered⟩ := hlists.of_get? hget
  obtain ⟨-, hpath, -⟩ := Visit.of_registered hregistered
  obtain ⟨u', hu', -, hsame⟩ := h.stays hmore hu
  obtain rfl := hsame (hpath ▸ hapart)
  rw [Form.valueIn_of_registered hget hregistered hu.stands.definition,
    Form.valueIn_of_registered hget' hregistered hu'.stands.definition]

omit hitem in
theorem kept_or_added {name : String} (hcontains : f'.directory.contains name = true) :
    f.directory.contains name = true ∨ ∃ index rest, v.items.length ≤ index
      ∧ index < v.items.length + added ∧ name = itemName (v.namePath ".") index rest := by
  obtain ⟨entry, hget⟩ := Option.isSome_iff_exists.1 hcontains
  obtain ⟨u', hu', hregistered⟩ := hlists'.of_get? hget
  rcases h.stayed_or_arrived hmore hu' with ⟨u, hu, halike⟩ | ⟨index, t, hle, hlt, -, rfl⟩
  · rw [halike.registered] at hregistered
    refine .inl (Option.isSome_iff_exists.2 ⟨entry, ?_⟩)
    exact (hlists.get?_iff (hdot ▸ hnames.unambiguous)).2 ⟨u, hu, hregistered⟩
  · obtain ⟨rfl, -⟩ := Visit.of_registered hregistered
    rw [hdot]
    exact .inr ⟨index, _, hle, hlt, Visit.namePath_within ⟨c, hmore.kind⟩ t index⟩

variable (hothers : Directory.Lists config form (c.document item) others g.directory)
include hothers

omit hlists in
theorem valueIn_added {index : Nat} {rest : String} {value : Json} (hle : v.items.length ≤ index)
    (hlt : index < v.items.length + added) :
    f'.valueIn state' (itemName (v.namePath ".") index rest) = .ok value
      ↔ g.valueIn (c.document item) rest = .ok value := by
  rw [hlists'.valueIn_iff (hdot ▸ h.unambiguous_lengthened hmore hnames hitem),
    hothers.valueIn_iff (hdot ▸ hitem.unambiguous), hdot]
  constructor
  · rintro ⟨u', hu', haddressable, hname, rfl⟩
    obtain ⟨t, ht, rfl, rfl⟩ :=
      h.arrived_of_namePath hmore hnames hle hu' haddressable.named hname
    exact ⟨t.under c.lead [], ht, haddressable, c.namePath_under_lead t, rfl⟩
  · rintro ⟨u, hu, haddressable, rfl, rfl⟩
    obtain ⟨t, rfl⟩ := Container.exists_under_lead hu
    exact ⟨t.within v index, h.arrives hmore hle hlt hu, haddressable,
      Visit.namePath_within ⟨c, hmore.kind⟩ t index, rfl⟩

/-- Putting items at the end of a container extends the names and leaves those that there are. -/
theorem extended :
    f.Extended state f' state' (v.namePath ".") v.path v.items.length added g (c.document item) where
  get?_kept _ _ := h.get?_kept hmore hnames hitem hdot hlists hlists'
  valueIn_kept _ _ := h.valueIn_kept hmore hnames hitem hdot hlists hlists'
  contains_added index rest hle hlt := by
    rw [Bool.eq_iff_iff,
      hlists'.contains_iff (hdot ▸ h.unambiguous_lengthened hmore hnames hitem),
      hothers.contains_iff (hdot ▸ hitem.unambiguous)]
    exact exists_congr fun _ => h.valueIn_added hmore hnames hitem hdot hlists' hothers hle hlt
  valueIn_added _ _ _ := h.valueIn_added hmore hnames hitem hdot hlists' hothers
  kept_or_added _ := h.kept_or_added hmore hnames hdot hlists hlists'

end

end Rewritten

end FormTree
