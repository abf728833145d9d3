import FormTree.Proofs.Document.Moving

/-!
# Taking a field out of its list

When an item of a list is taken out, the items behind it move up by one.  `Path.Slides` says where a
place is found afterwards; the order of the document does not change thereby.  The names of nodes do
not depend on where in the list they stand, unless the list is that of the child forms of a container.

So if a field is taken out of its list, the nodes of the document are the other nodes, which read
alike, in the same order: this is `TakenOut`.  The nodes around the field have other definitions, and
one that has nothing inside any more may need less than before to be read.
-/

namespace FormTree

variable {κ : Type}

/-! ## Places behind a gap -/

/-- Where a place is found after the item at an index of a list was taken out. -/
def Path.Slides (list : Path) (index : Nat) (p p' : Path) : Prop :=
  (∃ j rest, index ≤ j ∧ p = list ++ (j + 1) :: rest ∧ p' = list ++ j :: rest)
    ∨ p' = p ∧ ∀ j rest, p = list ++ j :: rest → j < index

namespace Path

variable {list p q p' q' rest further : Path} {index i j : Nat}

theorem item_inj (h : list ++ i :: rest = list ++ j :: further) : i = j ∧ rest = further := by
  simpa using h

/-- Nothing slides that stood in the item that was taken out. -/
theorem Slides.ne (h : Slides list index p p') (rest : Path) : p ≠ list ++ index :: rest := by
  rintro rfl
  rcases h with ⟨j, further, hle, heq, -⟩ | ⟨-, hbefore⟩
  · obtain ⟨rfl, -⟩ := item_inj heq
    omega
  · exact Nat.lt_irrefl _ (hbefore index rest rfl)

/-- Everything else does. -/
theorem exists_slides (h : ∀ rest, p ≠ list ++ index :: rest) : ∃ p', Slides list index p p' := by
  by_cases hbelow : ∃ j rest, p = list ++ j :: rest
  · obtain ⟨j, rest, rfl⟩ := hbelow
    rcases Nat.lt_trichotomy j index with hlt | rfl | hgt
    · refine ⟨_, .inr ⟨rfl, fun i further heq => ?_⟩⟩
      obtain ⟨rfl, -⟩ := item_inj heq
      exact hlt
    · exact absurd rfl (h rest)
    · obtain ⟨j, rfl⟩ := Nat.exists_eq_succ_of_ne_zero (Nat.ne_zero_of_lt hgt)
      exact ⟨_, .inl ⟨j, rest, Nat.le_of_lt_succ hgt, rfl, rfl⟩⟩
  · exact ⟨p, .inr ⟨rfl, fun j rest heq => absurd ⟨j, rest, heq⟩ hbelow⟩⟩

theorem Slides.unique (h : Slides list index p p') (h' : Slides list index p q') : p' = q' := by
  rcases h with ⟨i, rest, hle, rfl, rfl⟩ | ⟨rfl, hbefore⟩
  · rcases h' with ⟨j, further, -, heq, rfl⟩ | ⟨-, hbefore⟩
    · obtain ⟨hindex, rfl⟩ := item_inj heq
      rw [Nat.succ.inj hindex]
    · have hlt := hbefore _ _ rfl
      omega
  · rcases h' with ⟨j, further, hle, rfl, -⟩ | ⟨rfl, -⟩
    · have hlt := hbefore _ _ rfl
      omega
    · rfl

/-- How a place that is not inside a list stands to what is in the list does not depend on where in
the list that is. -/
theorem precedes_item (h : ∀ k t, p ≠ list ++ k :: t) :
    Precedes p (list ++ i :: rest) ↔ Precedes p (list ++ j :: further) := by
  induction list generalizing p with
  | nil =>
    cases p with
    | nil => exact Iff.rfl
    | cons k t => exact absurd rfl (h k t)
  | cons a list ih =>
    cases p with
    | nil => exact Iff.rfl
    | cons b p =>
      refine or_congr_right (and_congr_right ?_)
      rintro rfl
      exact ih fun k t heq => h k t (by rw [heq, List.cons_append])

theorem item_precedes (h : ∀ k t, p ≠ list ++ k :: t) :
    Precedes (list ++ i :: rest) p ↔ Precedes (list ++ j :: further) p := by
  induction list generalizing p with
  | nil =>
    cases p with
    | nil => exact Iff.rfl
    | cons k t => exact absurd rfl (h k t)
  | cons a list ih =>
    cases p with
    | nil => exact Iff.rfl
    | cons b p =>
      refine or_congr_right (and_congr_right ?_)
      rintro rfl
      exact ih fun k t heq => h k t (by rw [heq, List.cons_append])

/-- The order stays when a gap is closed. -/
theorem Slides.precedes (hp : Slides list index p p') (hq : Slides list index q q')
    (h : Precedes p q) : Precedes p' q' := by
  rcases hp with ⟨i, rest, hle, rfl, rfl⟩ | ⟨rfl, hp⟩
  · rcases hq with ⟨j, further, -, rfl, rfl⟩ | ⟨rfl, hq⟩
    · rw [precedes_append] at h ⊢
      simpa [Precedes] using h
    · by_cases hinside : ∃ k t, q' = list ++ k :: t
      · obtain ⟨k, t, rfl⟩ := hinside
        have hlt := hq k t rfl
        rw [precedes_append] at h
        rcases h with h | ⟨h, -⟩ <;> omega
      · exact (item_precedes fun k t heq => hinside ⟨k, t, heq⟩).1 h
  · rcases hq with ⟨j, further, hle, rfl, rfl⟩ | ⟨rfl, -⟩
    · by_cases hinside : ∃ k t, p' = list ++ k :: t
      · obtain ⟨k, t, rfl⟩ := hinside
        exact precedes_of_lt (Nat.lt_of_lt_of_le (hp k t rfl) hle)
      · exact (precedes_item fun k t heq => hinside ⟨k, t, heq⟩).1 h
    · exact h

end Path

/-! ## Nodes behind a gap -/

/-- The node is found again, where its place is afterwards. -/
def Visit.Slid (list : Path) (index : Nat) (u u' : Visit) : Prop :=
  Path.Slides list index u.path u'.path ∧ u' = { u with path := u'.path }

/-- A node that reads alike is found, where the place of the node is afterwards. -/
structure Visit.SlidesTo (list : Path) (index : Nat) (u u' : Visit) : Prop where
  path : Path.Slides list index u.path u'.path
  alike : ({ u with path := u'.path } : Visit).Alike u'

section

variable {list p : Path} {index slot inner : Nat} {above : List String} {inside : Nat → List String}
  {u u' v : Visit} {nodes items definition : List Data} {kind : Kind} {config : Config κ}

theorem Visit.Slid.slidesTo (h : u.Slid list index u') : u.SlidesTo list index u' := by
  refine ⟨h.1, ?_⟩
  rw [← h.2]
  exact .refl u'

/-- What stands outside a list stays where it is. -/
theorem Visit.Alike.slidesTo (h : u.Alike u') (houtside : ∀ j rest, u.path ≠ list ++ j :: rest) :
    u.SlidesTo list index u' where
  path := .inr ⟨h.path, fun j rest heq => absurd heq (houtside j rest)⟩
  alike := by
    rw [h.path]
    exact h

theorem Visit.Slid.sound (h : u.Slid list index u') (hu : u.Sound config) : u'.Sound config := by
  rw [h.2]
  exact ⟨hu.named, hu.served, hu.handled, hu.attributes, hu.nodes, hu.items⟩

/-- What is reached from the nodes that are left is what was reached from them. -/
theorem reachesAll_eraseIdx : ReachesAll list (fun _ => above) 0 (nodes.eraseIdx index) u'
    ↔ ∃ u, ReachesAll list (fun _ => above) 0 nodes u ∧ u.Slid list index u' := by
  constructor
  -- a node before the removed one stays, and one behind it was one place further back
  · rintro ⟨j, node, hnode, hreach⟩
    obtain ⟨q, hq⟩ := hreach.path_eq
    rw [List.getElem?_eraseIdx] at hnode
    split at hnode
    · next hlt =>
      refine ⟨u', ⟨j, node, hnode, hreach⟩, .inr ⟨rfl, fun k rest heq => ?_⟩, rfl⟩
      rw [hq, Nat.zero_add, List.append_assoc] at heq
      obtain ⟨rfl, -⟩ := Path.item_inj heq
      exact hlt
    · next hle =>
      obtain ⟨t, rfl, hmove⟩ := hreach.move
      refine ⟨t.under (list ++ [j + 1]) above, ⟨j + 1, node, hnode, ?_⟩, .inl ⟨j, t.path, ?_, ?_, ?_⟩,
        rfl⟩
      · rw [Nat.zero_add]
        exact hmove _ _
      · omega
      · simp [Visit.under]
      · simp [Visit.under]
  · rintro ⟨u, ⟨j, node, hnode, hreach⟩, hslides, heq⟩
    obtain ⟨t, rfl, hmove⟩ := hreach.move
    rw [heq]
    have hpath : (t.under (list ++ [0 + j]) above).path = list ++ j :: t.path := by
      simp [Visit.under]
    rcases hslides with ⟨i, rest, hle, hbefore, hafter⟩ | ⟨hsame, hbefore⟩
    · obtain ⟨rfl, rfl⟩ := Path.item_inj (hpath.symm.trans hbefore)
      refine ⟨i, node, ?_, ?_⟩
      · rw [List.getElem?_eraseIdx, if_neg (Nat.not_lt_of_le hle)]
        exact hnode
      · have hmoved := hmove (list ++ [0 + i]) above
        have hplace : list ++ i :: t.path = list ++ [0 + i] ++ t.path := by simp
        rw [hafter, hplace]
        exact hmoved
    · refine ⟨j, node, ?_, ?_⟩
      · rw [List.getElem?_eraseIdx, if_pos (hbefore j t.path hpath)]
        exact hnode
      · rw [hsame]
        exact hmove _ _

/-- What is reached from items, one of which has lost a node. -/
theorem reachesItems_eraseIdx (hitem : items[index]? = some (.list nodes)) :
    ReachesItems list inside 0 (items.set index (.list (nodes.eraseIdx inner))) u'
      ↔ ∃ u, ReachesItems list inside 0 items u ∧ u.Slid (list ++ [index]) inner u' := by
  have hlt : index < items.length := (List.getElem?_eq_some_iff.1 hitem).1
  -- what is reached from other items does not stand in this one, so it does not slide
  have hother : ∀ {j : Nat} {found : List Data} {w : Visit}, j ≠ index →
      ReachesAll (list ++ [0 + j]) (fun _ => inside (0 + j)) 0 found w →
      ∀ k rest, w.path ≠ list ++ [index] ++ k :: rest := by
    intro j found w hne hreach k rest heq
    obtain ⟨l, q, -, hq⟩ := hreach.path_eq
    rw [hq] at heq
    simp only [Nat.zero_add, List.append_assoc] at heq
    exact hne (Path.item_inj heq).1
  constructor
  · rintro ⟨j, found, hfound, hreach⟩
    by_cases hindex : index = j
    · subst hindex
      rw [List.getElem?_set_self hlt, Option.some.injEq, Data.list.injEq] at hfound
      subst hfound
      obtain ⟨u, hu, hslid⟩ := reachesAll_eraseIdx.1 hreach
      exact ⟨u, ⟨index, nodes, hitem, hu⟩, by rwa [Nat.zero_add] at hslid⟩
    · rw [List.getElem?_set_ne hindex] at hfound
      refine ⟨u', ⟨j, found, hfound, hreach⟩, .inr ⟨rfl, fun k rest heq => ?_⟩, rfl⟩
      exact absurd heq (hother (Ne.symm hindex) hreach k rest)
  · rintro ⟨u, ⟨j, found, hfound, hreach⟩, hslid⟩
    by_cases hindex : index = j
    · subst hindex
      obtain rfl := Data.list.inj (Option.some.inj (hitem.symm.trans hfound))
      refine ⟨index, _, List.getElem?_set_self hlt, reachesAll_eraseIdx.2 ⟨u, hreach, ?_⟩⟩
      rwa [Nat.zero_add]
    · refine ⟨j, found, by rwa [List.getElem?_set_ne hindex], ?_⟩
      have houtside := hother (Ne.symm hindex) hreach
      rcases hslid.1 with ⟨k, rest, -, heq, -⟩ | ⟨hsame, -⟩
      · exact absurd heq (houtside _ rest)
      · rw [hslid.2, hsame]
        exact hreach

theorem Kind.segmentsInside_children (hslot : kind.slot .children = some slot)
    (hkind : kind ≠ .manyChildForms) (name : String) (i j : Nat) :
    kind.segmentsInside name i = kind.segmentsInside name j := by
  cases kind <;> simp_all [Kind.slot, Kind.segmentsInside]

theorem Kind.slot_contents_of_children (hslot : kind.slot .children = some slot) :
    kind.slot .contents = none := by
  cases kind <;> simp_all [Kind.slot]

theorem Kind.slot_children_of_contents (hslot : kind.slot .contents = some slot) :
    kind.slot .children = none := by
  cases kind <;> simp_all [Kind.slot]

/-- What stands inside a node that has lost a child, which had no number. -/
theorem reachesInside_child_eraseIdx (hslot : kind.slot .children = some slot)
    (hkind : kind ≠ .manyChildForms) (hnodes : definition[slot]? = some (.list nodes)) :
    ReachesInside p above kind (definition.set slot (.list (nodes.eraseIdx index))) u'
      ↔ ∃ u, ReachesInside p above kind definition u ∧ u.Slid (p ++ [slot]) index u' := by
  have hfield : kind ≠ .field := by
    rintro rfl
    cases hslot
  have hlt : slot < definition.length := (List.getElem?_eq_some_iff.1 hnodes).1
  have hsegments : ∀ name, (fun i => above ++ kind.segmentsInside name i)
      = fun _ => above ++ kind.segmentsInside name 0 := by
    intro name
    funext i
    rw [Kind.segmentsInside_children hslot hkind name i 0]
  have hcontents := Kind.slot_contents_of_children hslot
  simp only [reachesInside_children hslot hcontents, ReachesSlot, List.getElem?_set_self hlt, hnodes,
    Option.some.injEq, Data.list.injEq, exists_eq_left', hsegments,
    textAt_set_inside hfield (Kind.slot_children hslot), reachesAll_eraseIdx]

/-- What stands inside a container with an item that has lost a node. -/
theorem reachesInside_item_eraseIdx (hslot : kind.slot .contents = some slot)
    (hitems : definition[slot]? = some (.list items)) (hitem : items[index]? = some (.list nodes)) :
    ReachesInside p above kind
        (definition.set slot (.list (items.set index (.list (nodes.eraseIdx inner))))) u'
      ↔ ∃ u, ReachesInside p above kind definition u ∧ u.Slid (p ++ [slot, index]) inner u' := by
  have hfield : kind ≠ .field := by
    rintro rfl
    cases hslot
  have hlt : slot < definition.length := (List.getElem?_eq_some_iff.1 hitems).1
  have hchildren := Kind.slot_children_of_contents hslot
  have hplace : p ++ [slot, index] = p ++ [slot] ++ [index] := by simp
  simp only [reachesInside_contents hchildren hslot, ReachesItemsSlot, List.getElem?_set_self hlt,
    hitems, Option.some.injEq, Data.list.injEq, exists_eq_left',
    textAt_set_inside hfield (Kind.slot_contents hslot), reachesItems_eraseIdx hitem, hplace]

end

/-! ## Where a node stands -/

section

variable {p list : Path} {index : Nat} {above : List String} {d : Data} {u v : Visit} {state : Data}

/-- A node that is reached is the one at the place, or stands directly inside a node that is
reached. -/
theorem Reaches.directly (h : Reaches p above d v) :
    (d.IsNode v.kind v.definition ∧ v.path = p ++ [1])
    ∨ ∃ w offset segments node, Reaches p above d w
      ∧ Inside w.kind w.definition offset segments node ∧ v.path = w.path ++ offset ++ [1] := by
  induction h using Reaches.induct with
  | here hnode => exact .inl ⟨hnode, rfl⟩
  | @inside p above kind definition offset segments node v d hnode hinside hreach ih =>
    right
    rcases ih with ⟨-, hpath⟩ | ⟨w, further, names, found, hw, hfound, hpath⟩
    · exact ⟨_, offset, segments, node, .here hnode, hinside, by rw [hpath]; simp⟩
    · exact ⟨w, further, names, found, .of_inside hnode hinside hw, hfound, hpath⟩

/-- Nothing is reached at the place of a node but from its definition. -/
theorem Reaches.isPrefix_of_dropLast (hv : Reaches p above d v) (hu : Reaches p above d u)
    (hpre : v.path.dropLast <+: u.path) : v.path <+: u.path := by
  induction hv using Reaches.induct with
  | here hnode =>
    obtain ⟨q, hq⟩ := hu.path_eq
    exact ⟨q, by rw [hq]; simp⟩
  | @inside p above kind definition offset segments node v d hnode hinside hreach ih =>
    obtain ⟨q, hq⟩ := hreach.path_eq
    have hlast : v.path.dropLast = p ++ 1 :: offset ++ (1 :: q).dropLast := by
      rw [hq, List.dropLast_append_of_ne_nil (List.cons_ne_nil _ _)]
    rcases hu.cases hnode with rfl | ⟨other, further, found, hinside', hreach'⟩
    · -- the node around is above what is inside it
      have hlength := hpre.length_le
      rw [hlast] at hlength
      cases hinside <;> simp at hlength
    · obtain ⟨r, hr⟩ := hreach'.path_eq
      obtain ⟨rfl, -⟩ := hinside.eq_of_isPrefix hinside' (hlast ▸ hr ▸ hpre)
      obtain ⟨rfl, rfl⟩ := hinside.unique hinside'
      exact ih hreach' hpre

/-- Nothing is reached at the place of a field but the field. -/
theorem Data.Reached.eq_of_dropLast (hv : state.Reached v) (hfield : v.kind = .field)
    (hu : state.Reached u) (hpre : v.path.dropLast <+: u.path) : u = v := by
  obtain ⟨nodes, rfl, index, node, hnode, hreach⟩ := id hv
  obtain ⟨_, ⟨⟩, other, found, hfound, hreach'⟩ := id hu
  obtain ⟨q, hq⟩ := hreach.path_eq
  obtain ⟨r, hr⟩ := hreach'.path_eq
  have hlast : v.path.dropLast = index :: (1 :: q).dropLast := by
    rw [hq, List.dropLast_append_of_ne_nil (List.cons_ne_nil _ _)]
    simp
  obtain rfl : index = other := by
    rw [hlast, hr] at hpre
    simpa using (List.cons_prefix_cons.1 (by simpa using hpre)).1
  obtain rfl := Option.some.inj (hnode.symm.trans hfound)
  exact (hv.inside_of_isPrefix hu (hreach.isPrefix_of_dropLast hreach' hpre)).resolve_right
    (not_reachesInside_field hfield _ u)

/-- A node of a document stands in its list, or directly inside a node of the document. -/
theorem Data.Reached.directly (h : state.Reached v) :
    (∃ nodes index node, state = .list nodes ∧ nodes[index]? = some node ∧ v.path = [index, 1])
    ∨ ∃ w offset segments node, state.Reached w
      ∧ Inside w.kind w.definition offset segments node ∧ v.path = w.path ++ offset ++ [1] := by
  obtain ⟨nodes, rfl, index, node, hnode, hreach⟩ := h
  rcases hreach.directly with ⟨-, hpath⟩ | ⟨w, offset, segments, found, hw, hinside, hpath⟩
  · exact .inl ⟨nodes, index, node, rfl, hnode, by simpa using hpath⟩
  · exact .inr ⟨w, offset, segments, found, ⟨nodes, rfl, index, node, hnode, hw⟩, hinside, hpath⟩

end

/-! ## Documents without a field -/

/-- A field was taken out of the list it stood in. -/
structure TakenOut (config : Config κ) (state : Data) (v : Visit) (list : Path) (index : Nat)
    (state' : Data) : Prop where
  reached : state.Reached v
  place : v.path = list ++ [index, 1]
  erased : state.erase? (list ++ [index]) = some state'
  /-- Every node was reached before. -/
  old : ∀ u', state'.Reached u' →
    ∃ u, state.Reached u ∧ u.SlidesTo list index u' ∧ (u.Sound config → u'.Sound config)
  /-- Every other node is still reached. -/
  kept : ∀ u, state.Reached u → u ≠ v → ∃ u', state'.Reached u' ∧ u.SlidesTo list index u'
  nodes : ∀ found, state = .list found → (∀ d ∈ found, d.IsSomeNode) →
    ∃ found', state' = .list found' ∧ ∀ d ∈ found', d.IsSomeNode

section

variable {config : Config κ} {state state' : Data} {u v w : Visit} {renewed : List Data}
  {offset list : Path} {slot index inner : Nat} {nodes items : List Data}

/-- Every node but the field has a place afterwards. -/
theorem Data.Reached.exists_slides (hv : state.Reached v) (hfield : v.kind = .field)
    (hplace : v.path = list ++ [index, 1]) (hu : state.Reached u) (hne : u ≠ v) :
    ∃ p', Path.Slides list index u.path p' := by
  refine Path.exists_slides fun rest heq => hne (hv.eq_of_dropLast hfield hu ?_)
  rw [hplace, heq, List.dropLast_append_of_ne_nil (List.cons_ne_nil _ _)]
  exact ⟨rest, by simp⟩

/-- A field is taken out of the list of the document. -/
theorem Data.Reached.takenOut_root (config : Config κ) (hv : (Data.list nodes).Reached v)
    (hfield : v.kind = .field) (hplace : v.path = [index, 1]) (hlt : index < nodes.length) :
    TakenOut config (.list nodes) v [] index (.list (nodes.eraseIdx index)) where
  reached := hv
  place := hplace
  erased := Data.erase?_concat.2 ⟨nodes, rfl, hlt, rfl⟩
  old u' hu' := by
    obtain ⟨_, ⟨⟩, hreach⟩ := hu'
    obtain ⟨u, hu, hslid⟩ := reachesAll_eraseIdx.1 hreach
    exact ⟨u, ⟨nodes, rfl, hu⟩, hslid.slidesTo, hslid.sound⟩
  kept u hu hne := by
    have hlist : v.path = [] ++ [index, 1] := hplace
    obtain ⟨p', hp'⟩ := hv.exists_slides hfield hlist hu hne
    obtain ⟨_, ⟨⟩, hreach⟩ := hu
    have hslid : u.Slid [] index { u with path := p' } := ⟨hp', rfl⟩
    exact ⟨_, ⟨_, rfl, reachesAll_eraseIdx.2 ⟨u, hreach, hslid⟩⟩, hslid.slidesTo⟩
  nodes := by
    rintro _ ⟨⟩ hnodes
    exact ⟨_, rfl, fun d hd => hnodes d (List.mem_of_mem_eraseIdx hd)⟩

/-- A field is taken out of a list inside a node, if the other nodes inside stay. -/
theorem Rewritten.takenOut (h : Rewritten config state w renewed state')
    (halike : w.Alike { w with definition := renewed })
    (hsound : w.Sound config → ({ w with definition := renewed } : Visit).Sound config)
    (hinside : ∀ u', ReachesInside w.path w.above w.kind renewed u'
      ↔ ∃ u, w.Encloses u ∧ u.Slid (w.path ++ offset) index u')
    (herased : (Data.list w.definition).erase? (offset ++ [index]) = some (.list renewed))
    (hv : state.Reached v) (hfield : v.kind = .field)
    (hplace : v.path = w.path ++ offset ++ [index, 1]) :
    TakenOut config state v (w.path ++ offset) index state' := by
  -- what does not stand below `w` does not stand in a list inside it
  have houtside : ∀ {u : Visit}, ¬ w.path <+: u.path → ∀ j rest,
      u.path ≠ w.path ++ offset ++ j :: rest :=
    fun hbelow j rest heq => hbelow ⟨offset ++ j :: rest, by rw [heq, List.append_assoc]⟩
  have hself : w.SlidesTo (w.path ++ offset) index { w with definition := renewed } := by
    refine halike.slidesTo fun j rest heq => ?_
    have hlength := congrArg List.length heq
    simp at hlength
  refine ⟨hv, hplace, ?_, fun u' hu' => ?_, fun u hu hne => ?_, h.nodes⟩
  · rw [List.append_assoc]
    exact Data.erase?_append h.reached.stands.definition herased h.replaced
  · rcases h.cases hu' with rfl | hin | ⟨hbelow, u, hu, halike', hsound'⟩
    · exact ⟨w, h.reached, hself, hsound⟩
    · obtain ⟨u, hu, hslid⟩ := (hinside u').1 hin
      exact ⟨u, h.reached.trans hu, hslid.slidesTo, hslid.sound⟩
    · exact ⟨u, hu, halike'.slidesTo (houtside (halike'.path ▸ hbelow)), hsound'⟩
  · by_cases hbelow : w.path <+: u.path
    · rcases h.reached.inside_of_isPrefix hu hbelow with rfl | hin
      · exact ⟨_, h.self, hself⟩
      · obtain ⟨p', hp'⟩ := hv.exists_slides hfield hplace hu hne
        have hslid : u.Slid (w.path ++ offset) index { u with path := p' } := ⟨hp', rfl⟩
        exact ⟨_, h.self.trans ((hinside _).2 ⟨u, hin, hslid⟩), hslid.slidesTo⟩
    · obtain ⟨u', hu', halike', -⟩ := h.kept u hu hbelow
      exact ⟨u', hu', halike'.slidesTo (houtside hbelow)⟩

/-- A node whose slot for nodes or items was written reads alike. -/
theorem Visit.alike_set_inside (hkind : w.kind ≠ .field) (hslot : slot = w.kind.insideAt)
    (content : Data) : w.Alike { w with definition := w.definition.set slot content } := by
  subst hslot
  have hne := Kind.insideAt_ne hkind
  exact ⟨rfl, rfl, rfl, slotAt_set_ne hne.1 _, slotAt_set_ne hne.2.1 _, slotAt_set_ne hne.2.2 _⟩

/-- A field that is a child of a node is taken out. -/
theorem Data.Reached.takenOut_child (config : Config κ) (hw : state.Reached w)
    (hslot : w.kind.slot .children = some slot) (hkind : w.kind ≠ .manyChildForms)
    (hnodes : w.definition[slot]? = some (.list nodes)) (hlt : index < nodes.length)
    (hv : state.Reached v) (hfield : v.kind = .field)
    (hplace : v.path = w.path ++ [slot] ++ [index, 1]) :
    ∃ state', TakenOut config state v (w.path ++ [slot]) index state' := by
  have hwfield : w.kind ≠ .field := by
    intro hwfield
    rw [hwfield] at hslot
    cases hslot
  have hat := Kind.slot_children hslot
  have hself : (w.definition.set slot (.list (nodes.eraseIdx index)))[slot]?
      = some (.list (nodes.eraseIdx index)) :=
    List.getElem?_set_self (List.getElem?_eq_some_iff.1 hnodes).1
  obtain ⟨state', h⟩ := hw.rewrite config (w.definition.set slot (.list (nodes.eraseIdx index)))
  have halike := Visit.alike_set_inside hwfield hat (.list (nodes.eraseIdx index))
  refine ⟨state', h.takenOut halike (fun hsound => ?_) (fun u' => ?_) ?_ hv
    hfield hplace⟩
  · refine hsound.of_alike halike (fun hblank => ?_) (fun other hother => ?_) fun other hother => ?_
    · -- the field was inside
      have hempty := hblank.2
      rw [← hat, slotAt_of_some hnodes, Data.items_list] at hempty
      simp [hempty] at hlt
    · obtain rfl := Option.some.inj (hslot.symm.trans hother)
      have hholds := hsound.nodes slot hslot
      rw [slotAt_of_some hnodes] at hholds
      rw [slotAt_of_some hself]
      exact fun d hd => hholds d (List.mem_of_mem_eraseIdx hd)
    · exact (Kind.slot_exclusive hslot hother).elim
  · exact reachesInside_child_eraseIdx hslot hkind hnodes
  · exact Data.erase?_concat.2 ⟨nodes, by simp [Data.node?_cons, hnodes], hlt,
      by simp [Data.replace?, hnodes]⟩

/-- A field in an item of a container is taken out. -/
theorem Data.Reached.takenOut_item (config : Config κ) (hw : state.Reached w)
    (hslot : w.kind.slot .contents = some slot) (hitems : w.definition[slot]? = some (.list items))
    (hitem : items[index]? = some (.list nodes)) (hlt : inner < nodes.length)
    (hv : state.Reached v) (hfield : v.kind = .field)
    (hplace : v.path = w.path ++ [slot, index] ++ [inner, 1]) :
    ∃ state', TakenOut config state v (w.path ++ [slot, index]) inner state' := by
  have hwfield : w.kind ≠ .field := by
    intro hwfield
    rw [hwfield] at hslot
    cases hslot
  have hat := Kind.slot_contents hslot
  have hself : (w.definition.set slot (.list (items.set index (.list (nodes.eraseIdx inner)))))[slot]?
      = some (.list (items.set index (.list (nodes.eraseIdx inner)))) :=
    List.getElem?_set_self (List.getElem?_eq_some_iff.1 hitems).1
  obtain ⟨state', h⟩ := hw.rewrite config
    (w.definition.set slot (.list (items.set index (.list (nodes.eraseIdx inner)))))
  have halike := Visit.alike_set_inside hwfield hat
    (.list (items.set index (.list (nodes.eraseIdx inner))))
  refine ⟨state', h.takenOut halike (fun hsound => ?_) (fun u' => ?_) ?_ hv
    hfield hplace⟩
  · refine hsound.of_alike halike (fun hblank => ?_) (fun other hother => ?_) fun other hother => ?_
    · have hempty := hblank.2
      rw [← hat, slotAt_of_some hitems, Data.items_list] at hempty
      simp [hempty] at hitem
    · exact (Kind.slot_exclusive hother hslot).elim
    · obtain rfl := Option.some.inj (hslot.symm.trans hother)
      have hholds := hsound.items slot hslot
      rw [slotAt_of_some hitems] at hholds
      rw [slotAt_of_some hself]
      intro found hfound
      rcases List.mem_or_eq_of_mem_set hfound with hfound | rfl
      · exact hholds found hfound
      · obtain ⟨_, ⟨⟩, hall⟩ := hholds _ (List.mem_of_getElem? hitem)
        exact ⟨_, rfl, fun d hd => hall d (List.mem_of_mem_eraseIdx hd)⟩
  · exact reachesInside_item_eraseIdx hslot hitems hitem
  · exact Data.erase?_concat.2 ⟨nodes, by simp [Data.node?_cons, hitems, hitem], hlt,
      by simp [Data.replace?, hitems, hitem]⟩

/-- Every field can be taken out, unless it is an item of a container of child forms. -/
theorem Data.Reached.takeOut (config : Config κ) (hv : state.Reached v) (hfield : v.kind = .field)
    (hitem : ¬ ∃ w index, state.Reached w ∧ w.kind = .manyChildForms
      ∧ v.path = w.path ++ [w.kind.insideAt, index, 1]) :
    ∃ list index state', TakenOut config state v list index state' := by
  rcases hv.directly with ⟨nodes, index, node, rfl, hnode, hplace⟩ |
    ⟨w, offset, segments, node, hw, hinside, hplace⟩
  · exact ⟨[], index, _, hv.takenOut_root config hfield hplace (List.getElem?_eq_some_iff.1 hnode).1⟩
  · cases hinside with
    | @child slot index nodes _ hslot hnodes hnode =>
      have hlt := (List.getElem?_eq_some_iff.1 hnode).1
      have hkind : w.kind ≠ .manyChildForms := by
        intro hkind
        refine hitem ⟨w, index, hw, hkind, ?_⟩
        rw [hplace, Kind.slot_children hslot]
        simp
      exact ⟨_, index, hw.takenOut_child config hslot hkind hnodes hlt hv hfield (by simp [hplace])⟩
    | @item slot index inner items nodes _ hslot hitems hitem' hnode =>
      have hlt := (List.getElem?_eq_some_iff.1 hnode).1
      exact ⟨_, inner, hw.takenOut_item config hslot hitems hitem' hlt hv hfield (by simp [hplace])⟩

end

end FormTree
