import FormTree.Proofs.Document.Covering
import FormTree.Proofs.Document.Inside
import Std.Data.String.ToNat

/-!
# Names and scopes

The segments above a node are the names of the named nodes around it, with the indices of the items on
the way.  So the named nodes whose segments begin like those of a given one stand inside it, as long as
names are distinct within each scope: the root list, the children of one node, or one item of a
container, down to the next named nodes.  If no name has a dot, the segments can be recovered from the
name path; then a name path belongs to one node alone.
-/

namespace FormTree

/-! ## Name paths and their segments -/

/-- A text without the character that separates segments. -/
def Dotless (segment : String) : Prop := '.' ∉ segment.toList

theorem dotless_toString (index : Nat) : Dotless (toString index) := by
  intro hdot
  change '.' ∈ (String.ofList (Nat.toDigits 10 index)).toList at hdot
  rw [String.toList_ofList] at hdot
  exact absurd (Nat.isDigit_of_mem_toDigits (by decide) (by decide) hdot) (by decide)

theorem not_mem_of_mem_splitOn {c : Char} {text part : List Char} (h : part ∈ text.splitOn c) :
    c ∉ part := by
  induction text generalizing part with
  | nil =>
    rw [List.splitOn_nil, List.mem_singleton] at h
    rw [h]
    exact List.not_mem_nil
  | cons head rest ih =>
    rw [List.splitOn_cons_eq_if_modifyHead] at h
    split at h
    · rcases List.mem_cons.1 h with rfl | h
      · exact List.not_mem_nil
      · exact ih h
    · next hhead =>
      cases hparts : rest.splitOn c with
      | nil => exact absurd hparts (List.splitOn_ne_nil c rest)
      | cons first others =>
        rw [hparts, List.modifyHead_cons] at h
        rcases List.mem_cons.1 h with rfl | h
        · rintro (_ | ⟨_, hmem⟩)
          · simp at hhead
          · exact ih (hparts ▸ List.mem_cons_self ..) hmem
        · exact ih (hparts ▸ List.mem_cons_of_mem _ h)

/-- Every text is a name path of segments without dots. -/
theorem exists_segments (text : String) : ∃ segments : List String, segments ≠ []
    ∧ (∀ segment ∈ segments, Dotless segment) ∧ ".".intercalate segments = text := by
  refine ⟨(text.toList.splitOn '.').map String.ofList, by simp [List.splitOn_ne_nil], ?_, ?_⟩
  · intro segment hsegment
    obtain ⟨part, hpart, rfl⟩ := List.mem_map.1 hsegment
    simpa [Dotless] using not_mem_of_mem_splitOn hpart
  · apply String.toList_injective
    simp [String.toList_intercalate, Function.comp_def, List.intercalate_splitOn]

/-- Segments without dots can be recovered from the name path. -/
theorem intercalate_injective {segments others : List String} (hne : segments ≠ [])
    (hne' : others ≠ []) (h : ∀ segment ∈ segments, Dotless segment)
    (h' : ∀ segment ∈ others, Dotless segment)
    (heq : ".".intercalate segments = ".".intercalate others) : segments = others := by
  have hrecover : ∀ {found : List String}, found ≠ [] → (∀ segment ∈ found, Dotless segment) →
      (".".intercalate found).toList.splitOn '.' = found.map String.toList := by
    intro found hfound hdotless
    rw [String.toList_intercalate]
    refine List.splitOn_intercalate '.' (fun part hpart => ?_) (by simpa using hfound)
    obtain ⟨segment, hsegment, rfl⟩ := List.mem_map.1 hpart
    exact hdotless segment hsegment
  have hsame := (hrecover hne h).symm.trans ((congrArg (·.toList.splitOn '.') heq).trans
    (hrecover hne' h'))
  exact List.map_injective_iff.2 (fun _ _ => String.toList_injective) hsame

/-! ## The segments above a node -/

namespace Kind

variable {kind : Kind} {name : String} {index : Nat}

theorem segmentsInside_of_not_named (h : ¬ kind.Named) : kind.segmentsInside name index = [] := by
  cases kind <;> simp_all [Named, segmentsInside]

/-- The segments inside a named node begin with its name. -/
theorem segmentsInside_of_named (h : kind.Named) (hfield : kind ≠ .field) (name : String)
    (index : Nat) : ∃ rest, kind.segmentsInside name index = name :: rest := by
  cases kind <;> simp_all [Named, segmentsInside]

theorem length_segmentsInside (kind : Kind) (name other : String) (i j : Nat) :
    (kind.segmentsInside name i).length = (kind.segmentsInside other j).length := by
  cases kind <;> rfl

end Kind

section

variable {kind : Kind} {definition : List Data} {offset p : Path} {segments above : List String}
  {node d : Data} {u v w : Visit}

theorem Inside.segments_eq (h : Inside kind definition offset segments node) :
    ∃ index, segments = kind.segmentsInside (Node.textAt definition Kind.nameAt) index := by
  cases h <;> exact ⟨_, rfl⟩

theorem Reaches.above_isPrefix (h : Reaches p above d v) : above <+: v.above := by
  induction h using Reaches.induct with
  | here => exact List.prefix_refl _
  | inside _ _ _ ih => exact (List.prefix_append ..).trans ih

/-- The nodes inside a node. -/
abbrev Visit.Encloses (v u : Visit) : Prop := ReachesInside v.path v.above v.kind v.definition u

theorem Visit.Encloses.above_isPrefix (h : v.Encloses u) :
    ∃ index, v.above ++ v.kind.segmentsInside v.name index <+: u.above := by
  obtain ⟨offset, segments, node, hinside, hreach⟩ := reachesInside_iff.1 h
  obtain ⟨index, rfl⟩ := hinside.segments_eq
  exact ⟨index, hreach.above_isPrefix⟩

theorem Visit.Encloses.kind_ne_field (h : v.Encloses u) : v.kind ≠ .field := by
  obtain ⟨_, _, _, hinside, -⟩ := reachesInside_iff.1 h
  exact hinside.kind_ne_field

/-- What stands inside a named node has the segments of the node above it. -/
theorem Visit.Encloses.segments_isPrefix (h : v.Encloses u) (hnamed : v.kind.Named) :
    v.segments <+: u.above := by
  obtain ⟨index, hpre⟩ := h.above_isPrefix
  obtain ⟨rest, hrest⟩ := Kind.segmentsInside_of_named hnamed h.kind_ne_field v.name index
  rw [hrest] at hpre
  exact (show v.above ++ [v.name] <+: v.above ++ v.name :: rest by simp).trans hpre

/-- A named node is the outermost one on the way to it, or stands inside that one. -/
theorem Reaches.outermost (h : Reaches p above d u) (hnamed : u.kind.Named) :
    ∃ w, Reaches p above d w ∧ w.kind.Named ∧ w.above = above ∧ (u = w ∨ w.Encloses u) := by
  induction h using Reaches.induct with
  | here hnode => exact ⟨_, .here hnode, hnamed, rfl, .inl rfl⟩
  | @inside _ _ kind _ _ _ _ _ _ hnode hinside hreach ih =>
    by_cases hkind : kind.Named
    · refine ⟨_, .here hnode, hkind, rfl, .inr ?_⟩
      exact reachesInside_iff.2 ⟨_, _, _, hinside, by simpa using hreach⟩
    · obtain ⟨w, hw, hwnamed, habove, hencloses⟩ := ih hnamed
      obtain ⟨index, hsegments⟩ := hinside.segments_eq
      refine ⟨w, .of_inside hnode hinside hw, hwnamed, ?_, hencloses⟩
      rw [habove, hsegments, Kind.segmentsInside_of_not_named hkind, List.append_nil]

/-- The segments above a node are those at the beginning of the way, or come from the innermost named
node around it. -/
theorem Reaches.innermost (h : Reaches p above d u) : u.above = above
    ∨ ∃ w, Reaches p above d w ∧ w.kind.Named ∧ w.Encloses u
      ∧ ∃ index, u.above = w.above ++ w.kind.segmentsInside w.name index := by
  induction h using Reaches.induct with
  | here => exact .inl rfl
  | @inside p above kind definition _ _ _ _ _ hnode hinside hreach ih =>
    rcases ih with habove | ⟨w, hw, hnamed, hencloses, hindex⟩
    · obtain ⟨index, hsegments⟩ := hinside.segments_eq
      by_cases hkind : kind.Named
      · refine .inr ⟨visitAt p above kind definition, .here hnode, hkind, ?_, index, ?_⟩
        · exact reachesInside_iff.2 ⟨_, _, _, hinside, by simpa using hreach⟩
        · rw [habove, hsegments]
          rfl
      · refine .inl ?_
        rw [habove, hsegments, Kind.segmentsInside_of_not_named hkind, List.append_nil]
    · exact .inr ⟨w, .of_inside hnode hinside hw, hnamed, hencloses, hindex⟩

/-- A named node inside a node is the outermost one on the way to it, or stands inside that one. -/
theorem Visit.Encloses.outermost (h : v.Encloses u) (hnamed : u.kind.Named) :
    ∃ w, v.Encloses w ∧ w.kind.Named
      ∧ (∃ index, w.above = v.above ++ v.kind.segmentsInside v.name index)
      ∧ (u = w ∨ w.Encloses u) := by
  obtain ⟨offset, segments, node, hinside, hreach⟩ := reachesInside_iff.1 h
  obtain ⟨w, hw, hwnamed, habove, hencloses⟩ := hreach.outermost hnamed
  obtain ⟨index, rfl⟩ := hinside.segments_eq
  exact ⟨w, reachesInside_iff.2 ⟨_, _, _, hinside, hw⟩, hwnamed, ⟨index, habove⟩, hencloses⟩

end

namespace Data.Reached

variable {state : Data} {u : Visit}

theorem outermost (h : state.Reached u) (hnamed : u.kind.Named) :
    ∃ w, state.Reached w ∧ w.kind.Named ∧ w.above = [] ∧ (u = w ∨ w.Encloses u) := by
  obtain ⟨nodes, rfl, index, node, hnode, hreach⟩ := h
  obtain ⟨w, hw, hrest⟩ := hreach.outermost hnamed
  exact ⟨w, ⟨nodes, rfl, index, node, hnode, hw⟩, hrest⟩

theorem innermost (h : state.Reached u) : u.above = []
    ∨ ∃ w, state.Reached w ∧ w.kind.Named ∧ w.Encloses u
      ∧ ∃ index, u.above = w.above ++ w.kind.segmentsInside w.name index := by
  obtain ⟨nodes, rfl, index, node, hnode, hreach⟩ := h
  refine hreach.innermost.imp_right ?_
  rintro ⟨w, hw, hrest⟩
  exact ⟨w, ⟨nodes, rfl, index, node, hnode, hw⟩, hrest⟩

end Data.Reached

/-! ## Names that are distinct within each scope -/

/-- The named nodes of a scope: of a part of a document, those that have exactly the given segments
above them, so that no named node stands between. -/
structure InScope (reach : Visit → Prop) (above : List String) (v : Visit) : Prop where
  reach : reach v
  named : v.kind.Named
  above : v.above = above

/-- No name has a dot, and the named nodes of a scope have distinct names.  The scopes are the root
list, and for each named node its children or, for each index, its item. -/
structure WellNamed (state : Data) : Prop where
  dotless : ∀ v, state.Reached v → v.kind.Named → Dotless v.name
  root : ∀ u v, InScope state.Reached [] u → InScope state.Reached [] v → u.name = v.name → u = v
  inside : ∀ w, state.Reached w → w.kind.Named → ∀ index u v,
    InScope w.Encloses (w.above ++ w.kind.segmentsInside w.name index) u →
    InScope w.Encloses (w.above ++ w.kind.segmentsInside w.name index) v → u.name = v.name → u = v

namespace WellNamed

variable {state : Data} {u v : Visit}

/-- It is enough that the named nodes that have the same segments above them have distinct names. -/
theorem of_distinct (hdotless : ∀ v, state.Reached v → v.kind.Named → Dotless v.name)
    (hdistinct : ∀ u v, state.Reached u → state.Reached v →
      u.above = v.above → u.name = v.name → u = v) :
    WellNamed state where
  dotless := hdotless
  root u v hu hv := hdistinct u v hu.reach hv.reach (hu.above.trans hv.above.symm)
  inside _ hw _ _ u v hu hv := hdistinct u v (hw.trans hu.reach) (hw.trans hv.reach)
    (hu.above.trans hv.above.symm)

/-- It is enough to look at the names and the segments above them at the places that hold nodes. -/
theorem of_places {places : List (Path × List String × String)}
    (hplaces : ∀ v, state.Reached v → (v.path, v.above, v.name) ∈ places)
    (hdotless : ∀ place ∈ places, Dotless place.2.2)
    (hdistinct : ∀ s ∈ places, ∀ t ∈ places, s.2 = t.2 → s.1 = t.1) : WellNamed state := by
  refine of_distinct (fun v hv _ => hdotless _ (hplaces v hv)) fun u v hu hv habove hname => ?_
  exact hu.eq_of_path hv (hdistinct _ (hplaces u hu) _ (hplaces v hv) (Prod.ext habove hname))

/-- A named node whose segments begin like those of another is that one or stands inside it. -/
theorem encloses_of_isPrefix (h : WellNamed state) {v : Visit} (hv : state.Reached v)
    (hvnamed : v.kind.Named) (hu : state.Reached u) (hunamed : u.kind.Named)
    (hpre : v.segments <+: u.segments) : u = v ∨ v.Encloses u := by
  -- `w` is `v`'s peer on the way to `u`: its segments have the same length and begin like `u`'s
  have hpeer : ∀ {w : Visit}, w.kind.Named → w.above.length = v.above.length →
      (u = w ∨ w.Encloses u) → w.above = v.above ∧ w.name = v.name := by
    intro w hwnamed hlength hw
    have hwpre : w.segments <+: u.segments := by
      rcases hw with rfl | hencloses
      · exact List.prefix_refl _
      · exact (hencloses.segments_isPrefix hwnamed).trans (List.prefix_append ..)
    have hsegments : w.segments.length = v.segments.length := by simp [Visit.segments, hlength]
    have heq : w.segments = v.segments :=
      (List.prefix_of_prefix_length_le hwpre hpre hsegments.le).eq_of_length hsegments
    simpa [Visit.segments] using List.append_inj heq hlength
  rcases hv.innermost with habove | ⟨w, hw, hwnamed, hwv, index, habove⟩
  · obtain ⟨t, ht, htnamed, htabove, htu⟩ := hu.outermost hunamed
    obtain ⟨-, hname⟩ := hpeer htnamed (by rw [htabove, habove]) htu
    obtain rfl := h.root t v ⟨ht, htnamed, htabove⟩ ⟨hv, hvnamed, habove⟩ hname
    exact htu
  · have hwpre := hwv.segments_isPrefix hwnamed
    have hlength : w.above.length < v.above.length := by
      simpa [Visit.segments, Nat.succ_le_iff] using hwpre.length_le
    rcases encloses_of_isPrefix h hw hwnamed hu hunamed
      (hwpre.trans ((List.prefix_append ..).trans hpre)) with rfl | hwu
    · have hle := hpre.length_le
      simp only [Visit.segments, List.length_append, List.length_singleton] at hle
      omega
    · obtain ⟨t, ht, htnamed, ⟨other, htabove⟩, htu⟩ := hwu.outermost hunamed
      obtain ⟨habove', hname⟩ := hpeer htnamed (by
        rw [htabove, habove, List.length_append, List.length_append,
          Kind.length_segmentsInside _ _ w.name _ index]) htu
      obtain rfl := h.inside w hw hwnamed index t v ⟨ht, htnamed, habove'.trans habove⟩
        ⟨hwv, hvnamed, habove⟩ hname
      exact htu
termination_by v.above.length

/-- Named nodes with the same segments are the same. -/
theorem eq_of_segments (h : WellNamed state) (hu : state.Reached u) (hunamed : u.kind.Named)
    (hv : state.Reached v) (hvnamed : v.kind.Named) (heq : u.segments = v.segments) : u = v := by
  rcases h.encloses_of_isPrefix hv hvnamed hu hunamed (heq ▸ List.prefix_refl _)
    with hsame | hencloses
  · exact hsame
  · have hle := (hencloses.segments_isPrefix hvnamed).length_le
    rw [← heq, Visit.segments, List.length_append, List.length_singleton] at hle
    omega

/-- The segments of a named node have no dots. -/
theorem dotless_segments (h : WellNamed state) {u : Visit} (hu : state.Reached u)
    (hnamed : u.kind.Named) : ∀ segment ∈ u.segments, Dotless segment := by
  have hname : ∀ segment ∈ [u.name], Dotless segment :=
    List.forall_mem_singleton.2 (h.dotless u hu hnamed)
  rcases hu.innermost with habove | ⟨w, hw, hwnamed, hwu, index, habove⟩
  · rwa [Visit.segments, habove]
  · have hlength : w.above.length < u.above.length := by
      simpa [Visit.segments, Nat.succ_le_iff] using (hwu.segments_isPrefix hwnamed).length_le
    have hbefore := dotless_segments h hw hwnamed
    have hinside : ∀ segment ∈ w.kind.segmentsInside w.name index,
        segment = w.name ∨ segment = toString index := by
      cases w.kind <;> simp [Kind.segmentsInside]
    intro segment hsegment
    simp only [Visit.segments, habove, List.mem_append, or_assoc] at hsegment
    rcases hsegment with hmem | hmem | hmem
    · exact hbefore segment (List.mem_append_left _ hmem)
    · rcases hinside segment hmem with rfl | rfl
      · exact h.dotless w hw hwnamed
      · exact dotless_toString index
    · exact hname segment hmem
termination_by u.above.length

/-- A node is known by the segments that its name path is made of. -/
theorem segments_of_namePath (h : WellNamed state) (hu : state.Reached u) (hnamed : u.kind.Named)
    {segments : List String} (hne : segments ≠ [])
    (hdotless : ∀ segment ∈ segments, Dotless segment)
    (heq : u.namePath "." = ".".intercalate segments) : u.segments = segments :=
  intercalate_injective (by simp [Visit.segments]) hne (h.dotless_segments hu hnamed) hdotless heq

/-- Named nodes with the same name path are the same. -/
theorem eq_of_namePath (h : WellNamed state) (hu : state.Reached u) (hunamed : u.kind.Named)
    (hv : state.Reached v) (hvnamed : v.kind.Named) (heq : u.namePath "." = v.namePath ".") : u = v :=
  h.eq_of_segments hu hunamed hv hvnamed (h.segments_of_namePath hu hunamed
    (by simp [Visit.segments]) (h.dotless_segments hv hvnamed) heq)

end WellNamed

end FormTree
