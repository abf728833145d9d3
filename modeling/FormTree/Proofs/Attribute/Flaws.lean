import FormTree.Proofs.Attribute.Meaning

/-!
# The flaws of attribute trees

`Data.Flaw` lists everything that is wrong with a tree as an attribute node, each flaw with its
position: the path of the place in the tree where it is met.  A reading from left to right that goes
into depth first meets the places in the lexicographic order of their paths, so `Data.FirstFlaw` is
the flaw with the least path.

A tree that is no node has its flaw at the root, and a node whose definition does not fit its tag at
the definition.  An entry of an object without a key or without a node is no pair, which is a flaw
at the entry.  A repeated key is a flaw at the key, behind those at the entry and before all those
inside the node of the entry.
-/

namespace FormTree

/-! ## Flaws by position -/

/-- What is wrong with an entry of an object after some other entries, apart from its node, and
where. -/
inductive Data.EntryFlaw (earlier : List Data) (pair : Data) : Path → Fault → Prop where
  | noKey (hkey : ∀ key, pair.child? 0 ≠ some (.string key)) :
      Data.EntryFlaw earlier pair [] (.malformedAttribute (.entryWithoutKey pair))
  | noNode {key : String} (hkey : pair.child? 0 = some (.string key))
      (hnone : pair.child? 1 = none) :
      Data.EntryFlaw earlier pair [] (.malformedAttribute (.keyWithoutNode key))
  | repeatedKey {key : String} {other : Data} (hkey : pair.child? 0 = some (.string key))
      (hother : other ∈ earlier) (hsame : other.child? 0 = some (.string key)) :
      Data.EntryFlaw earlier pair [0] (.duplicateAttributeKey key)

/-- What is wrong with a tree as an attribute node, and where. -/
inductive Data.Flaw : Data → Path → Fault → Prop where
  | untagged {d : Data} (htag : ∀ tag, d.child? 0 ≠ some (.string tag)) :
      Data.Flaw d [] (.malformedAttribute (.notPair d))
  | unknownKind {d : Data} {tag : String} (htag : d.child? 0 = some (.string tag))
      (hunknown : tag ∉ ["object", "array", "value"]) :
      Data.Flaw d [] (.malformedAttribute (.unknownKind tag))
  | noDefinition {d : Data} {tag : String} (htag : d.child? 0 = some (.string tag))
      (hknown : tag ∈ ["object", "array", "value"]) (hnone : d.child? 1 = none) :
      Data.Flaw d [] (.malformedAttribute (.noDefinition tag))
  | objectNotList {d definition : Data} (htag : d.child? 0 = some (.string "object"))
      (hdefinition : d.child? 1 = some definition) (hnone : definition.toList? = none) :
      Data.Flaw d [1] (.malformedAttribute .objectNotList)
  | arrayNotList {d definition : Data} (htag : d.child? 0 = some (.string "array"))
      (hdefinition : d.child? 1 = some definition) (hnone : definition.toList? = none) :
      Data.Flaw d [1] (.malformedAttribute .arrayNotList)
  | noLiteral {d definition : Data} (htag : d.child? 0 = some (.string "value"))
      (hdefinition : d.child? 1 = some definition) (hnone : definition.child? 0 = none) :
      Data.Flaw d [1] (.malformedAttribute .noLiteral)
  /-- A flaw of a node of an array. -/
  | inArray {d node : Data} {nodes : List Data} {i : Nat} {p : Path} {e : Fault}
      (htag : d.child? 0 = some (.string "array")) (hnodes : d.child? 1 = some (.list nodes))
      (hnode : nodes[i]? = some node) (hflaw : Data.Flaw node p e) : Data.Flaw d (1 :: i :: p) e
  /-- A flaw of an entry of an object, which may lie in the entries before it. -/
  | entry {d pair : Data} {pairs : List Data} {i : Nat} {p : Path} {e : Fault}
      (htag : d.child? 0 = some (.string "object")) (hpairs : d.child? 1 = some (.list pairs))
      (hpair : pairs[i]? = some pair) (hentry : Data.EntryFlaw (pairs.take i) pair p e) :
      Data.Flaw d (1 :: i :: p) e
  /-- A flaw of the node of an entry of an object. -/
  | inEntry {d pair node : Data} {pairs : List Data} {i : Nat} {p : Path} {e : Fault}
      (htag : d.child? 0 = some (.string "object")) (hpairs : d.child? 1 = some (.list pairs))
      (hpair : pairs[i]? = some pair) (hnode : pair.child? 1 = some node)
      (hflaw : Data.Flaw node p e) : Data.Flaw d (1 :: i :: 1 :: p) e

/-- The flaw of a tree that is met first. -/
def Data.FirstFlaw (d : Data) (e : Fault) : Prop :=
  ∃ p, d.Flaw p e ∧ ∀ q f, d.Flaw q f → ¬ q < p

namespace Data

/-! ## One flaw at a position -/

theorem EntryFlaw.unique {earlier : List Data} {pair : Data} {p : Path} {e f : Fault}
    (h : EntryFlaw earlier pair p e) (h' : EntryFlaw earlier pair p f) : e = f := by
  cases h with
  | noKey hkey =>
    cases h' with
    | noKey => rfl
    | noNode hkey' => exact absurd hkey' (hkey _)
  | noNode hkey =>
    cases h' with
    | noKey hkey' => exact absurd hkey (hkey' _)
    | noNode hkey' => simp_all
  | repeatedKey hkey =>
    cases h' with
    | repeatedKey hkey' => simp_all

/-- The flaws of an entry apart from its node are not in its node. -/
theorem EntryFlaw.not_inside {earlier : List Data} {pair : Data} {p : Path} {e : Fault} :
    ¬ EntryFlaw earlier pair (1 :: p) e := by
  rintro ⟨⟩

/-- No two flaws stand at one position. -/
theorem Flaw.unique {d : Data} {p : Path} {e f : Fault} (h : d.Flaw p e) (h' : d.Flaw p f) :
    e = f := by
  -- flaws of different kinds differ in the tag or in the definition, and equal ones meet further in
  induction h with
  | untagged htag =>
    cases h' with
    | untagged => rfl
    | unknownKind htag' | noDefinition htag' => exact absurd htag' (htag _)
  | unknownKind htag hunknown =>
    cases h' with
    | untagged htag' => exact absurd htag (htag' _)
    | unknownKind htag' | noDefinition htag' => simp_all
  | noDefinition htag hknown =>
    cases h' with
    | untagged htag' => exact absurd htag (htag' _)
    | unknownKind htag' | noDefinition htag' => simp_all
  | objectNotList htag | arrayNotList htag | noLiteral htag =>
    cases h' with
    | objectNotList htag' | arrayNotList htag' | noLiteral htag' => simp_all
  | inArray htag hnodes hnode hflaw ih =>
    cases h' with
    | inArray htag' hnodes' hnode' hflaw' =>
      obtain ⟨rfl⟩ := Option.some.inj (hnodes.symm.trans hnodes')
      obtain rfl := Option.some.inj (hnode.symm.trans hnode')
      exact ih hflaw'
    | entry htag' | inEntry htag' => simp_all
  | entry htag hpairs hpair hentry =>
    cases h' with
    | inArray htag' => simp_all
    | entry htag' hpairs' hpair' hentry' =>
      obtain ⟨rfl⟩ := Option.some.inj (hpairs.symm.trans hpairs')
      obtain rfl := Option.some.inj (hpair.symm.trans hpair')
      exact hentry.unique hentry'
    | inEntry => exact absurd hentry EntryFlaw.not_inside
  | inEntry htag hpairs hpair hnode hflaw ih =>
    cases h' with
    | inArray htag' => simp_all
    | entry _ _ _ hentry' => exact absurd hentry' EntryFlaw.not_inside
    | inEntry htag' hpairs' hpair' hnode' hflaw' =>
      obtain ⟨rfl⟩ := Option.some.inj (hpairs.symm.trans hpairs')
      obtain rfl := Option.some.inj (hpair.symm.trans hpair')
      obtain rfl := Option.some.inj (hnode.symm.trans hnode')
      exact ih hflaw'

/-- No two flaws are met first. -/
theorem FirstFlaw.unique {d : Data} {e f : Fault} (h : d.FirstFlaw e) (h' : d.FirstFlaw f) :
    e = f := by
  obtain ⟨p, hp, hfirst⟩ := h
  obtain ⟨q, hq, hfirst'⟩ := h'
  obtain rfl : p = q := List.le_antisymm (hfirst q f hq) (hfirst' p e hp)
  exact hp.unique hq

/-! ## The places and faults of flaws -/

/-- A flaw stands at a place in the tree. -/
theorem Flaw.node?_isSome {d : Data} {p : Path} {e : Fault} (h : d.Flaw p e) :
    (d.node? p).isSome := by
  induction h with
  | untagged | unknownKind | noDefinition => rfl
  | objectNotList _ hdefinition | arrayNotList _ hdefinition | noLiteral _ hdefinition =>
    rw [node?_cons, hdefinition]
    rfl
  | inArray _ hnodes hnode _ ih =>
    rwa [node?_cons, hnodes, Option.bind_some, node?_cons, child?_list, hnode]
  | entry _ hpairs hpair hentry =>
    rw [node?_cons, hpairs, Option.bind_some, node?_cons, child?_list, hpair, Option.bind_some]
    cases hentry with
    | noKey | noNode => rfl
    | repeatedKey hkey =>
      rw [node?_cons, hkey]
      rfl
  | inEntry _ hpairs hpair hnode _ ih =>
    rwa [node?_cons, hpairs, Option.bind_some, node?_cons, child?_list, hpair, Option.bind_some,
      node?_cons, hnode]

/-- A flaw is a repeated key, or a node or an entry that is not as it has to be. -/
theorem Flaw.fault {d : Data} {p : Path} {e : Fault} (h : d.Flaw p e) :
    (∃ key, e = .duplicateAttributeKey key) ∨ ∃ defect, e = .malformedAttribute defect := by
  induction h with
  | untagged | unknownKind | noDefinition | objectNotList | arrayNotList | noLiteral =>
    exact .inr ⟨_, rfl⟩
  | entry _ _ _ hentry =>
    cases hentry with
    | noKey | noNode => exact .inr ⟨_, rfl⟩
    | repeatedKey => exact .inl ⟨_, rfl⟩
  | inArray _ _ _ _ ih | inEntry _ _ _ _ _ ih => exact ih

/-! ## Flaws and meaning -/

/-- What an entry has to be after some others: a pair with a key of its own. -/
def Fits (earlier : List Data) (pair : Data) : Prop :=
  Attribute.IsPair pair ∧ ∀ other ∈ earlier, other.child? 0 ≠ pair.child? 0

theorem fits_of_arePairs {pairs : List Data} {i : Nat} {pair : Data}
    (h : Attribute.ArePairs [] pairs) (hpair : pairs[i]? = some pair) :
    Fits (pairs.take i) pair := by
  obtain ⟨hall, hdistinct, -⟩ := h
  obtain ⟨hi, rfl⟩ := List.getElem?_eq_some_iff.1 hpair
  refine ⟨hall _ (List.getElem_mem hi), fun other hother hsame => ?_⟩
  obtain ⟨j, hj, rfl⟩ := List.mem_take_iff_getElem.1 hother
  have hlt : j < i := by omega
  refine List.nodup_iff_getElem?_ne_getElem?.1 hdistinct j i hlt (by simpa using hi) ?_
  rw [List.getElem?_map, List.getElem?_map, List.getElem?_eq_getElem hi,
    List.getElem?_eq_getElem (hlt.trans hi), Option.map_some, Option.map_some, hsame]

theorem EntryFlaw.not_fits {earlier : List Data} {pair : Data} {p : Path} {e : Fault}
    (h : EntryFlaw earlier pair p e) : ¬ Fits earlier pair := by
  rintro ⟨⟨key, node, hkey, hnode, -⟩, hapart⟩
  cases h with
  | noKey hkey' => exact hkey' key hkey
  | noNode _ hnone => simp [hnone] at hnode
  | repeatedKey hkey' hother hsame => exact hapart _ hother (hsame.trans hkey'.symm)

/-- A tree with a flaw is no attribute node. -/
theorem Flaw.not_isAttribute {d : Data} {p : Path} {e : Fault} (h : d.Flaw p e) :
    ¬ d.IsAttribute := by
  intro hd
  -- a flaw denies what its kind of node asks for, or stands in a node that would have to be one too
  induction h with
  | untagged htag =>
    obtain ⟨tag, _, htag', -⟩ := hd.children
    exact htag tag htag'
  | unknownKind htag hunknown =>
    cases hd with
    | object htag' | array htag' | value htag' => simp_all
  | noDefinition htag hknown hnone =>
    obtain ⟨_, _, -, hdefinition⟩ := hd.children
    simp [hnone] at hdefinition
  | objectNotList htag hdefinition hnone =>
    cases hd with
    | object _ hdefinition' =>
      obtain rfl := Option.some.inj (hdefinition.symm.trans hdefinition')
      cases hnone
    | array htag' | value htag' => simp_all
  | arrayNotList htag hdefinition hnone =>
    cases hd with
    | array _ hdefinition' =>
      obtain rfl := Option.some.inj (hdefinition.symm.trans hdefinition')
      cases hnone
    | object htag' | value htag' => simp_all
  | noLiteral htag hdefinition hnone =>
    cases hd with
    | value _ hdefinition' =>
      obtain rfl := Option.some.inj (hdefinition.symm.trans hdefinition')
      cases hnone
    | object htag' | array htag' => simp_all
  | inArray htag hnodes hnode _ ih =>
    exact ih ((Attribute.isAttribute_array htag hnodes).1 hd _ (List.mem_of_getElem? hnode))
  | entry htag hpairs hpair hentry =>
    exact hentry.not_fits (fits_of_arePairs ((Attribute.isAttribute_object htag hpairs).1 hd) hpair)
  | inEntry htag hpairs hpair hnode _ ih =>
    obtain ⟨hall, -⟩ := (Attribute.isAttribute_object htag hpairs).1 hd
    obtain ⟨_, node, -, hnode', hattribute⟩ := hall _ (List.mem_of_getElem? hpair)
    obtain rfl := Option.some.inj (hnode.symm.trans hnode')
    exact ih hattribute

/-! ## What comes first -/

/-- A flaw at the node itself is met first. -/
theorem firstFlaw_of_nil {d : Data} {e : Fault} (h : d.Flaw [] e) : d.FirstFlaw e :=
  ⟨[], h, fun _ _ _ => List.not_lt_nil _⟩

/-- A node with a tag that is known and with a definition has no flaw at itself. -/
theorem Flaw.ne_nil {d definition : Data} {tag : String} {p : Path} {e : Fault} (h : d.Flaw p e)
    (htag : d.child? 0 = some (.string tag)) (hknown : tag ∈ ["object", "array", "value"])
    (hdefinition : d.child? 1 = some definition) : p ≠ [] := by
  rintro rfl
  cases h with
  | untagged htag' => exact htag' tag htag
  | unknownKind htag' hunknown =>
    obtain ⟨rfl⟩ := Option.some.inj (htag.symm.trans htag')
    exact hunknown hknown
  | noDefinition _ _ hnone => simp [hnone] at hdefinition

/-- Flaws of a node that are not at itself are in its definition. -/
theorem Flaw.exists_cons {d : Data} {p : Path} {e : Fault} (h : d.Flaw p e) (hp : p ≠ []) :
    ∃ q, p = 1 :: q := by
  cases h with
  | untagged | unknownKind | noDefinition => exact absurd rfl hp
  | objectNotList | arrayNotList | noLiteral | inArray | entry | inEntry => exact ⟨_, rfl⟩

/-- A flaw at the definition is met first. -/
theorem firstFlaw_of_definition {d definition : Data} {tag : String} {e : Fault} (h : d.Flaw [1] e)
    (htag : d.child? 0 = some (.string tag)) (hknown : tag ∈ ["object", "array", "value"])
    (hdefinition : d.child? 1 = some definition) : d.FirstFlaw e := by
  refine ⟨[1], h, fun q f hq hlt => ?_⟩
  obtain ⟨r, rfl⟩ := hq.exists_cons (hq.ne_nil htag hknown hdefinition)
  simp at hlt

/-- The flaws of an array are those of its nodes. -/
theorem Flaw.exists_of_array {d : Data} {nodes : List Data} {q : Path} {f : Fault}
    (h : d.Flaw q f) (htag : d.child? 0 = some (.string "array"))
    (hnodes : d.child? 1 = some (.list nodes)) :
    ∃ i r node, q = 1 :: i :: r ∧ nodes[i]? = some node ∧ node.Flaw r f := by
  have hinside := h.ne_nil htag (by decide) hnodes
  cases h with
  | untagged | unknownKind | noDefinition => exact absurd rfl hinside
  | objectNotList htag' | noLiteral htag' | entry htag' | inEntry htag' => simp_all
  | arrayNotList _ hdefinition hnone =>
    obtain rfl := Option.some.inj (hnodes.symm.trans hdefinition)
    cases hnone
  | inArray _ hnodes' hnode hflaw =>
    obtain ⟨rfl⟩ := Option.some.inj (hnodes.symm.trans hnodes')
    exact ⟨_, _, _, rfl, hnode, hflaw⟩

/-- What is wrong with an entry after some others: by itself, or in its node. -/
def FlawOfEntry (earlier : List Data) (pair : Data) (p : Path) (e : Fault) : Prop :=
  EntryFlaw earlier pair p e
    ∨ ∃ node q, p = 1 :: q ∧ pair.child? 1 = some node ∧ node.Flaw q e

theorem FlawOfEntry.not_fits {earlier : List Data} {pair : Data} {p : Path} {e : Fault}
    (h : FlawOfEntry earlier pair p e) : ¬ Fits earlier pair := by
  obtain hentry | ⟨node, q, -, hnode, hflaw⟩ := h
  · exact hentry.not_fits
  · rintro ⟨⟨_, _, -, hnode', hattribute⟩, -⟩
    obtain rfl := Option.some.inj (hnode.symm.trans hnode')
    exact hflaw.not_isAttribute hattribute

/-- The flaws of an object are those of its entries. -/
theorem Flaw.exists_of_object {d : Data} {pairs : List Data} {q : Path} {f : Fault}
    (h : d.Flaw q f) (htag : d.child? 0 = some (.string "object"))
    (hpairs : d.child? 1 = some (.list pairs)) :
    ∃ i r pair, q = 1 :: i :: r ∧ pairs[i]? = some pair
      ∧ FlawOfEntry (pairs.take i) pair r f := by
  have hinside := h.ne_nil htag (by decide) hpairs
  cases h with
  | untagged | unknownKind | noDefinition => exact absurd rfl hinside
  | arrayNotList htag' | noLiteral htag' | inArray htag' => simp_all
  | objectNotList _ hdefinition hnone =>
    obtain rfl := Option.some.inj (hpairs.symm.trans hdefinition)
    cases hnone
  | entry _ hpairs' hpair hentry =>
    obtain ⟨rfl⟩ := Option.some.inj (hpairs.symm.trans hpairs')
    exact ⟨_, _, _, rfl, hpair, .inl hentry⟩
  | inEntry _ hpairs' hpair hnode hflaw =>
    obtain ⟨rfl⟩ := Option.some.inj (hpairs.symm.trans hpairs')
    exact ⟨_, _, _, rfl, hpair, .inr ⟨_, _, rfl, hnode, hflaw⟩⟩

/-- Behind what is before it without a flaw, the first flaw of an item comes first. -/
theorem not_lt_of_before {i j : Nat} {p r : Path} (hbefore : ¬ j < i) (hsame : j = i → ¬ r < p) :
    ¬ (1 :: j :: r : Path) < 1 :: i :: p := by
  rw [List.cons_lt_cons_iff, List.cons_lt_cons_iff]
  rintro (hlt | ⟨-, hlt | ⟨hji, hlt⟩⟩)
  · omega
  · exact hbefore hlt
  · exact hsame hji hlt

/-- Behind nodes without a flaw, the first flaw of a node of an array comes first. -/
theorem firstFlaw_array {d node : Data} {before after : List Data} {e : Fault}
    (htag : d.child? 0 = some (.string "array"))
    (hnodes : d.child? 1 = some (.list (before ++ node :: after)))
    (hbefore : ∀ other ∈ before, other.IsAttribute) (h : node.FirstFlaw e) : d.FirstFlaw e := by
  obtain ⟨p, hp, hfirst⟩ := h
  refine ⟨1 :: before.length :: p, .inArray htag hnodes (by simp) hp, fun q f hq => ?_⟩
  obtain ⟨j, r, other, rfl, hother, hflaw⟩ := hq.exists_of_array htag hnodes
  refine not_lt_of_before (fun hlt => ?_) fun hji => ?_
  · rw [List.getElem?_append_left hlt] at hother
    exact hflaw.not_isAttribute (hbefore other (List.mem_of_getElem? hother))
  · subst hji
    obtain rfl : node = other := by simpa using hother
    exact hfirst r f hflaw

/-- The flaw of an entry after some others that is met first. -/
def FirstFlawOfEntry (earlier : List Data) (pair : Data) (e : Fault) : Prop :=
  ∃ p, FlawOfEntry earlier pair p e ∧ ∀ q f, FlawOfEntry earlier pair q f → ¬ q < p

/-- Behind entries without a flaw, the first flaw of an entry of an object comes first. -/
theorem firstFlaw_object {d pair : Data} {before after : List Data} {e : Fault}
    (htag : d.child? 0 = some (.string "object"))
    (hpairs : d.child? 1 = some (.list (before ++ pair :: after)))
    (hbefore : Attribute.ArePairs [] before) (h : FirstFlawOfEntry before pair e) :
    d.FirstFlaw e := by
  obtain ⟨p, hp, hfirst⟩ := h
  have hpair : (before ++ pair :: after)[before.length]? = some pair := by simp
  have hflaw : d.Flaw (1 :: before.length :: p) e := by
    obtain hentry | ⟨node, q, rfl, hnode, hflaw⟩ := hp
    · exact .entry htag hpairs hpair (by rwa [List.take_left])
    · exact .inEntry htag hpairs hpair hnode hflaw
  refine ⟨_, hflaw, fun q f hq => ?_⟩
  obtain ⟨j, r, other, rfl, hother, hflaw⟩ := hq.exists_of_object htag hpairs
  refine not_lt_of_before (fun hlt => ?_) fun hji => ?_
  · rw [List.getElem?_append_left hlt] at hother
    rw [List.take_append_of_le_length hlt.le] at hflaw
    exact hflaw.not_fits (fits_of_arePairs hbefore hother)
  · subst hji
    obtain rfl : pair = other := by simpa using hother
    rw [List.take_left] at hflaw
    exact hfirst r f hflaw

/-- What is no pair is met first. -/
theorem firstFlawOfEntry_of_nil {earlier : List Data} {pair : Data} {e : Fault}
    (h : EntryFlaw earlier pair [] e) : FirstFlawOfEntry earlier pair e :=
  ⟨[], .inl h, fun _ _ _ => List.not_lt_nil _⟩

/-- A pair has no flaw at itself. -/
theorem FlawOfEntry.ne_nil {earlier : List Data} {pair node : Data} {key : String} {p : Path}
    {e : Fault} (h : FlawOfEntry earlier pair p e) (hkey : pair.child? 0 = some (.string key))
    (hnode : pair.child? 1 = some node) : p ≠ [] := by
  rintro rfl
  obtain hentry | ⟨_, _, hnil, -⟩ := h
  · cases hentry with
    | noKey hkey' => exact hkey' key hkey
    | noNode _ hnone => simp [hnone] at hnode
  · cases hnil

/-- A key that was seen comes before everything inside the node of its entry. -/
theorem firstFlawOfEntry_of_repeated {earlier : List Data} {pair node : Data} {key : String}
    (hkey : pair.child? 0 = some (.string key)) (hnode : pair.child? 1 = some node)
    (hseen : ∃ other ∈ earlier, other.child? 0 = some (.string key)) :
    FirstFlawOfEntry earlier pair (.duplicateAttributeKey key) := by
  obtain ⟨other, hother, hsame⟩ := hseen
  refine ⟨[0], .inl (.repeatedKey hkey hother hsame), fun q f hq hlt => ?_⟩
  obtain ⟨index, rest, rfl⟩ := List.exists_cons_of_ne_nil (hq.ne_nil hkey hnode)
  simp [List.cons_lt_cons_iff] at hlt

/-- Behind a new key, the first flaw of the node of an entry comes first. -/
theorem firstFlawOfEntry_of_node {earlier : List Data} {pair node : Data} {key : String}
    {e : Fault} (hkey : pair.child? 0 = some (.string key)) (hnode : pair.child? 1 = some node)
    (hnew : ∀ other ∈ earlier, other.child? 0 ≠ some (.string key)) (h : node.FirstFlaw e) :
    FirstFlawOfEntry earlier pair e := by
  obtain ⟨p, hp, hfirst⟩ := h
  refine ⟨1 :: p, .inr ⟨node, p, rfl, hnode, hp⟩, fun q f hq => ?_⟩
  have hinside := hq.ne_nil hkey hnode
  obtain hentry | ⟨other, r, rfl, hother, hflaw⟩ := hq
  · cases hentry with
    | noKey | noNode => exact absurd rfl hinside
    | repeatedKey hkey' hother hsame =>
      exact absurd (hsame.trans (hkey'.symm.trans hkey)) (hnew _ hother)
  · obtain rfl := Option.some.inj (hnode.symm.trans hother)
    rw [List.cons_lt_cons_iff]
    rintro (hlt | ⟨-, hlt⟩)
    · exact Nat.lt_irrefl 1 hlt
    · exact hfirst r f hflaw hlt

end Data

end FormTree
