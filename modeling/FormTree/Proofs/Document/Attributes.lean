import FormTree.Proofs.Document.Sound

/-!
# The grammar of attributes

`Data.IsAttribute` says what attribute trees look like, without saying how they are read, and
`Attribute.ofData_ok_iff` that exactly these trees can be read.
-/

namespace FormTree

/-! ## Attribute nodes -/

/-- An attribute node: an object is a list of pairs of a key and an attribute node, with distinct
keys, an array a list of attribute nodes, and a value a list with a literal in front. -/
@[mk_iff] inductive Data.IsAttribute : Data → Prop where
  | object {d : Data} {pairs : List Data} (htag : d.child? 0 = some (.string "object"))
      (hpairs : d.child? 1 = some (.list pairs))
      (hkeys : ∀ pair ∈ pairs, ∃ key, pair.child? 0 = some (.string key))
      (hdistinct : (pairs.map (Data.child? · 0)).Nodup)
      (hsome : ∀ pair ∈ pairs, (pair.child? 1).isSome)
      (hnodes : ∀ pair ∈ pairs, ∀ node, pair.child? 1 = some node → IsAttribute node) :
      IsAttribute d
  | array {d : Data} {nodes : List Data} (htag : d.child? 0 = some (.string "array"))
      (hnodes : d.child? 1 = some (.list nodes)) (hall : ∀ node ∈ nodes, IsAttribute node) :
      IsAttribute d
  | value {d literal : Data} {more : List Data} (htag : d.child? 0 = some (.string "value"))
      (hliteral : d.child? 1 = some (.list (literal :: more))) : IsAttribute d

/-- Attributes that can be compiled: none, or an attribute node. -/
def Data.Compilable (d : Data) : Prop := d = .null ∨ d = .list [] ∨ d.IsAttribute

/-- An attribute node has a tag and a definition. -/
theorem Data.IsAttribute.children {d : Data} (h : d.IsAttribute) :
    ∃ tag definition, d.child? 0 = some (.string tag) ∧ d.child? 1 = some definition := by
  cases h with
  | object htag hdefinition => exact ⟨_, _, htag, hdefinition⟩
  | array htag hdefinition => exact ⟨_, _, htag, hdefinition⟩
  | value htag hdefinition => exact ⟨_, _, htag, hdefinition⟩

/-! ## The reader of attributes -/

namespace Attribute

/-- A pair of an object: a key and an attribute node. -/
def IsPair (pair : Data) : Prop :=
  ∃ key node, pair.child? 0 = some (.string key) ∧ pair.child? 1 = some node ∧ node.IsAttribute

/-- What can be read after some keys: pairs with distinct keys that are not among these. -/
def ArePairs (seen : List String) (pairs : List Data) : Prop :=
  (∀ pair ∈ pairs, IsPair pair) ∧ (pairs.map (Data.child? · 0)).Nodup
    ∧ ∀ pair ∈ pairs, ∀ key ∈ seen, pair.child? 0 ≠ some (.string key)

theorem forall_ne_key_iff {seen : List String} {key : String} {pair : Data}
    (hkey : pair.child? 0 = some (.string key)) :
    (∀ other ∈ seen, pair.child? 0 ≠ some (.string other)) ↔ key ∉ seen := by
  rw [hkey]
  exact ⟨fun h hmem => h key hmem rfl, fun h other hmem heq => h (by cases heq; exact hmem)⟩

theorem arePairs_cons {seen : List String} {key : String} {pair : Data} {rest : List Data}
    (hkey : pair.child? 0 = some (.string key)) : ArePairs seen (pair :: rest)
      ↔ (IsPair pair ∧ key ∉ seen) ∧ ArePairs (key :: seen) rest := by
  have hapart : pair.child? 0 ∉ rest.map (Data.child? · 0)
      ↔ ∀ found ∈ rest, found.child? 0 ≠ some (.string key) := by
    simp [hkey]
  simp only [ArePairs, List.forall_mem_cons, List.map_cons, List.nodup_cons,
    forall_ne_key_iff hkey, hapart, forall_and]
  tauto

theorem isAttribute_object {d : Data} {pairs : List Data}
    (htag : d.child? 0 = some (.string "object")) (hpairs : d.child? 1 = some (.list pairs)) :
    d.IsAttribute ↔ ArePairs [] pairs := by
  constructor
  · intro h
    cases h with
    | object htag' hpairs' hkeys hdistinct hsome hnodes =>
      obtain rfl : pairs = _ := by simpa using hpairs.symm.trans hpairs'
      refine ⟨fun pair hpair => ?_, hdistinct, fun _ _ _ h => absurd h List.not_mem_nil⟩
      obtain ⟨key, hkey⟩ := hkeys pair hpair
      obtain ⟨node, hnode⟩ := Option.isSome_iff_exists.1 (hsome pair hpair)
      exact ⟨key, node, hkey, hnode, hnodes pair hpair node hnode⟩
    | array htag' => simp [htag] at htag'
    | value htag' => simp [htag] at htag'
  · rintro ⟨hall, hdistinct, -⟩
    refine .object htag hpairs (fun pair hpair => ?_) hdistinct (fun pair hpair => ?_)
      fun pair hpair node hnode => ?_
    all_goals obtain ⟨key, found, hkey, hfound, hattribute⟩ := hall pair hpair
    · exact ⟨key, hkey⟩
    · rw [hfound]
      rfl
    · obtain rfl := Option.some.inj (hfound.symm.trans hnode)
      exact hattribute

theorem isAttribute_array {d : Data} {nodes : List Data}
    (htag : d.child? 0 = some (.string "array")) (hnodes : d.child? 1 = some (.list nodes)) :
    d.IsAttribute ↔ ∀ node ∈ nodes, node.IsAttribute := by
  constructor
  · intro h
    cases h with
    | object htag' => simp [htag] at htag'
    | array htag' hnodes' hall =>
      obtain rfl : nodes = _ := by simpa using hnodes.symm.trans hnodes'
      exact hall
    | value htag' => simp [htag] at htag'
  · exact .array htag hnodes

theorem isAttribute_value {d : Data} (htag : d.child? 0 = some (.string "value")) :
    d.IsAttribute ↔ ∃ literal more, d.child? 1 = some (.list (literal :: more)) := by
  rw [Data.isAttribute_iff, htag]
  simp

/-- What can be read as a pair is a list with a key and something behind it. -/
theorem ofPair_shape {seen : List String} {pair : Data} {entry : String × Attribute}
    (h : ofPair seen pair = .ok entry) :
    ∃ node more, pair = .list (.string entry.1 :: node :: more) := by
  unfold ofPair at h
  split at h
  · split at h
    · cases h
    · split at h
      · cases h
      · cases h
        exact ⟨_, _, rfl⟩
  · cases h
  · cases h

/-- What can be read as an attribute node is a list with a tag and something behind it. -/
theorem ofNode_shape {d : Data} {a : Attribute} (h : ofNode d = .ok a) :
    ∃ tag definition more, d = .list (.string tag :: definition :: more) := by
  unfold ofNode at h
  split at h
  · next tag rest =>
    cases rest with
    | nil =>
      unfold ofTagged at h
      split at h <;> cases h
    | cons definition more => exact ⟨tag, definition, more, rfl⟩
  · cases h

mutual

/-- An attribute tree can be read exactly if it is an attribute node. -/
theorem ofNode_ok_iff (d : Data) : (∃ a, ofNode d = .ok a) ↔ d.IsAttribute := by
  -- the reader looks for the shape first, then for the three tags in this order
  by_cases hshape : ∃ tag definition more, d = .list (.string tag :: definition :: more)
  · obtain ⟨tag, definition, more, hd⟩ := hshape
    have htag : d.child? 0 = some (.string tag) := by rw [hd]; rfl
    have hdefinition : d.child? 1 = some definition := by rw [hd]; rfl
    rw [hd, ofNode, ofTagged, ← hd]
    by_cases hobject : tag = "object"
    · rw [if_pos hobject]
      cases hkind : definition with
      | list pairs =>
        rw [ofObject, exists_map_ok, ofPairs_ok_iff [] pairs]
        exact (isAttribute_object (hobject ▸ htag) (hkind ▸ hdefinition)).symm
      | _ =>
        refine iff_of_false (by rintro ⟨_, ⟨⟩⟩) ?_
        rw [Data.isAttribute_iff, htag, hdefinition, hkind, hobject]
        simp
    · by_cases harray : tag = "array"
      · rw [if_neg hobject, if_pos harray]
        cases hkind : definition with
        | list nodes =>
          rw [ofArray, exists_map_ok, ofNodes_ok_iff nodes]
          exact (isAttribute_array (harray ▸ htag) (hkind ▸ hdefinition)).symm
        | _ =>
          refine iff_of_false (by rintro ⟨_, ⟨⟩⟩) ?_
          rw [Data.isAttribute_iff, htag, hdefinition, hkind, harray]
          simp
      · by_cases hvalue : tag = "value"
        · rw [if_neg hobject, if_neg harray, if_pos hvalue, isAttribute_value (hvalue ▸ htag),
            hdefinition]
          unfold ofValue
          split
          · simp
          · next hnone => simpa using hnone
        · rw [if_neg hobject, if_neg harray, if_neg hvalue, Data.isAttribute_iff, htag]
          exact iff_of_false (by rintro ⟨_, ⟨⟩⟩) (by simp [hobject, harray, hvalue])
  · refine iff_of_false (fun ⟨_, h⟩ => hshape (ofNode_shape h)) fun h => hshape ?_
    obtain ⟨tag, definition, htag, hdefinition⟩ := h.children
    exact ⟨tag, definition, Data.eq_list_of_children htag hdefinition⟩
termination_by sizeOf d
decreasing_by all_goals rw [hd, hkind]; simp; omega

theorem ofNodes_ok_iff (nodes : List Data) :
    (∃ items, ofNodes nodes = .ok items) ↔ ∀ node ∈ nodes, node.IsAttribute := by
  match nodes with
  | [] => exact iff_of_true ⟨[], rfl⟩ (by simp)
  | node :: rest =>
    rw [List.forall_mem_cons, ← ofNode_ok_iff node, ← ofNodes_ok_iff rest, ofNodes]
    cases ofNode node with
    | error e => simp
    | ok item => cases ofNodes rest <;> simp
termination_by sizeOf nodes

theorem ofPair_ok_iff (seen : List String) (pair : Data) :
    (∃ entry, ofPair seen pair = .ok entry)
      ↔ IsPair pair ∧ ∀ key ∈ seen, pair.child? 0 ≠ some (.string key) := by
  by_cases hshape : ∃ key node more, pair = .list (.string key :: node :: more)
  · obtain ⟨key, node, more, hd⟩ := hshape
    have hkey : pair.child? 0 = some (.string key) := by rw [hd]; rfl
    have hnode : pair.child? 1 = some node := by rw [hd]; rfl
    have hpair : IsPair pair ↔ ∃ a, ofNode node = .ok a := by
      rw [ofNode_ok_iff node]
      simp [IsPair, hkey, hnode]
    rw [hpair, hd, ofPair, ← hd, forall_ne_key_iff hkey]
    by_cases hseen : key ∈ seen
    · rw [if_pos hseen]
      exact iff_of_false (by rintro ⟨_, ⟨⟩⟩) fun ⟨_, h⟩ => h hseen
    · rw [if_neg hseen, and_iff_left hseen]
      cases ofNode node <;> simp
  · refine iff_of_false (fun ⟨_, h⟩ => hshape ⟨_, ofPair_shape h⟩) ?_
    rintro ⟨⟨key, node, hkey, hnode, -⟩, -⟩
    exact hshape ⟨key, node, Data.eq_list_of_children hkey hnode⟩
termination_by sizeOf pair
decreasing_by rw [hd]; simp; omega

theorem ofPairs_ok_iff (seen : List String) (pairs : List Data) :
    (∃ entries, ofPairs seen pairs = .ok entries) ↔ ArePairs seen pairs := by
  match pairs with
  | [] => exact iff_of_true ⟨[], rfl⟩ ⟨by simp, .nil, by simp⟩
  | pair :: rest =>
    have hpair := ofPair_ok_iff seen pair
    rw [ofPairs]
    cases hentry : ofPair seen pair with
    | error e =>
      refine iff_of_false (by rintro ⟨_, ⟨⟩⟩) fun h => ?_
      obtain ⟨entry, hok⟩ := hpair.2 ⟨h.1 pair (List.mem_cons_self ..),
        h.2.2 pair (List.mem_cons_self ..)⟩
      simp [hentry] at hok
    | ok entry =>
      obtain ⟨node, more, hd⟩ := ofPair_shape hentry
      have hkey : pair.child? 0 = some (.string entry.1) := by rw [hd]; rfl
      obtain ⟨hispair, hnew⟩ := hpair.1 ⟨entry, hentry⟩
      rw [arePairs_cons hkey, and_iff_right ⟨hispair, (forall_ne_key_iff hkey).1 hnew⟩,
        ← ofPairs_ok_iff (entry.1 :: seen) rest]
      cases hrest : ofPairs (entry.1 :: seen) rest <;> simp [hrest]
termination_by sizeOf pairs

end

/-- Attributes can be read exactly if they are none, or an attribute node. -/
theorem ofData_ok_iff (d : Data) : (∃ a, ofData d = .ok a) ↔ d.Compilable := by
  unfold ofData Data.Compilable
  split
  · simp
  · simp
  · next hnull hnil =>
    rw [ofNode_ok_iff]
    simp only [false_or, show d ≠ .null from hnull, show d ≠ .list [] from hnil]

end Attribute

end FormTree
