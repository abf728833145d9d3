import FormTree.Proofs.Attribute.Flaws

/-!
# What the reader of attributes reports

`attributes_read_exactly` says that the reader accepts exactly the trees that denote an attribute,
besides the two that stand for no attributes, and refuses every other tree with its first flaw.

The readers of nodes and of pairs go through their lists and stop at the first item that they cannot
take, so all that is before it is free of flaws, and the first flaw of the item is the first flaw of
the whole.
-/

namespace FormTree

/-! ## Parts of a tree -/

namespace Data

theorem eq_list_of_child? {d first : Data} (h : d.child? 0 = some first) :
    ∃ rest, d = .list (first :: rest) := by
  cases d with
  | list items =>
    cases items with
    | nil => cases h
    | cons head rest =>
      cases h
      exact ⟨rest, rfl⟩
  | _ => cases h

theorem toList?_eq_none {d : Data} (h : ∀ items, d ≠ .list items) : d.toList? = none := by
  cases d with
  | list items => exact absurd rfl (h items)
  | _ => rfl

theorem sizeOf_child?_lt {d child : Data} {i : Nat} (h : d.child? i = some child) :
    sizeOf child < sizeOf d := by
  cases d with
  | list items =>
    have hlt := List.sizeOf_lt_of_mem (List.mem_of_getElem? h)
    rw [list.sizeOf_spec]
    omega
  | _ => cases h

/-- What stands in the definition of a node is smaller than the node. -/
theorem sizeOf_inside_lt {d definition child : Data} (hdefinition : d.child? 1 = some definition)
    (h : child ∈ definition.items) : sizeOf child < sizeOf d := by
  obtain ⟨i, hi⟩ := List.getElem?_of_mem h
  have hchild : definition.child? i = some child := by
    cases definition with
    | list items => exact hi
    | _ => cases hi
  exact (sizeOf_child?_lt hchild).trans (sizeOf_child?_lt hdefinition)

end Data

/-! ## The readers, case by case -/

namespace Attribute

open Data

theorem map_eq_error {α β ε : Type} {x : Except ε α} {f : α → β} {e : ε} :
    x.map f = .error e ↔ x = .error e := by
  cases x <;> simp [Except.map]

theorem ofNode_of_untagged {d : Data} (htag : ∀ tag, d.child? 0 ≠ some (.string tag)) :
    ofNode d = .error (.malformedAttribute (.notPair d)) := by
  unfold ofNode
  split
  · exact absurd rfl (htag _)
  · rfl

theorem ofNode_of_unknownKind {d : Data} {tag : String} (htag : d.child? 0 = some (.string tag))
    (hunknown : tag ∉ ["object", "array", "value"]) :
    ofNode d = .error (.malformedAttribute (.unknownKind tag)) := by
  obtain ⟨rest, rfl⟩ := eq_list_of_child? htag
  cases rest <;> simp_all [ofNode, ofTagged]

theorem ofNode_of_noDefinition {d : Data} {tag : String} (htag : d.child? 0 = some (.string tag))
    (hknown : tag ∈ ["object", "array", "value"]) (hnone : d.child? 1 = none) :
    ofNode d = .error (.malformedAttribute (.noDefinition tag)) := by
  obtain ⟨rest, rfl⟩ := eq_list_of_child? htag
  obtain rfl : rest = [] := by simpa using hnone
  rw [ofNode, ofTagged, if_pos (by simpa using hknown)]

theorem ofPair_of_noKey {seen : List String} {pair : Data}
    (hkey : ∀ key, pair.child? 0 ≠ some (.string key)) :
    ofPair seen pair = .error (.malformedAttribute (.entryWithoutKey pair)) := by
  unfold ofPair
  split
  · exact absurd rfl (hkey _)
  · exact absurd rfl (hkey _)
  · rfl

theorem ofPair_of_noNode {seen : List String} {pair : Data} {key : String}
    (hkey : pair.child? 0 = some (.string key)) (hnone : pair.child? 1 = none) :
    ofPair seen pair = .error (.malformedAttribute (.keyWithoutNode key)) := by
  obtain ⟨rest, rfl⟩ := eq_list_of_child? hkey
  obtain rfl : rest = [] := by simpa using hnone
  rw [ofPair]

theorem ofPair_of_node {seen : List String} {pair node : Data} {key : String}
    (hkey : pair.child? 0 = some (.string key)) (hnode : pair.child? 1 = some node) :
    ofPair seen pair = if key ∈ seen then .error (.duplicateAttributeKey key)
      else (ofNode node).map fun child => (key, child) := by
  obtain ⟨more, rfl⟩ := eq_list_of_children hkey hnode
  rw [ofPair]
  cases ofNode node <;> rfl

/-- The reader of nodes stops at the first that cannot be read. -/
theorem exists_of_ofNodes_error {nodes : List Data} {e : Fault} (h : ofNodes nodes = .error e) :
    ∃ before node after, nodes = before ++ node :: after
      ∧ (∀ other ∈ before, other.IsAttribute) ∧ ofNode node = .error e := by
  induction nodes with
  | nil => cases h
  | cons node rest ih =>
    rw [ofNodes] at h
    cases hnode : ofNode node with
    | error fault =>
      rw [hnode] at h
      cases h
      exact ⟨[], node, rest, rfl, fun _ hmem => absurd hmem List.not_mem_nil, hnode⟩
    | ok item =>
      rw [hnode] at h
      cases hrest : ofNodes rest with
      | ok items => simp [hrest] at h
      | error fault =>
        rw [hrest] at h
        cases h
        obtain ⟨before, failing, after, rfl, hbefore, hfails⟩ := ih hrest
        refine ⟨node :: before, failing, after, rfl, ?_, hfails⟩
        exact List.forall_mem_cons.2 ⟨(ofNode_ok_iff node).1 ⟨item, hnode⟩, hbefore⟩

/-- The reader of pairs stops at the first that cannot be read after the keys of those before. -/
theorem exists_of_ofPairs_error {seen : List String} {pairs : List Data} {e : Fault}
    (h : ofPairs seen pairs = .error e) :
    ∃ before pair after met, pairs = before ++ pair :: after ∧ ArePairs seen before
      ∧ (∀ key, key ∈ met ↔ key ∈ seen ∨ ∃ other ∈ before, other.child? 0 = some (.string key))
      ∧ ofPair met pair = .error e := by
  induction pairs generalizing seen with
  | nil => cases h
  | cons pair rest ih =>
    rw [ofPairs] at h
    cases hpair : ofPair seen pair with
    | error fault =>
      rw [hpair] at h
      cases h
      exact ⟨[], pair, rest, seen, rfl, by simp [ArePairs], by simp, hpair⟩
    | ok entry =>
      rw [hpair] at h
      cases hrest : ofPairs (entry.1 :: seen) rest with
      | ok entries => simp [hrest] at h
      | error fault =>
        simp only [hrest] at h
        cases h
        obtain ⟨before, failing, after, met, rfl, hbefore, hmet, hfails⟩ := ih hrest
        obtain ⟨node, more, hshape⟩ := ofPair_shape hpair
        have hkey : pair.child? 0 = some (.string entry.1) := by rw [hshape]; rfl
        obtain ⟨hispair, hnew⟩ := (ofPair_ok_iff seen pair).1 ⟨entry, hpair⟩
        refine ⟨pair :: before, failing, after, met, rfl, ?_, fun key => ?_, hfails⟩
        · exact (arePairs_cons hkey).2 ⟨⟨hispair, (forall_ne_key_iff hkey).1 hnew⟩, hbefore⟩
        · rw [hmet, List.mem_cons, List.exists_mem_cons_iff, hkey]
          simp only [Option.some.injEq, Data.string.injEq]
          tauto

/-- What the reader of pairs reports is the first flaw of the pair, if this is so for its node. -/
theorem firstFlawOfEntry_of_ofPair {met : List String} {before : List Data} {pair : Data}
    {e : Fault}
    (hmet : ∀ key, key ∈ met ↔ ∃ other ∈ before, other.child? 0 = some (.string key))
    (hfirst : ∀ node, pair.child? 1 = some node → ofNode node = .error e → node.FirstFlaw e)
    (h : ofPair met pair = .error e) : FirstFlawOfEntry before pair e := by
  by_cases hkey : ∃ key, pair.child? 0 = some (.string key)
  · obtain ⟨key, hkey⟩ := hkey
    cases hnode : pair.child? 1 with
    | none =>
      rw [ofPair_of_noNode hkey hnode] at h
      cases h
      exact firstFlawOfEntry_of_nil (.noNode hkey hnode)
    | some node =>
      rw [ofPair_of_node hkey hnode] at h
      by_cases hseen : key ∈ met
      · rw [if_pos hseen] at h
        cases h
        exact firstFlawOfEntry_of_repeated hkey hnode ((hmet key).1 hseen)
      · rw [if_neg hseen, map_eq_error] at h
        have hnew : ∀ other ∈ before, other.child? 0 ≠ some (.string key) :=
          fun other hother hsame => hseen ((hmet key).2 ⟨other, hother, hsame⟩)
        exact firstFlawOfEntry_of_node hkey hnode hnew (hfirst node hnode h)
  · rw [not_exists] at hkey
    rw [ofPair_of_noKey hkey] at h
    cases h
    exact firstFlawOfEntry_of_nil (.noKey hkey)

section Definition

variable {d definition : Data} {e : Fault}

theorem firstFlaw_of_ofObject (htag : d.child? 0 = some (.string "object"))
    (hdefinition : d.child? 1 = some definition)
    (hfirst : ∀ pair ∈ definition.items, ∀ node, pair.child? 1 = some node →
      ofNode node = .error e → node.FirstFlaw e)
    (h : ofObject definition = .error e) : d.FirstFlaw e := by
  unfold ofObject at h
  split at h
  · obtain ⟨before, pair, after, met, rfl, hbefore, hmet, hfails⟩ :=
      exists_of_ofPairs_error (map_eq_error.1 h)
    refine firstFlaw_object htag hdefinition hbefore (firstFlawOfEntry_of_ofPair ?_ ?_ hfails)
    · simpa using hmet
    · exact hfirst pair (by simp)
  · next hother =>
    cases h
    exact firstFlaw_of_definition (.objectNotList htag hdefinition (toList?_eq_none hother)) htag
      (by decide) hdefinition

theorem firstFlaw_of_ofArray (htag : d.child? 0 = some (.string "array"))
    (hdefinition : d.child? 1 = some definition)
    (hfirst : ∀ node ∈ definition.items, ofNode node = .error e → node.FirstFlaw e)
    (h : ofArray definition = .error e) : d.FirstFlaw e := by
  unfold ofArray at h
  split at h
  · obtain ⟨before, node, after, rfl, hbefore, hfails⟩ :=
      exists_of_ofNodes_error (map_eq_error.1 h)
    exact firstFlaw_array htag hdefinition hbefore (hfirst node (by simp) hfails)
  · next hother =>
    cases h
    exact firstFlaw_of_definition (.arrayNotList htag hdefinition (toList?_eq_none hother)) htag
      (by decide) hdefinition

theorem firstFlaw_of_ofValue (htag : d.child? 0 = some (.string "value"))
    (hdefinition : d.child? 1 = some definition) (h : ofValue definition = .error e) :
    d.FirstFlaw e := by
  unfold ofValue at h
  split at h
  · cases h
  · next hother =>
    cases h
    have hnone : definition.child? 0 = none := by
      cases hfirst : definition.child? 0 with
      | none => rfl
      | some first =>
        obtain ⟨rest, rfl⟩ := eq_list_of_child? hfirst
        exact absurd rfl (hother first rest)
    exact firstFlaw_of_definition (.noLiteral htag hdefinition hnone) htag (by decide) hdefinition

end Definition

/-- What the reader reports is the first flaw. -/
theorem firstFlaw_of_ofNode {d : Data} {e : Fault} (h : ofNode d = .error e) : d.FirstFlaw e := by
  by_cases htag : ∃ tag, d.child? 0 = some (.string tag)
  · obtain ⟨tag, htag⟩ := htag
    by_cases hknown : tag ∈ ["object", "array", "value"]
    · cases hdefinition : d.child? 1 with
      | none =>
        rw [ofNode_of_noDefinition htag hknown hdefinition] at h
        cases h
        exact firstFlaw_of_nil (.noDefinition htag hknown hdefinition)
      | some definition =>
        rw [List.mem_cons, List.mem_cons, List.mem_singleton] at hknown
        obtain rfl | rfl | rfl := hknown
        · rw [ofNode_object htag hdefinition] at h
          refine firstFlaw_of_ofObject htag hdefinition (fun pair hpair node hnode hfails => ?_) h
          have hsmaller : sizeOf node < sizeOf d :=
            (sizeOf_child?_lt hnode).trans (sizeOf_inside_lt hdefinition hpair)
          exact firstFlaw_of_ofNode hfails
        · rw [ofNode_array htag hdefinition] at h
          refine firstFlaw_of_ofArray htag hdefinition (fun node hnode hfails => ?_) h
          have hsmaller : sizeOf node < sizeOf d := sizeOf_inside_lt hdefinition hnode
          exact firstFlaw_of_ofNode hfails
        · rw [ofNode_value htag hdefinition] at h
          exact firstFlaw_of_ofValue htag hdefinition h
    · rw [ofNode_of_unknownKind htag hknown] at h
      cases h
      exact firstFlaw_of_nil (.unknownKind htag hknown)
  · rw [not_exists] at htag
    rw [ofNode_of_untagged htag] at h
    cases h
    exact firstFlaw_of_nil (.untagged htag)
termination_by sizeOf d

/-- The reader of attribute nodes fails exactly with the first flaw. -/
theorem ofNode_eq_error {d : Data} {e : Fault} : ofNode d = .error e ↔ d.FirstFlaw e := by
  refine ⟨firstFlaw_of_ofNode, fun h => ?_⟩
  cases hread : ofNode d with
  | ok a =>
    obtain ⟨p, hp, -⟩ := h
    exact absurd ((ofNode_ok_iff d).1 ⟨a, hread⟩) hp.not_isAttribute
  | error fault => rw [(firstFlaw_of_ofNode hread).unique h]

end Attribute

/-- Attributes are read exactly from null and the empty list, which stand for the empty object but
denote nothing as nodes, and from what denotes something.  Anything else is refused with its first
flaw.  Flaws stand at places in the tree, and are keys that were seen in the same object or
something malformed. -/
theorem attributes_read_exactly (d : Data) :
    (∀ a, Attribute.ofData d = .ok a
      ↔ (d = .null ∨ d = .list []) ∧ a = .object [] ∨ d.Denotes a)
    ∧ (∀ a, d = .null ∨ d = .list [] → ¬ d.Denotes a)
    ∧ (∀ e, Attribute.ofData d = .error e ↔ d ≠ .null ∧ d ≠ .list [] ∧ d.FirstFlaw e)
    ∧ ∀ p e, d.Flaw p e → (d.node? p).isSome
      ∧ ((∃ key, e = .duplicateAttributeKey key) ∨ ∃ defect, e = .malformedAttribute defect) := by
  refine ⟨fun a => Attribute.ofData_eq_ok, fun a => Data.not_denotes_none, fun e => ?_,
    fun p e h => ⟨h.node?_isSome, h.fault⟩⟩
  rw [← and_assoc, ← not_or]
  by_cases hnone : d = .null ∨ d = .list []
  · rw [iff_false_right fun h => h.1 hnone]
    obtain rfl | rfl := hnone
    all_goals rintro ⟨⟩
  · rw [Attribute.ofData_of_some hnone, Attribute.ofNode_eq_error, and_iff_right hnone]

/-! ## A repeated key in front of another flaw -/

namespace Repeated

/-- An object with a key twice, where the second entry has a node that is none. -/
def tree : Data := .list [.string "object", .list [
  .list [.string "label", .list [.string "value", .list [.string "Name"]]],
  .list [.string "label", .list [.string "hash"]]]]

/-- The first entry alone. -/
def entry : Data := .list [.string "object", .list [
  .list [.string "label", .list [.string "value", .list [.string "Name", .null]]]], .null]

end Repeated

open Repeated in
theorem attributes_read_exactly_repeated :
    tree.FirstFlaw (.duplicateAttributeKey "label")
    ∧ entry.Denotes (.object [("label", .literal (.string "Name"))])
    ∧ ¬ Data.null.Denotes .empty := by
  refine ⟨?_, ?_, ?_⟩
  · exact (((attributes_read_exactly tree).2.2.1 _).1 rfl).2.2
  · obtain ⟨hnone, -⟩ | hdenotes := ((attributes_read_exactly entry).1 _).1 rfl
    · simp [entry] at hnone
    · exact hdenotes
  · exact (attributes_read_exactly .null).2.1 _ (.inl rfl)

end FormTree
