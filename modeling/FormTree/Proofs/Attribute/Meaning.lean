import FormTree.Proofs.Document.Attributes

/-!
# The meaning of attribute trees

`Data.Denotes` says which attribute a tree denotes, by what stands at its positions 0 and 1 and
without regard to what stands behind them.  `Attribute.ofNode_eq_ok` says that the reader of
attribute nodes computes this: it gives an attribute exactly for the trees that denote one, and
gives this one.
-/

namespace FormTree

/-! ## Denotations -/

mutual

/-- What a tree denotes as an attribute node. -/
inductive Data.Denotes : Data → Attribute → Prop where
  | value {d literal : Data} {more : List Data} (htag : d.child? 0 = some (.string "value"))
      (hliteral : d.child? 1 = some (.list (literal :: more))) :
      Data.Denotes d (.literal literal.toJson)
  | array {d : Data} {nodes : List Data} {items : List Attribute}
      (htag : d.child? 0 = some (.string "array")) (hnodes : d.child? 1 = some (.list nodes))
      (hitems : Data.DenoteItems nodes items) : Data.Denotes d (.array items)
  | object {d : Data} {pairs : List Data} {entries : List (String × Attribute)}
      (htag : d.child? 0 = some (.string "object")) (hpairs : d.child? 1 = some (.list pairs))
      (hentries : Data.DenoteEntries pairs entries) (hdistinct : (entries.map Prod.fst).Nodup) :
      Data.Denotes d (.object entries)

/-- What a list of attribute nodes denotes, one by one. -/
inductive Data.DenoteItems : List Data → List Attribute → Prop where
  | nil : Data.DenoteItems [] []
  | cons {node : Data} {item : Attribute} {nodes : List Data} {items : List Attribute}
      (hnode : Data.Denotes node item) (hrest : Data.DenoteItems nodes items) :
      Data.DenoteItems (node :: nodes) (item :: items)

/-- What a list of pairs of a key and an attribute node denotes, one by one. -/
inductive Data.DenoteEntries : List Data → List (String × Attribute) → Prop where
  | nil : Data.DenoteEntries [] []
  | cons {pair node : Data} {key : String} {child : Attribute} {pairs : List Data}
      {entries : List (String × Attribute)} (hkey : pair.child? 0 = some (.string key))
      (hnode : pair.child? 1 = some node) (hchild : Data.Denotes node child)
      (hrest : Data.DenoteEntries pairs entries) :
      Data.DenoteEntries (pair :: pairs) ((key, child) :: entries)

end

/-- Null and the empty list denote nothing as attribute nodes. -/
theorem Data.not_denotes_none {d : Data} {a : Attribute} (hnone : d = .null ∨ d = .list []) :
    ¬ d.Denotes a := by
  intro h
  obtain rfl | rfl := hnone
  all_goals cases h with
    | value htag | array htag | object htag => cases htag

/-- Lists whose nodes all denote something denote something. -/
theorem Data.exists_denoteItems {nodes : List Data}
    (h : ∀ node ∈ nodes, ∃ a, node.Denotes a) : ∃ items, Data.DenoteItems nodes items := by
  induction nodes with
  | nil => exact ⟨[], .nil⟩
  | cons node rest ih =>
    obtain ⟨⟨item, hitem⟩, hrest⟩ := List.forall_mem_cons.1 h
    obtain ⟨items, hitems⟩ := ih hrest
    exact ⟨item :: items, .cons hitem hitems⟩

/-- Lists of pairs whose nodes all denote something denote entries with the keys of the pairs. -/
theorem Data.exists_denoteEntries {pairs : List Data}
    (hkeys : ∀ pair ∈ pairs, ∃ key, pair.child? 0 = some (.string key))
    (hnodes : ∀ pair ∈ pairs, ∃ node a, pair.child? 1 = some node ∧ node.Denotes a) :
    ∃ entries, Data.DenoteEntries pairs entries := by
  induction pairs with
  | nil => exact ⟨[], .nil⟩
  | cons pair rest ih =>
    obtain ⟨⟨key, hkey⟩, hkeys⟩ := List.forall_mem_cons.1 hkeys
    obtain ⟨⟨node, child, hnode, hchild⟩, hnodes⟩ := List.forall_mem_cons.1 hnodes
    obtain ⟨entries, hentries⟩ := ih hkeys hnodes
    exact ⟨(key, child) :: entries, .cons hkey hnode hchild hentries⟩

theorem Data.DenoteEntries.map_key {pairs : List Data} {entries : List (String × Attribute)}
    (h : Data.DenoteEntries pairs entries) : pairs.map (Data.child? · 0)
      = (entries.map Prod.fst).map fun key => some (.string key) := by
  induction pairs generalizing entries with
  | nil =>
    cases h with
    | nil => rfl
  | cons pair rest ih =>
    cases h with
    | cons hkey _ _ hrest => simp [hkey, ih hrest]

/-- The grammar of attribute nodes has the trees that denote something. -/
theorem Data.IsAttribute.exists_denotes {d : Data} (h : d.IsAttribute) : ∃ a, d.Denotes a := by
  induction h with
  | value htag hliteral => exact ⟨_, .value htag hliteral⟩
  | array htag hnodes _ ih =>
    obtain ⟨items, hitems⟩ := Data.exists_denoteItems ih
    exact ⟨_, .array htag hnodes hitems⟩
  | object htag hpairs hkeys hdistinct hsome _ ih =>
    obtain ⟨entries, hentries⟩ := Data.exists_denoteEntries hkeys fun pair hpair => by
      obtain ⟨node, hnode⟩ := Option.isSome_iff_exists.1 (hsome pair hpair)
      obtain ⟨a, ha⟩ := ih pair hpair node hnode
      exact ⟨node, a, hnode, ha⟩
    rw [hentries.map_key] at hdistinct
    exact ⟨_, .object htag hpairs hentries hdistinct.of_map⟩

/-! ## What the reader makes of a tree -/

namespace Attribute

section Tagged

variable {d definition : Data} {tag : String}

theorem ofNode_of_tag (htag : d.child? 0 = some (.string tag))
    (hdefinition : d.child? 1 = some definition) :
    ofNode d = if tag = "object" then ofObject definition
      else if tag = "array" then ofArray definition
      else if tag = "value" then ofValue definition
      else .error (.malformedAttribute (.unknownKind tag)) := by
  obtain ⟨more, rfl⟩ := Data.eq_list_of_children htag hdefinition
  rw [ofNode, ofTagged]

theorem ofNode_object (htag : d.child? 0 = some (.string "object"))
    (hdefinition : d.child? 1 = some definition) : ofNode d = ofObject definition := by
  rw [ofNode_of_tag htag hdefinition, if_pos rfl]

theorem ofNode_array (htag : d.child? 0 = some (.string "array"))
    (hdefinition : d.child? 1 = some definition) : ofNode d = ofArray definition := by
  rw [ofNode_of_tag htag hdefinition, if_neg (by decide), if_pos rfl]

theorem ofNode_value (htag : d.child? 0 = some (.string "value"))
    (hdefinition : d.child? 1 = some definition) : ofNode d = ofValue definition := by
  rw [ofNode_of_tag htag hdefinition, if_neg (by decide), if_neg (by decide), if_pos rfl]

end Tagged

mutual

/-- What a tree denotes is read from it. -/
theorem ofNode_of_denotes {d : Data} {a : Attribute} (h : d.Denotes a) : ofNode d = .ok a := by
  cases h with
  | value htag hliteral => rw [ofNode_value htag hliteral, ofValue]
  | array htag hnodes hitems =>
    rw [ofNode_array htag hnodes, ofArray, ofNodes_of_denoteItems hitems]
    rfl
  | object htag hpairs hentries hdistinct =>
    rw [ofNode_object htag hpairs, ofObject,
      ofPairs_of_denoteEntries [] hentries hdistinct fun _ _ => List.not_mem_nil]
    rfl

theorem ofNodes_of_denoteItems {nodes : List Data} {items : List Attribute}
    (h : Data.DenoteItems nodes items) : ofNodes nodes = .ok items := by
  cases h with
  | nil => rfl
  | cons hnode hrest =>
    rw [ofNodes, ofNode_of_denotes hnode, ofNodes_of_denoteItems hrest]

/-- Entries are read after keys that are not among theirs. -/
theorem ofPairs_of_denoteEntries (seen : List String) {pairs : List Data}
    {entries : List (String × Attribute)} (h : Data.DenoteEntries pairs entries)
    (hdistinct : (entries.map Prod.fst).Nodup)
    (hnew : ∀ key ∈ entries.map Prod.fst, key ∉ seen) : ofPairs seen pairs = .ok entries := by
  cases h with
  | nil => rfl
  | @cons pair node key child rest entries hkey hnode hchild hrest =>
    obtain ⟨more, rfl⟩ := Data.eq_list_of_children hkey hnode
    rw [List.map_cons, List.nodup_cons] at hdistinct
    rw [List.map_cons, List.forall_mem_cons] at hnew
    have hlater : ∀ other ∈ entries.map Prod.fst, other ∉ key :: seen := by
      intro other hother hmem
      obtain rfl | hseen := List.mem_cons.1 hmem
      · exact hdistinct.1 hother
      · exact hnew.2 other hother hseen
    have hentry : ofPair seen (.list (.string key :: node :: more)) = .ok (key, child) := by
      rw [ofPair, if_neg hnew.1, ofNode_of_denotes hchild]
    have hentries := ofPairs_of_denoteEntries (key :: seen) hrest hdistinct.2 hlater
    rw [ofPairs, hentry]
    dsimp only
    rw [hentries]

end

/-- An attribute is read from a tree exactly if the tree denotes it. -/
theorem ofNode_eq_ok {d : Data} {a : Attribute} : ofNode d = .ok a ↔ d.Denotes a := by
  constructor
  · intro h
    obtain ⟨other, hother⟩ := ((ofNode_ok_iff d).1 ⟨a, h⟩).exists_denotes
    obtain rfl := Except.ok.inj (h.symm.trans (ofNode_of_denotes hother))
    exact hother
  · exact ofNode_of_denotes

/-- What is not one of the two trees that stand for no attributes is read as a node. -/
theorem ofData_of_some {d : Data} (hsome : ¬ (d = .null ∨ d = .list [])) :
    ofData d = ofNode d := by
  unfold ofData
  split
  · exact absurd (.inl rfl) hsome
  · exact absurd (.inr rfl) hsome
  · rfl

/-- What is read from a tree, with what stands for no attributes. -/
theorem ofData_eq_ok {d : Data} {a : Attribute} :
    ofData d = .ok a ↔ (d = .null ∨ d = .list []) ∧ a = empty ∨ d.Denotes a := by
  by_cases hnone : d = .null ∨ d = .list []
  · rw [or_iff_left (Data.not_denotes_none hnone), and_iff_right hnone]
    obtain rfl | rfl := hnone
    all_goals exact ⟨fun h => (Except.ok.inj h).symm, fun h => h ▸ rfl⟩
  · rw [ofData_of_some hnone, ofNode_eq_ok, or_iff_right fun h => hnone h.1]

end Attribute

end FormTree
