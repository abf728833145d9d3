import FormTree.Form.Directory

/-!
# What a directory holds

Registering a name changes the entry of this name and of no other; a new name goes to the end, and a
name that was registered before keeps its place.  So a directory that is made of a list of entries
has the last entry of every name, in the order in which the names come up first.
-/

namespace FormTree.Directory

variable {κ : Type} {name other : String} {entry : Entry κ} {found : String × Entry κ}

theorem mem_place {entries : List (String × Entry κ)} (h : found ∈ place name entry entries) :
    found = (name, entry) ∨ found ∈ entries := by
  induction entries with
  | nil => exact .inl (List.mem_singleton.1 h)
  | cons head rest ih =>
    rw [place] at h
    split at h
    · exact (List.mem_cons.1 h).imp_right (List.mem_cons_of_mem _)
    · rcases List.mem_cons.1 h with rfl | h
      · exact .inr (List.mem_cons_self ..)
      · exact (ih h).imp_right (List.mem_cons_of_mem _)

theorem lookup_cons_of_ne {rest : List (String × Entry κ)} (h : other ≠ name) :
    List.lookup other ((name, entry) :: rest) = List.lookup other rest := by
  rw [List.lookup_cons, beq_false_of_ne h]

theorem lookup_place (entries : List (String × Entry κ)) :
    (place name entry entries).lookup other
      = if other = name then some entry else entries.lookup other := by
  by_cases hother : other = name
  · subst hother
    rw [if_pos rfl]
    induction entries with
    | nil => exact List.lookup_cons_self
    | cons head rest ih =>
      rw [place]
      split
      · exact List.lookup_cons_self
      · next hname => rw [lookup_cons_of_ne (Ne.symm hname), ih]
  · rw [if_neg hother]
    induction entries with
    | nil => exact lookup_cons_of_ne hother
    | cons head rest ih =>
      obtain ⟨first, kept⟩ := head
      rw [place]
      split
      · next hname =>
        obtain rfl : first = name := hname
        rw [lookup_cons_of_ne hother, lookup_cons_of_ne hother]
      · rw [List.lookup_cons, List.lookup_cons, ih]

theorem map_fst_place (entries : List (String × Entry κ)) :
    (place name entry entries).map Prod.fst
      = if name ∈ entries.map Prod.fst then entries.map Prod.fst
        else entries.map Prod.fst ++ [name] := by
  induction entries with
  | nil => rfl
  | cons head rest ih =>
    rw [place]
    split
    · next hname => simp [hname]
    · next hname =>
      have hne : name ≠ head.1 := fun h => hname h.symm
      simp only [List.map_cons, ih, List.mem_cons, hne, false_or]
      split <;> simp

@[simp] theorem get?_insert (m : Directory κ) (name other : String) (entry : Entry κ) :
    (m.insert name entry).get? other = if other = name then some entry else m.get? other :=
  lookup_place m.entries

/-- A name keeps its place, and a new one goes to the end. -/
theorem names_insert (m : Directory κ) (name : String) (entry : Entry κ) :
    (m.insert name entry).names = if name ∈ m.names then m.names else m.names ++ [name] :=
  map_fst_place m.entries

/-- A directory has nothing that was not registered. -/
theorem mem_ofList {entries : List (String × Entry κ)} (h : found ∈ (ofList entries).entries) :
    found ∈ entries := by
  suffices hall : ∀ m : Directory κ,
      found ∈ (entries.foldl (fun m entry => m.insert entry.1 entry.2) m).entries →
        found ∈ m.entries ∨ found ∈ entries by
    exact (hall empty h).resolve_left (List.not_mem_nil)
  clear h
  induction entries with
  | nil => exact fun m h => .inl h
  | cons head rest ih =>
    intro m h
    rcases ih _ h with h | h
    · rcases mem_place h with rfl | h
      · exact .inr (List.mem_cons_self ..)
      · exact .inl h
    · exact .inr (List.mem_cons_of_mem _ h)

/-- Of the entries of one name the last one counts. -/
theorem get?_ofList (entries : List (String × Entry κ)) (name : String) :
    (ofList entries).get? name = entries.reverse.lookup name := by
  -- for every directory to begin with, since an insertion changes it
  suffices hall : ∀ m : Directory κ,
      (entries.foldl (fun m entry => m.insert entry.1 entry.2) m).get? name
        = (entries.reverse.lookup name).or (m.get? name) by
    rw [ofList, hall, empty]
    simp [get?]
  induction entries with
  | nil => exact fun m => rfl
  | cons head rest ih =>
    intro m
    rw [List.foldl_cons, ih, get?_insert, List.reverse_cons, List.lookup_append, Option.or_assoc]
    congr 1
    split
    · next hname => rw [hname, List.lookup_cons_self]; rfl
    · next hname => rw [lookup_cons_of_ne hname]; rfl

/-- No name is listed twice. -/
theorem nodup_names_ofList (entries : List (String × Entry κ)) : (ofList entries).names.Nodup := by
  suffices hall : ∀ m : Directory κ, m.names.Nodup →
      (entries.foldl (fun m entry => m.insert entry.1 entry.2) m).names.Nodup by
    exact hall empty List.nodup_nil
  induction entries with
  | nil => exact fun m h => h
  | cons head rest ih =>
    intro m h
    refine ih _ ?_
    rw [names_insert]
    split
    · exact h
    · next hnew => exact List.nodup_append.2 ⟨h, List.nodup_cons.2 ⟨List.not_mem_nil, .nil⟩,
        by rintro _ hmem _ hlast rfl; exact hnew (List.mem_singleton.1 hlast ▸ hmem)⟩

theorem place_of_not_mem {entries : List (String × Entry κ)} (h : name ∉ entries.map Prod.fst) :
    place name entry entries = entries ++ [(name, entry)] := by
  induction entries with
  | nil => rfl
  | cons head rest ih =>
    rw [List.map_cons, List.mem_cons, not_or] at h
    rw [place, if_neg (Ne.symm h.1), ih h.2, List.cons_append]

/-- Entries of distinct names are all kept, in their order. -/
theorem entries_ofList {entries : List (String × Entry κ)} (h : (entries.map Prod.fst).Nodup) :
    (ofList entries).entries = entries := by
  suffices hall : ∀ m : Directory κ, (m.names ++ entries.map Prod.fst).Nodup →
      (entries.foldl (fun m entry => m.insert entry.1 entry.2) m).entries
        = m.entries ++ entries from hall empty h
  clear h
  induction entries with
  | nil => exact fun m _ => (List.append_nil _).symm
  | cons head rest ih =>
    intro m h
    rw [List.map_cons, List.append_cons] at h
    have hnew : head.1 ∉ m.names := fun hmem =>
      (List.nodup_append.1 (List.nodup_append.1 h).1).2.2 _ hmem _ (List.mem_singleton.2 rfl) rfl
    have hplace : (m.insert head.1 head.2).entries = m.entries ++ [head] := place_of_not_mem hnew
    rw [List.foldl_cons, ih _ (by rw [names, hplace, List.map_append]; exact h), hplace,
      List.append_assoc, List.singleton_append]

end FormTree.Directory
