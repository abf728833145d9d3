import FormTree.Data.Basic

/-!
# Replacing and taking out nodes

What `node?` reads after `replace?` and `erase?`.  A replacement is seen at its path and below; above
it, the lists on the way keep their lengths; a path that neither leads to it nor comes from it reads
what it read before.  Taking a list item out is replacing the list, so what holds of it follows.
-/

namespace FormTree.Data

variable {d d' value other : Data} {p q : Path} {index : Nat} {rest : Path}

@[simp] theorem replace?_nil (d value : Data) : d.replace? [] value = some value := by
  cases d <;> rfl

theorem replace?_cons : d.replace? (index :: rest) value = some d'
    ↔ ∃ xs child child', d = .list xs ∧ xs[index]? = some child
      ∧ child.replace? rest value = some child' ∧ d' = .list (xs.set index child') := by
  constructor
  · intro h
    cases d with
    | list xs =>
      rw [replace?] at h
      split at h
      · next child hchild =>
        obtain ⟨child', hreplace, rfl⟩ := Option.map_eq_some_iff.1 h
        exact ⟨xs, child, child', rfl, hchild, hreplace, rfl⟩
      · cases h
    | _ => cases h
  · rintro ⟨xs, child, child', rfl, hchild, hreplace, rfl⟩
    simp [replace?, hchild, hreplace]

theorem node?_cons_list (xs : List Data) :
    (list xs).node? (index :: rest) = xs[index]?.bind (node? · rest) := rfl

/-- The last step of a path leads to an item. -/
theorem node?_concat (h : d.node? p = some other) (index : Nat) :
    d.node? (p ++ [index]) = other.child? index := by
  rw [node?_append, h]
  cases hchild : other.child? index <;> simp [node?_cons, hchild]

/-- What has a last step before it is an item of a list. -/
theorem node?_concat_eq_some : d.node? (p ++ [index]) = some other
    ↔ ∃ items, d.node? p = some (.list items) ∧ items[index]? = some other := by
  constructor
  · intro h
    rw [node?_append] at h
    obtain ⟨found, hfound, hindex⟩ := Option.bind_eq_some_iff.1 h
    cases found with
    | list items => exact ⟨items, hfound, by simpa [node?_cons_list] using hindex⟩
    | _ => cases hindex
  · rintro ⟨items, hitems, hindex⟩
    rw [node?_concat hitems, child?_list, hindex]

theorem replace?_isSome (d value : Data) (p : Path) :
    (d.replace? p value).isSome = (d.node? p).isSome := by
  induction p generalizing d with
  | nil => simp
  | cons index rest ih =>
    cases d with
    | list xs =>
      rw [replace?, node?_cons_list]
      cases xs[index]? with
      | none => rfl
      | some child => simpa using ih child
    | _ => rfl

/-- Whatever can be read can be replaced. -/
theorem exists_replace? (h : d.node? p = some other) (value : Data) :
    ∃ d', d.replace? p value = some d' :=
  Option.isSome_iff_exists.1 (by rw [replace?_isSome, h]; rfl)

/-- A replacement further down is one of the node on the way. -/
theorem replace?_append (d value : Data) (p q : Path) : d.replace? (p ++ q) value
    = (d.node? p).bind fun child => (child.replace? q value).bind (d.replace? p ·) := by
  induction p generalizing d with
  | nil =>
    simp only [List.nil_append, node?_nil, Option.bind_some, replace?_nil]
    exact (Option.bind_fun_some _).symm
  | cons index rest ih =>
    cases d with
    | list xs =>
      simp only [List.cons_append, replace?, node?_cons_list]
      cases hchild : xs[index]? with
      | none => rfl
      | some child =>
        simp only [Option.bind_some, ih, Option.map_bind, Function.comp_def]
    | _ => rfl

/-! ## Reading after a replacement -/

theorem node?_replace?_append (h : d.replace? p value = some d') (q : Path) :
    d'.node? (p ++ q) = value.node? q := by
  induction p generalizing d d' with
  | nil =>
    rw [replace?_nil] at h
    cases h
    rfl
  | cons index rest ih =>
    obtain ⟨xs, child, child', rfl, hchild, hreplace, rfl⟩ := replace?_cons.1 h
    have hlt : index < xs.length := (List.getElem?_eq_some_iff.1 hchild).1
    rw [List.cons_append, node?_cons_list, List.getElem?_set_self hlt]
    exact ih hreplace

theorem node?_replace? (h : d.replace? p value = some d') : d'.node? p = some value := by
  simpa using node?_replace?_append h []

/-- Paths apart from the replaced one read what they read before. -/
theorem node?_replace?_apart (h : d.replace? p value = some d') (hbelow : ¬ p <+: q)
    (habove : ¬ q <+: p) : d'.node? q = d.node? q := by
  induction p generalizing d d' q with
  | nil => exact absurd List.nil_prefix hbelow
  | cons index rest ih =>
    obtain ⟨xs, child, child', rfl, hchild, hreplace, rfl⟩ := replace?_cons.1 h
    cases q with
    | nil => exact absurd List.nil_prefix habove
    | cons other q =>
      rw [node?_cons_list, node?_cons_list]
      by_cases hsame : index = other
      · subst hsame
        have hlt : index < xs.length := (List.getElem?_eq_some_iff.1 hchild).1
        rw [List.getElem?_set_self hlt, hchild]
        exact ih hreplace (fun hp => hbelow (List.prefix_cons_inj _ |>.2 hp))
          fun hq => habove (List.prefix_cons_inj _ |>.2 hq)
      · rw [List.getElem?_set_ne hsame]

/-- The lists on the way to a replaced node have another item in one place. -/
theorem node?_replace?_above (h : d.replace? (q ++ index :: rest) value = some d') :
    ∃ xs child, d.node? q = some (.list xs) ∧ d'.node? q = some (.list (xs.set index child)) := by
  rw [replace?_append] at h
  obtain ⟨between, hbetween, h⟩ := Option.bind_eq_some_iff.1 h
  obtain ⟨next, hnext, h⟩ := Option.bind_eq_some_iff.1 h
  obtain ⟨xs, _, child, rfl, -, -, rfl⟩ := replace?_cons.1 hnext
  exact ⟨xs, child, hbetween, node?_replace? h⟩

/-! ## Replacing twice -/

/-- Of two replacements at one path the second counts. -/
theorem replace?_replace? (h : d.replace? p value = some d') (other : Data) :
    d'.replace? p other = d.replace? p other := by
  induction p generalizing d d' with
  | nil => simp
  | cons index rest ih =>
    obtain ⟨xs, child, child', rfl, hchild, hreplace, rfl⟩ := replace?_cons.1 h
    have hlt : index < xs.length := (List.getElem?_eq_some_iff.1 hchild).1
    simp only [replace?, List.getElem?_set_self hlt, hchild, ih hreplace, List.set_set]

/-- Two replacements at paths that lead apart can be made in either order. -/
theorem replace?_comm {last : Data} (hbelow : ¬ p <+: q) (habove : ¬ q <+: p)
    (h : d.replace? p value = some d') (h' : d'.replace? q other = some last) :
    ∃ between, d.replace? q other = some between ∧ between.replace? p value = some last := by
  induction p generalizing d d' q last with
  | nil => exact absurd List.nil_prefix hbelow
  | cons index rest ih =>
    obtain ⟨xs, child, child', rfl, hchild, hreplace, rfl⟩ := replace?_cons.1 h
    have hlt : index < xs.length := (List.getElem?_eq_some_iff.1 hchild).1
    cases q with
    | nil => exact absurd List.nil_prefix habove
    | cons index' rest' =>
      obtain ⟨_, found, found', ⟨⟩, hfound, hreplace', rfl⟩ := replace?_cons.1 h'
      by_cases hsame : index = index'
      · -- both paths lead into one item
        subst hsame
        obtain rfl : child' = found := by
          simpa only [List.getElem?_set_self hlt, Option.some.injEq] using hfound
        obtain ⟨between, hother, hvalue⟩ := ih
          (fun hp => hbelow ((List.prefix_cons_inj _).2 hp))
          (fun hq => habove ((List.prefix_cons_inj _).2 hq)) hreplace hreplace'
        refine ⟨_, replace?_cons.2 ⟨xs, child, between, rfl, hchild, hother, rfl⟩,
          replace?_cons.2 ⟨_, between, found', rfl, List.getElem?_set_self hlt, hvalue, ?_⟩⟩
        rw [List.set_set, List.set_set]
      · rw [List.getElem?_set_ne hsame] at hfound
        refine ⟨_, replace?_cons.2 ⟨xs, found, found', rfl, hfound, hreplace', rfl⟩,
          replace?_cons.2 ⟨_, child, child', rfl, ?_, hreplace, ?_⟩⟩
        · rw [List.getElem?_set_ne (Ne.symm hsame), hchild]
        · rw [List.set_comm _ _ hsame]

/-- Replacing a node by itself changes nothing. -/
theorem replace?_self (h : d.node? p = some value) : d.replace? p value = some d := by
  induction p generalizing d with
  | nil =>
    rw [node?_nil] at h
    rw [replace?_nil, h]
  | cons index rest ih =>
    cases d with
    | list xs =>
      rw [node?_cons_list] at h
      obtain ⟨child, hchild, hvalue⟩ := Option.bind_eq_some_iff.1 h
      obtain ⟨hlt, hget⟩ := List.getElem?_eq_some_iff.1 hchild
      simp only [replace?, hchild, ih hvalue, Option.map_some]
      rw [← hget, List.set_getElem_self]
    | _ => cases h

/-! ## Taking out -/

/-- Taking an item out is replacing the list by the other items. -/
theorem erase?_concat : d.erase? (p ++ [index]) = some d'
    ↔ ∃ items, d.node? p = some (.list items) ∧ index < items.length
      ∧ d.replace? p (.list (items.eraseIdx index)) = some d' := by
  have hparts : d.erase? (p ++ [index]) = (d.node? p).bind fun found =>
      found.toList?.bind fun items =>
        if index < items.length then d.replace? p (.list (items.eraseIdx index)) else none := by
    simp [erase?]
  rw [hparts, Option.bind_eq_some_iff]
  constructor
  · rintro ⟨found, hfound, herase⟩
    obtain ⟨items, hitems, hreplace⟩ := Option.bind_eq_some_iff.1 herase
    cases found <;> cases hitems
    split at hreplace
    · next hlt => exact ⟨items, hfound, hlt, hreplace⟩
    · cases hreplace
  · rintro ⟨items, hfound, hlt, h⟩
    exact ⟨_, hfound, by simpa [toList?, hlt] using h⟩

theorem erase?_nil (d : Data) : d.erase? [] = none := rfl

/-- Taking an item out of a list further down is replacing the node on the way. -/
theorem erase?_append {child child' : Data} (hchild : d.node? p = some child)
    (herase : child.erase? (q ++ [index]) = some child') (hreplace : d.replace? p child' = some d') :
    d.erase? (p ++ (q ++ [index])) = some d' := by
  obtain ⟨items, hitems, hlt, hbelow⟩ := erase?_concat.1 herase
  rw [← List.append_assoc, erase?_concat]
  refine ⟨items, ?_, hlt, ?_⟩
  · rw [node?_append, hchild]
    exact hitems
  · rw [replace?_append, hchild, Option.bind_some, hbelow, Option.bind_some, hreplace]

end FormTree.Data
