import FormTree.Proofs.Data.Arrangement
import Mathlib.Data.List.Nodup
import Mathlib.Data.List.Perm.Subperm

/-!
# Form data and JSON stand for each other

Plain JSON forgets the order in which the entries of a map came, and equality of form data does not
look at it.  Nothing else is lost: `toJson_ofJson` and `ofJson_toJson_same` are the two round trips,
and `toJson_same` says that data are equal exactly if their JSON is.

Maps are compared by looking up keys, objects one member after the other.  Both come down to
`Fields.Matched`, which knows entries by membership alone: of maps because their keys are distinct
(`Data.same_map`), of objects because they increase (`Json.same_object`).  And an object has the
entries of the map that it was made from, in another order.
-/

namespace FormTree

/-! ## Entries under distinct keys -/

namespace Fields

variable {α β : Type} {key : String} {value : α} {entries others : Fields α}

/-- Every entry has a related value under its key among the others. -/
def Matched (r : α → β → Bool) (entries : Fields α) (others : Fields β) : Prop :=
  ∀ entry ∈ entries, ∃ value, (entry.1, value) ∈ others ∧ r entry.2 value = true

theorem pairwise_keys (h : Increasing entries) : (entries.map Prod.fst).Pairwise (· < ·) :=
  List.pairwise_map.2 h

theorem nodup_keys (h : Increasing entries) : (entries.map Prod.fst).Nodup :=
  (pairwise_keys h).imp Std.ne_of_lt

/-- Under distinct keys a lookup finds what is there. -/
theorem lookup_eq_some_iff (h : (entries.map Prod.fst).Nodup) :
    entries.lookup key = some value ↔ (key, value) ∈ entries := by
  constructor
  · intro hlookup
    obtain ⟨before, behind, rfl, -⟩ := List.lookup_eq_some_iff.1 hlookup
    simp
  · intro hmem
    obtain ⟨before, behind, rfl⟩ := List.append_of_mem hmem
    refine List.lookup_eq_some_iff.2 ⟨before, behind, rfl, fun entry hentry => ?_⟩
    rw [List.map_append, List.map_cons] at h
    have hne := (List.nodup_append.1 h).2.2 _ (List.mem_map_of_mem hentry) _ List.mem_cons_self
    simpa using hne.symm

/-- A new key is put in somewhere. -/
theorem insert_perm (h : key ∉ entries.map Prod.fst) :
    (entries.insert key value).Perm ((key, value) :: entries) := by
  induction entries with
  | nil => exact List.Perm.refl _
  | cons first rest ih =>
    rw [List.map_cons, List.mem_cons, not_or] at h
    rw [insert, if_neg (Ne.symm h.1)]
    split
    · exact List.Perm.refl _
    · exact ((ih h.2).cons first).trans (List.Perm.swap _ _ _)

/-- Entries with distinct keys are all kept, in the order of keys. -/
theorem ofList_perm (h : (entries.map Prod.fst).Nodup) : (ofList entries).Perm entries := by
  suffices hfold : ∀ fields : Fields α, ((entries ++ fields).map Prod.fst).Nodup →
      (entries.foldl (fun fields entry => fields.insert entry.1 entry.2) fields).Perm
        (entries ++ fields) by
    simpa [ofList] using hfold [] (by simpa using h)
  clear h
  induction entries with
  | nil => exact fun fields _ => List.Perm.refl _
  | cons first rest ih =>
    intro fields h
    -- the first key is not among those that are there
    have hmiddle : (rest ++ first :: fields).Perm (first :: rest ++ fields) := List.perm_middle
    have hkeys := (hmiddle.map Prod.fst).nodup_iff.2 h
    have hnew : first.1 ∉ fields.map Prod.fst := by
      rw [List.map_append, List.map_cons] at hkeys
      exact (List.nodup_cons.1 (List.nodup_append.1 hkeys).2.1).1
    have hfirst : (fields.insert first.1 first.2).Perm (first :: fields) := insert_perm hnew
    have hinsert := hfirst.append_left rest
    exact (ih _ ((hinsert.map Prod.fst).nodup_iff.2 hkeys)).trans (hinsert.trans hmiddle)

variable {r : α → β → Bool}

/-- The order of the entries plays no part. -/
theorem matched_perm {entries' : Fields α} {others others' : Fields β}
    (hentries : entries.Perm entries') (hothers : others.Perm others') :
    Matched r entries others ↔ Matched r entries' others' := by
  simp only [Matched, hentries.mem_iff, hothers.mem_iff]

/-- Entries that increase are matched by as many others only if these have the same keys. -/
theorem keys_eq_of_matched {others : Fields β} (hentries : Increasing entries)
    (hothers : Increasing others) (hlength : entries.length = others.length)
    (h : Matched r entries others) : entries.map Prod.fst = others.map Prod.fst := by
  have hsubset : entries.map Prod.fst ⊆ others.map Prod.fst := by
    intro key hkey
    obtain ⟨entry, hentry, rfl⟩ := List.mem_map.1 hkey
    obtain ⟨value, hvalue, -⟩ := h entry hentry
    exact List.mem_map_of_mem hvalue
  have hperm : (entries.map Prod.fst).Perm (others.map Prod.fst) :=
    (List.subperm_of_subset (nodup_keys hentries) hsubset).perm_of_length_le (by simp [hlength])
  refine hperm.eq_of_pairwise ?_ (pairwise_keys hentries) (pairwise_keys hothers)
  exact fun _ _ _ _ hlt hgt => absurd hgt (String.lt_asymm hlt)

/-- Entries with the same keys as others match them one after the other. -/
theorem matched_cons {entry : String × α} {other : String × β} {others : Fields β}
    (hkey : entry.1 = other.1) (hnew : other.1 ∉ others.map Prod.fst)
    (hkeys : entries.map Prod.fst = others.map Prod.fst) :
    Matched r (entry :: entries) (other :: others)
      ↔ r entry.2 other.2 = true ∧ Matched r entries others := by
  rw [Matched, List.forall_mem_cons]
  refine and_congr ⟨?_, fun h => ⟨other.2, by rw [hkey]; exact List.mem_cons_self, h⟩⟩
    (forall₂_congr fun later hlater => exists_congr fun value => and_congr_left fun _ => ?_)
  · rintro ⟨value, hvalue, hrelated⟩
    rcases List.mem_cons.1 hvalue with rfl | hothers
    · exact hrelated
    · exact absurd (hkey ▸ List.mem_map_of_mem hothers) hnew
  · have hne : later.1 ≠ other.1 := by
      intro heq
      exact hnew (heq ▸ hkeys ▸ List.mem_map_of_mem hlater)
    rw [List.mem_cons, or_iff_right fun heq => hne (congrArg Prod.fst heq)]

end Fields

/-! ## Equality of JSON values -/

namespace Json

variable {fields others : List (String × Json)}

mutual

@[simp] theorem same_refl (json : Json) : json.same json = true := by
  cases json with
  | array items => rw [same, sameItems_refl]
  | object fields => rw [same, sameFields_refl]
  | _ => simp [same]

theorem sameItems_refl (items : List Json) : sameItems items items = true := by
  cases items with
  | nil => rfl
  | cons item rest => simp [sameItems, same_refl item, sameItems_refl rest]

theorem sameFields_refl (fields : List (String × Json)) : sameFields fields fields = true := by
  cases fields with
  | nil => rfl
  | cons entry rest => simp [sameFields, same_refl entry.2, sameFields_refl rest]

end

/-- Members are equal one after the other if their keys are and each has an equal value. -/
theorem sameFields_iff (h : (others.map Prod.fst).Nodup) : sameFields fields others = true
    ↔ fields.map Prod.fst = others.map Prod.fst ∧ Fields.Matched same fields others := by
  induction fields generalizing others with
  | nil => cases others <;> simp [sameFields, Fields.Matched]
  | cons entry rest ih =>
    cases others with
    | nil => simp [sameFields]
    | cons other others =>
      obtain ⟨hnew, hnodup⟩ := List.nodup_cons.1 h
      rw [sameFields, Bool.and_eq_true, Bool.and_eq_true, beq_iff_eq, ih hnodup, List.map_cons,
        List.map_cons, List.cons.injEq]
      constructor
      · rintro ⟨⟨hkey, hvalue⟩, hkeys, hrest⟩
        exact ⟨⟨hkey, hkeys⟩, (Fields.matched_cons hkey hnew hkeys).2 ⟨hvalue, hrest⟩⟩
      · rintro ⟨⟨hkey, hkeys⟩, hmatched⟩
        obtain ⟨hvalue, hrest⟩ := (Fields.matched_cons hkey hnew hkeys).1 hmatched
        exact ⟨⟨hkey, hvalue⟩, hkeys, hrest⟩

/-- Objects are equal if they have as many members and each has an equal value under its key. -/
theorem same_object (hfields : Fields.Increasing fields) (hothers : Fields.Increasing others) :
    (object fields).same (object others) = true
      ↔ fields.length = others.length ∧ Fields.Matched same fields others := by
  rw [same, sameFields_iff (Fields.nodup_keys hothers)]
  refine and_congr_left fun hmatched => ⟨fun hkeys => ?_, fun hlength => ?_⟩
  · simpa using congrArg List.length hkeys
  · exact Fields.keys_eq_of_matched hfields hothers hlength hmatched

end Json

namespace Data

/-! ## To form data and back -/

mutual

/-- Nothing is put in another order on the way to form data. -/
theorem listed_ofJson (json : Json) : (ofJson json).listed = json := by
  cases json with
  | array items => rw [ofJson, listed, listedItems_ofJson]
  | object fields => rw [ofJson, listed, listedEntries_ofJson]
  | _ => rfl

theorem listedItems_ofJson (items : List Json) : listedItems (ofJsonItems items) = items := by
  cases items with
  | nil => rfl
  | cons item rest => rw [ofJsonItems, listedItems, listed_ofJson item, listedItems_ofJson rest]

theorem listedEntries_ofJson (fields : List (String × Json)) :
    listedEntries (ofJsonFields fields) = fields := by
  cases fields with
  | nil => rfl
  | cons entry rest =>
    rw [ofJsonFields, listedEntries, listed_ofJson entry.2, listedEntries_ofJson rest]

end

/-- JSON comes back from form data as it was. -/
theorem toJson_ofJson {json : Json} (h : json.Ordered) : (ofJson json).toJson = json := by
  rw [toJson_eq_arranged, listed_ofJson, Json.arranged_of_ordered h]

theorem ordered_toJson (d : Data) : d.toJson.Ordered :=
  toJson_eq_arranged d ▸ Json.ordered_arranged _

theorem toJsonEntries_eq_map (entries : List (String × Data)) :
    toJsonEntries entries = entries.map fun entry => (entry.1, entry.2.toJson) := by
  induction entries with
  | nil => rfl
  | cons entry rest ih => rw [toJsonEntries, ih, List.map_cons]

theorem map_fst_ofJsonFields (fields : List (String × Json)) :
    (ofJsonFields fields).map Prod.fst = fields.map Prod.fst := by
  induction fields with
  | nil => rfl
  | cons entry rest ih => rw [ofJsonFields, List.map_cons, List.map_cons, ih]

mutual

/-- Keys that increase are distinct. -/
theorem distinct_ofJson {json : Json} (h : json.Ordered) : (ofJson json).Distinct := by
  cases json with
  | array items => exact distinctItems_ofJson h
  | object fields =>
    refine ⟨?_, distinctEntries_ofJson h.2⟩
    rw [map_fst_ofJsonFields]
    exact Fields.nodup_keys h.1
  | _ => trivial

theorem distinctItems_ofJson {items : List Json} (h : Json.OrderedItems items) :
    DistinctItems (ofJsonItems items) := by
  cases items with
  | nil => trivial
  | cons item rest => exact ⟨distinct_ofJson h.1, distinctItems_ofJson h.2⟩

theorem distinctEntries_ofJson {fields : List (String × Json)} (h : Json.OrderedFields fields) :
    DistinctEntries (ofJsonFields fields) := by
  cases fields with
  | nil => trivial
  | cons entry rest => exact ⟨distinct_ofJson h.1, distinctEntries_ofJson h.2⟩

end

/-! ## Equality of form data and of their JSON -/

theorem sameEntries_iff {xs ys : List (String × Data)} (h : (ys.map Prod.fst).Nodup) :
    sameEntries xs ys = true ↔ Fields.Matched same xs ys := by
  induction xs with
  | nil => simp [sameEntries, Fields.Matched]
  | cons entry rest ih =>
    rw [sameEntries, Bool.and_eq_true, ih, Fields.Matched, Fields.Matched, List.forall_mem_cons]
    refine and_congr_left fun _ => ?_
    simp only [← Fields.lookup_eq_some_iff h]
    cases ys.lookup entry.1 <;> simp

/-- Maps are equal if they have as many entries and each has an equal value under its key. -/
theorem same_map {xs ys : List (String × Data)} (h : (ys.map Prod.fst).Nodup) :
    (map xs).same (map ys) = true ↔ xs.length = ys.length ∧ Fields.Matched same xs ys := by
  rw [same, Bool.and_eq_true, beq_iff_eq, sameEntries_iff h]

theorem distinctEntries_iff {entries : List (String × Data)} :
    DistinctEntries entries ↔ ∀ entry ∈ entries, entry.2.Distinct := by
  induction entries with
  | nil => simp [DistinctEntries]
  | cons entry rest ih => rw [List.forall_mem_cons, ← ih, DistinctEntries]

/-- The members of an object are the entries of the map. -/
theorem ofList_toJsonEntries_perm {entries : List (String × Data)}
    (h : (entries.map Prod.fst).Nodup) :
    (Fields.ofList (toJsonEntries entries)).Perm (toJsonEntries entries) :=
  Fields.ofList_perm (by rwa [toJsonEntries_eq_map, List.map_map])

mutual

/-- Data are equal exactly if their JSON is. -/
theorem toJson_same {d e : Data} (hd : d.Distinct) (he : e.Distinct) :
    d.toJson.same e.toJson = d.same e := by
  cases d with
  | list xs =>
    cases e with
    | list ys => exact toJsonItems_same hd he
    | _ => rfl
  | map xs =>
    cases e with
    | map ys =>
      have hxs := ofList_toJsonEntries_perm hd.1
      have hys := ofList_toJsonEntries_perm he.1
      rw [toJson, toJson, Json.ofFields, Json.ofFields, Bool.eq_iff_iff, same_map he.1,
        Json.same_object (Fields.increasing_ofList _) (Fields.increasing_ofList _),
        Fields.matched_perm hxs hys, matched_toJsonEntries hd.2 he.2, hxs.length_eq,
        hys.length_eq, toJsonEntries_eq_map, toJsonEntries_eq_map, List.length_map, List.length_map]
    | _ => rfl
  | _ => cases e <;> rfl

theorem toJsonItems_same {xs ys : List Data} (hxs : DistinctItems xs) (hys : DistinctItems ys) :
    Json.sameItems (toJsonItems xs) (toJsonItems ys) = sameItems xs ys := by
  cases xs with
  | nil => cases ys <;> rfl
  | cons x xs =>
    cases ys with
    | nil => rfl
    | cons y ys =>
      rw [toJsonItems, toJsonItems, Json.sameItems, sameItems, toJson_same hxs.1 hys.1,
        toJsonItems_same hxs.2 hys.2]

theorem matched_toJsonEntries {xs ys : List (String × Data)} (hxs : DistinctEntries xs)
    (hys : DistinctEntries ys) :
    Fields.Matched Json.same (toJsonEntries xs) (toJsonEntries ys) ↔ Fields.Matched same xs ys := by
  cases xs with
  | nil => simp [toJsonEntries, Fields.Matched]
  | cons entry rest =>
    have hrest := matched_toJsonEntries hxs.2 hys
    have hentry (y : Data) (hy : (entry.1, y) ∈ ys) :
        entry.2.toJson.same y.toJson = entry.2.same y :=
      toJson_same hxs.1 (distinctEntries_iff.1 hys _ hy)
    rw [Fields.Matched, Fields.Matched, toJsonEntries, List.forall_mem_cons, List.forall_mem_cons]
    refine and_congr ⟨?_, ?_⟩ hrest
    · rintro ⟨value, hvalue, hsame⟩
      rw [toJsonEntries_eq_map] at hvalue
      obtain ⟨⟨key, y⟩, hy, heq⟩ := List.mem_map.1 hvalue
      obtain ⟨rfl, rfl⟩ := Prod.mk.inj heq
      exact ⟨y, hy, hentry y hy ▸ hsame⟩
    · rintro ⟨y, hy, hsame⟩
      refine ⟨y.toJson, ?_, (hentry y hy).trans hsame⟩
      rw [toJsonEntries_eq_map]
      exact List.mem_map.2 ⟨_, hy, rfl⟩

end

/-- Form data come back from JSON as they were, but for the order of their maps. -/
theorem ofJson_toJson_same {d : Data} (h : d.Distinct) : (ofJson d.toJson).same d = true := by
  have hordered := ordered_toJson d
  rw [← toJson_same (distinct_ofJson hordered) h, toJson_ofJson hordered, Json.same_refl]

/-- A JSON value comes back from form data as it was, and form data come back from JSON as they were,
whatever the order of their maps.  Data are equal exactly if their JSON is, so that the way to JSON
and back neither loses nor merges values.  Keys that increase become distinct ones, and the other way
round. -/
theorem json_interchange {json : Json} {d e : Data} (hjson : json.Ordered) (hd : d.Distinct)
    (he : e.Distinct) :
    ((ofJson json).Distinct ∧ (ofJson json).toJson = json)
    ∧ (d.toJson.Ordered ∧ (ofJson d.toJson).same d = true)
    ∧ d.toJson.same e.toJson = d.same e
    ∧ (ofJson d.toJson).same (ofJson e.toJson) = d.same e := by
  have hback : (ofJson d.toJson).same (ofJson e.toJson) = d.toJson.same e.toJson := by
    rw [← toJson_same (distinct_ofJson (ordered_toJson d)) (distinct_ofJson (ordered_toJson e)),
      toJson_ofJson (ordered_toJson d), toJson_ofJson (ordered_toJson e)]
  have hsame := toJson_same hd he
  exact ⟨⟨distinct_ofJson hjson, toJson_ofJson hjson⟩, ⟨ordered_toJson d, ofJson_toJson_same hd⟩,
    hsame, hback.trans hsame⟩

namespace Sizes

/-- A map inside a list inside a map, in no order of keys. -/
def inserted : Data := .map [("width", .list [.number (.double (Binary64.zero true)),
  .map [("y", .bool true), ("x", .null)]]), ("name", .string "shelf")]

/-- The same in the order of keys, and with the other zero. -/
def sorted : Data := .map [("name", .string "shelf"), ("width", .list
  [.number (.double (Binary64.zero false)), .map [("x", .null), ("y", .bool true)]])]

/-- An object inside an array inside an object. -/
def json : Json := .object [("name", .string "shelf"), ("width", .array
  [.number (.double (Binary64.zero true)), .object [("x", .null), ("y", .bool true)]])]

end Sizes

open Sizes in
theorem json_interchange_rearranged : json.Ordered ∧ inserted.Distinct ∧ sorted.Distinct
    ∧ (ofJson json).toJson = json ∧ inserted.toJson = json ∧ (ofJson json).same inserted = true
    ∧ inserted.toJson.same sorted.toJson = true ∧ inserted.same sorted = true := by
  have hjson : json.Ordered := Json.arranged_eq_iff.1 rfl
  have hinserted : inserted.Distinct := by
    simp [inserted, Distinct, DistinctItems, DistinctEntries]
  have hsorted : sorted.Distinct := by
    simp [sorted, Distinct, DistinctItems, DistinctEntries]
  have hsame : inserted.same sorted = true := by decide
  have htoJson : inserted.toJson = json := rfl
  obtain ⟨⟨-, hround⟩, ⟨-, hback⟩, hequal, -⟩ := json_interchange hjson hinserted hsorted
  rw [htoJson] at hback
  exact ⟨hjson, hinserted, hsorted, hround, htoJson, hback, hequal.trans hsame, hsame⟩

end Data

end FormTree
