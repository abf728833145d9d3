/-!
# Queues of ids

A queue of ids holds each id at most once; only whether it is empty matters to the outside.
Entering reports whether the queue was empty before and is not now, leaving whether it was not empty
before and is now.  An id that is already in, or already out, changes nothing and reports nothing.
-/

namespace FormTree

/-- A set of ids, kept as a list without repeats. -/
structure IdQueue where
  members : List String
  nodup : members.Nodup := by simp

namespace IdQueue

/-- The queue that holds nothing. -/
def empty : IdQueue := ⟨[], by simp⟩

instance : Inhabited IdQueue := ⟨empty⟩

instance : Membership String IdQueue := ⟨fun q id => id ∈ q.members⟩

instance (id : String) (q : IdQueue) : Decidable (id ∈ q) :=
  inferInstanceAs (Decidable (id ∈ q.members))

/-- The number of ids. -/
def size (q : IdQueue) : Nat := q.members.length

/-- Put an id in; the answer says whether this ended the queue's being empty. -/
def insert (q : IdQueue) (id : String) : Bool × IdQueue :=
  if h : id ∈ q.members then (false, q)
  else (q.members.isEmpty, ⟨id :: q.members, List.nodup_cons.2 ⟨h, q.nodup⟩⟩)

/-- Take an id out; the answer says whether this emptied the queue. -/
def erase (q : IdQueue) (id : String) : Bool × IdQueue :=
  if id ∈ q.members then
    ((q.members.erase id).isEmpty, ⟨q.members.erase id, q.nodup.erase id⟩)
  else (false, q)

theorem mem_def {id : String} {q : IdQueue} : id ∈ q ↔ id ∈ q.members := Iff.rfl

@[simp] theorem not_mem_empty (id : String) : ¬ id ∈ empty := by simp [mem_def, empty]

theorem mem_insert {q : IdQueue} {id other : String} :
    other ∈ (q.insert id).2 ↔ other = id ∨ other ∈ q := by
  simp only [insert, mem_def]
  split
  · next h => exact ⟨.inr, fun h' => h'.elim (fun e => e ▸ h) fun h' => h'⟩
  · simp

theorem mem_erase {q : IdQueue} {id other : String} :
    other ∈ (q.erase id).2 ↔ other ≠ id ∧ other ∈ q := by
  simp only [erase, mem_def]
  split
  · exact q.nodup.mem_erase_iff
  · next h => exact ⟨fun h' => ⟨fun e => h (e ▸ h'), h'⟩, And.right⟩

theorem insert_fst {q : IdQueue} {id : String} : (q.insert id).1 = true ↔ q.members = [] := by
  simp only [insert]
  split
  · next h => simp only [Bool.false_eq_true, false_iff]; rintro h'; simp [h'] at h
  · simp

theorem erase_fst {q : IdQueue} {id : String} :
    (q.erase id).1 = true ↔ id ∈ q ∧ (q.erase id).2.members = [] := by
  simp only [erase, mem_def]
  split
  · next h => simp [h]
  · next h => simp [h]

end IdQueue

end FormTree
