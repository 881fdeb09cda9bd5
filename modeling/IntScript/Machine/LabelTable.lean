/-!
# Label tables

Each label has at most one address. A new binding of a label takes the place of the old one; the
others keep their order. The view of a table is the function `find?`.
-/

namespace IntScript

structure LabelTable where
  entries : List (Int64 × Nat) := []
  deriving DecidableEq, Repr

namespace LabelTable

/-- The address bound to a label. -/
def find? (t : LabelTable) (label : Int64) : Option Nat :=
  t.entries.lookup label

/-- Replaces the entry for `label`, or adds one at the end. -/
def insertEntry (label : Int64) (address : Nat) : List (Int64 × Nat) → List (Int64 × Nat)
  | [] => [(label, address)]
  | entry :: rest =>
    if entry.1 = label then (label, address) :: rest else entry :: insertEntry label address rest

/-- Binds `label` to `address`. -/
def insert (t : LabelTable) (label : Int64) (address : Nat) : LabelTable :=
  ⟨insertEntry label address t.entries⟩

theorem lookup_insertEntry (label other : Int64) (address : Nat) (es : List (Int64 × Nat)) :
    (insertEntry label address es).lookup other =
      if other = label then some address else es.lookup other := by
  induction es with
  | nil =>
    by_cases h : other = label <;> simp [insertEntry, List.lookup_cons, beq_eq_false_iff_ne.2, h]
  | cons entry rest ih =>
    obtain ⟨key, value⟩ := entry
    by_cases hk : key = label
    · subst hk
      by_cases h : other = key <;> simp [insertEntry, List.lookup_cons, beq_eq_false_iff_ne.2, h]
    · rw [insertEntry, if_neg hk, List.lookup_cons, List.lookup_cons, ih]
      by_cases h : other = label
      · subst h
        simp [beq_eq_false_iff_ne.2 (Ne.symm hk)]
      · simp [h]

@[simp]
theorem find?_insert (t : LabelTable) (label other : Int64) (address : Nat) :
    (t.insert label address).find? other = if other = label then some address else t.find? other :=
  lookup_insertEntry label other address t.entries

theorem insertEntry_of_lookup {label : Int64} {address : Nat} {es : List (Int64 × Nat)}
    (h : es.lookup label = some address) : insertEntry label address es = es := by
  induction es with
  | nil => cases h
  | cons entry rest ih =>
    obtain ⟨key, value⟩ := entry
    by_cases hk : key = label
    · subst hk
      obtain rfl : value = address := by simpa [List.lookup_cons] using h
      simp [insertEntry]
    · rw [List.lookup_cons, beq_eq_false_iff_ne.2 (Ne.symm hk)] at h
      rw [insertEntry, if_neg hk, ih h]

/-- Binding a label to the address it already has changes nothing. -/
theorem insert_of_find? {t : LabelTable} {label : Int64} {address : Nat}
    (h : t.find? label = some address) : t.insert label address = t := by
  rw [insert, insertEntry_of_lookup h]

@[simp]
theorem find?_empty (label : Int64) : ({} : LabelTable).find? label = none := rfl

end LabelTable

end IntScript
