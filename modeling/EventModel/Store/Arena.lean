/-!
# Arenas

An arena keeps values under keys that it hands out one after the other. The key of a value that was
erased is never used again, so a key names the same value for ever.
-/

namespace EventModel

/-- The values by their keys; the place of a value that was erased stays empty. -/
structure Arena (α : Type u) where
  slots : Array (Option α) := #[]

namespace Arena

def empty : Arena α :=
  {}

/-- The key that the next value gets. -/
def next (a : Arena α) : Nat :=
  a.slots.size

def get? (a : Arena α) (key : Nat) : Option α :=
  a.slots[key]?.join

/-- Adds a value under the key `next`. -/
def insert (a : Arena α) (x : α) : Arena α :=
  ⟨a.slots.push (some x)⟩

/-- Changes the value under a key, if there is one. -/
def modify (a : Arena α) (key : Nat) (f : α → α) : Arena α :=
  ⟨a.slots.modify key (Option.map f)⟩

def erase (a : Arena α) (key : Nat) : Arena α :=
  ⟨a.slots.modify key fun _ => none⟩

/-- Some value satisfies `p`. -/
def any (a : Arena α) (p : α → Bool) : Bool :=
  a.slots.any fun
    | some x => p x
    | none => false

/-- The number of values that satisfy `p`. -/
def countP (a : Arena α) (p : α → Bool) : Nat :=
  a.slots.countP fun
    | some x => p x
    | none => false

@[simp]
theorem get?_empty (key : Nat) : (empty : Arena α).get? key = none := by
  simp [get?, empty]

theorem get?_eq_none_of_next_le {a : Arena α} {key : Nat} (h : a.next ≤ key) :
    a.get? key = none := by
  have hnone : a.slots[key]? = none := Array.getElem?_eq_none h
  simp [get?, hnone]

theorem lt_next_of_get? {a : Arena α} {key : Nat} {x : α} (h : a.get? key = some x) :
    key < a.next := by
  apply Nat.lt_of_not_le
  intro hle
  rw [get?_eq_none_of_next_le hle] at h
  cases h

theorem get?_insert (a : Arena α) (x : α) (key : Nat) :
    (a.insert x).get? key = if key = a.next then some x else a.get? key := by
  simp only [get?, insert, next, Array.getElem?_push]
  by_cases h : key = a.slots.size <;> simp [h]

@[simp]
theorem next_insert (a : Arena α) (x : α) : (a.insert x).next = a.next + 1 := by
  simp [next, insert]

theorem get?_modify (a : Arena α) (key : Nat) (f : α → α) (other : Nat) :
    (a.modify key f).get? other = if key = other then (a.get? other).map f else a.get? other := by
  simp only [get?, modify, Array.getElem?_modify]
  split
  · cases a.slots[other]? <;> rfl
  · rfl

@[simp]
theorem next_modify (a : Arena α) (key : Nat) (f : α → α) : (a.modify key f).next = a.next := by
  simp [next, modify]

theorem get?_erase (a : Arena α) (key other : Nat) :
    (a.erase key).get? other = if key = other then none else a.get? other := by
  simp only [get?, erase, Array.getElem?_modify]
  split
  · cases a.slots[other]? <;> rfl
  · rfl

@[simp]
theorem next_erase (a : Arena α) (key : Nat) : (a.erase key).next = a.next := by
  simp [next, erase]

end Arena

end EventModel
