/-!
# Positions of keys

A map from keys to positions in a list. A key has one position at most: entering it again replaces
the position that it had.
-/

namespace EventModel

/-- The position of each key; of several entries of a key the first counts. -/
structure Positions (κ : Type) where
  entries : List (κ × Nat) := []

namespace Positions

variable {κ : Type}

def empty : Positions κ :=
  {}

variable [DecidableEq κ]

def get? (p : Positions κ) (key : κ) : Option Nat :=
  p.entries.lookup key

/-- Enters the position of a key. -/
def insert (p : Positions κ) (key : κ) (position : Nat) : Positions κ :=
  ⟨(key, position) :: p.entries⟩

/-- The positions of the keys of a list, entered from its first key to its last. -/
def ofList (keys : List κ) : Positions κ :=
  keys.zipIdx.foldl (fun p (key, position) => p.insert key position) empty

@[simp]
theorem get?_empty (key : κ) : (empty : Positions κ).get? key = none := rfl

theorem get?_insert (p : Positions κ) (key other : κ) (position : Nat) :
    (p.insert key position).get? other = if other = key then some position else p.get? other := by
  unfold get? insert
  rw [List.lookup_cons]
  by_cases h : other = key <;> simp [h, beq_false_of_ne]

end Positions

end EventModel
