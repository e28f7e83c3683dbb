import EventModel.Error

/-!
# The names and numbers of the collections of a frame

An `IdTable` keeps pairs of a name and a number in the order of their registration. A new name gets
the next number; a table rebuilt from its pairs continues where it stopped.
-/

namespace EventModel

/-- Names with their numbers, in the order of their registration. -/
structure IdTable where
  pairs : List (String × CollectionId)
  /-- The number that the next new name gets. -/
  next : UInt32
  deriving DecidableEq, Repr

namespace IdTable

/-- Numbers are handed out from one. -/
def empty : IdTable :=
  ⟨[], 1⟩

instance : Inhabited IdTable := ⟨empty⟩

/-- The number of a name. -/
def id? (t : IdTable) (name : String) : Option CollectionId :=
  t.pairs.lookup name

/-- The name that was registered last with a number. -/
def name? (t : IdTable) (id : CollectionId) : Option String :=
  (t.pairs.reverse.find? (·.2 == id)).map (·.1)

def contains (t : IdTable) (name : String) : Bool :=
  (t.id? name).isSome

def names (t : IdTable) : List String :=
  t.pairs.map (·.1)

def size (t : IdTable) : Nat :=
  t.pairs.length

def isEmpty (t : IdTable) : Bool :=
  t.pairs.isEmpty

/-- The number after `n`, which must fit its word. -/
def increment (n : UInt32) : Except Error UInt32 :=
  if n.toNat + 1 < 2 ^ 32 then .ok (n + 1) else .error .overflow

/-- The number of `name`, which is registered if it is new. A new name needs a number that has one
after it, so the invalid number is never given to a name. -/
def add (t : IdTable) (name : String) : Except Error (CollectionId × IdTable) :=
  match t.id? name with
  | some id => .ok (id, t)
  | none => do
    let next ← increment t.next
    return (⟨t.next⟩, ⟨t.pairs ++ [(name, ⟨t.next⟩)], next⟩)

/-- The number after `id`; the largest number has none and stays. -/
def successor (id : CollectionId) : UInt32 :=
  if id = .invalid then id.val else id.val + 1

/-- Takes up one stored pair. -/
def insertPair (t : IdTable) (pair : String × CollectionId) : Except Error IdTable :=
  let (name, id) := pair
  if !id.isValid then
    .error (.corruptBuffer ("collection \x60" ++ name ++ "\x60 has an invalid id"))
  else if t.contains name || (t.name? id).isSome then
    .error (.corruptBuffer ("duplicate id table entry \x60" ++ name ++ "\x60 -> " ++ id.text))
  else
    .ok ⟨t.pairs ++ [pair], max t.next (successor id)⟩

/-- The table that holds stored pairs. Names and numbers must be distinct and the numbers valid. -/
def ofPairs (pairs : List (String × CollectionId)) : Except Error IdTable :=
  pairs.foldlM insertPair empty

end IdTable

end EventModel
