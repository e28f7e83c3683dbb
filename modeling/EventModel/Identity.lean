import EventModel.Prelude

/-!
# Identities of collections and objects

A collection has a number that is unique in its frame. An object is addressed by its position in the
collection that owns it, together with the number of that collection.
-/

namespace EventModel

/-- The number of a collection. -/
structure CollectionId where
  val : UInt32
  deriving DecidableEq, Repr, Inhabited

namespace CollectionId

/-- The number of a collection that belongs to no frame. -/
def invalid : CollectionId :=
  ⟨0xffffffff⟩

def isValid (c : CollectionId) : Bool :=
  c != invalid

def text (c : CollectionId) : String :=
  if c.isValid then "col:" ++ toString c.val.toNat else "col:-"

/-- The text that shows the number as a field of another value. -/
def describe (c : CollectionId) : String :=
  "CollectionId(" ++ toString c.val.toNat ++ ")"

end CollectionId

/-- The address of an object. -/
structure ObjectId where
  index : Int64
  collection : CollectionId
  deriving DecidableEq, Repr, Inhabited

namespace ObjectId

/-- The index of an object that no collection owns; it differs from every position. -/
def untrackedIndex : Int64 :=
  Int64.minValue

/-- The address of an object that no collection owns, and of an unset relation. -/
def untracked : ObjectId :=
  ⟨untrackedIndex, .invalid⟩

/-- The address of the object at a position; a position too large for an index is cut to the
largest one. -/
def ofPosition (position : Nat) (collection : CollectionId) : ObjectId :=
  ⟨if position < 2 ^ 63 then Int64.ofNat position else Int64.maxValue, collection⟩

def isUntracked (id : ObjectId) : Bool :=
  id.index == untrackedIndex

/-- The index as a position, if it is one. -/
def position? (id : ObjectId) : Option Nat :=
  if id.index.toInt < 0 then none else some id.index.toInt.toNat

def text (id : ObjectId) : String :=
  if id.isUntracked then "untracked"
  else id.collection.text ++ "#" ++ toString id.index.toInt

/-- The text that shows the address as a value. -/
def describe (id : ObjectId) : String :=
  "ObjectID(" ++ id.text ++ ")"

/-- Addresses are ordered by index and then by collection. -/
def le (a b : ObjectId) : Bool :=
  a.index < b.index || (a.index == b.index && a.collection.val ≤ b.collection.val)

/-- The untracked address is recognised as such. -/
@[simp]
theorem isUntracked_untracked : untracked.isUntracked = true := rfl

end ObjectId

end EventModel
