import EventModel.DataType

/-!
# The flat form of a collection

A normal collection is a column of records, one column of addresses for each relation and one column
of elements for each vector member. A subset collection has no records and one column of the
addresses of its objects.
-/

namespace EventModel

/-- The flat form of one collection and the name of its data type. -/
structure Buffers where
  type : String
  subset : Bool
  records : RawBytes
  relations : List RawBytes
  members : List RawBytes
  deriving DecidableEq, Inhabited

namespace Buffers

/-- The number of objects. -/
def size (b : Buffers) : Nat :=
  if b.subset then (b.relations.head?.map RawBytes.count).getD 0 else b.records.count

def isEmpty (b : Buffers) : Bool :=
  b.size == 0

/-- Refuses buffers of another type. -/
def expectType (b : Buffers) (t : DataType) : Except Error Unit :=
  if b.type = t.name then .ok () else .error (.typeMismatch t.name b.type)

/-- The records, read as records of type `t`. -/
def decodeRecords (b : Buffers) (t : DataType) : Except Error (List (Record t)) := do
  b.expectType t
  Record.decodeAll t b.records

/-- The addresses in one column. -/
def relationIds (b : Buffers) (column : Nat) : Except Error (List ObjectId) :=
  match b.relations[column]? with
  | none => .error (.outOfRange column b.relations.length)
  | some raw => raw.decode .objectId

/-- The text that shows the extent of every column. -/
def describe (b : Buffers) : String :=
  Text.structureText "CollectionBuffers"
    [("type_name", Text.quote b.type), ("subset", toString b.subset),
      ("record_array", b.records.describe),
      ("relation_id_arrays", Text.listText (b.relations.map RawBytes.describe)),
      ("vector_member_arrays", Text.listText (b.members.map RawBytes.describe))] true

end Buffers

end EventModel
