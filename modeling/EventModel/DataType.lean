import EventModel.Column.RawBytes

/-!
# Data types

A `DataType` describes the objects of a collection: the shape of the payload, the shape of the
elements of the vector members, and the declared relations and members in order. A `Record` is the
flat form of one object: the payload, a window for each to-many relation and one for each member.
-/

namespace EventModel

/-- A declared relation and the name of the type that its targets have. -/
structure Relation where
  name : String
  target : String
  deriving DecidableEq, Repr, Inhabited

/-- The description of the objects of one type. -/
structure DataType where
  name : String
  payload : Shape
  /-- The shape of the elements of every vector member. -/
  element : Shape
  toMany : List Relation
  toOne : List Relation
  members : List String
  deriving DecidableEq, Repr, Inhabited

namespace DataType

/-- The number of windows in a record. -/
abbrev windows (t : DataType) : Nat :=
  t.toMany.length + t.members.length

/-- The number of columns of stored addresses: the to-many relations, then the to-one relations. -/
def relationColumns (t : DataType) : Nat :=
  t.toMany.length + t.toOne.length

/-- The shape of a record. -/
def record (t : DataType) : Shape :=
  .pair t.payload (.array t.windows .window)

/-- The number of bytes of a record. -/
def stride (t : DataType) : Nat :=
  t.record.stride

theorem stride_eq (t : DataType) : t.stride = t.payload.stride + t.windows * 8 := by
  simp [stride, record, Shape.stride, Nat.mul_comm]

end DataType

/-- The flat form of one object. -/
abbrev Record (t : DataType) : Type :=
  t.record.Value

namespace Record

/-- The fixed-size part of the object. -/
def payload (r : Record t) : t.payload.Value :=
  r.1

/-- The windows of the to-many relations, then those of the members. -/
def windows (r : Record t) : Vector Window t.windows :=
  r.2

/-- The records of a column that was made for type `t`. -/
def decodeAll (t : DataType) (raw : RawBytes) : Except Error (List (Record t)) :=
  if h : raw.stride = t.record.stride then .ok (raw.items t.record h)
  else .error (.corruptBuffer ("record stride " ++ toString raw.stride
    ++ " does not match layout stride " ++ toString t.stride))

end Record

end EventModel
