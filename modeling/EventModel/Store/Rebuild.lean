import EventModel.Store.Flatten

/-!
# Rebuilding a collection

`rebuild` makes a collection from buffers. Its objects get their payloads and members at once; their
relations stay windows into columns of stored addresses until they are resolved.
-/

namespace EventModel

/-- The windows of one column, in record order, must cover it from its first element to its last. -/
def checkPartition (type : String) (column : Nat) (windows : List Window) (len : Nat) :
    Except Error Unit :=
  go 0 0 windows
where
  go (position expected : Nat) : List Window → Except Error Unit
    | [] =>
      if expected = len then .ok ()
      else .error (.corruptBuffer ("ranges of " ++ type ++ " column " ++ toString column
        ++ " cover " ++ toString expected ++ " of " ++ toString len ++ " elements"))
    | w :: rest =>
      if w.start.toNat = expected ∧ w.start ≤ w.stop then go (position + 1) w.stop.toNat rest
      else .error (.corruptBuffer (type ++ "[" ++ toString position ++ "] range " ++ toString column
        ++ " is " ++ toString w.start.toNat ++ ".." ++ toString w.stop.toNat
        ++ ", expected to start at " ++ toString expected))

/-- The contents of the buffers of a normal collection of type `t`. -/
structure Contents (t : DataType) where
  records : List (Record t)
  toMany : Vector (List ObjectId) t.toMany.length
  toOne : Vector (List ObjectId) t.toOne.length
  members : Vector (List t.element.Value) t.members.length

namespace Contents

/-- The window of a record into the column of a relation. -/
def relationWindow (r : Record t) (i : Fin t.toMany.length) : Window :=
  r.windows.get ⟨i, Nat.lt_of_lt_of_le i.isLt (Nat.le_add_right _ _)⟩

/-- The window of a record into the column of a member. -/
def memberWindow (r : Record t) (m : Fin t.members.length) : Window :=
  r.windows.get ⟨t.toMany.length + m, Nat.add_lt_add_left m.isLt _⟩

/-- Decodes buffers whose numbers of columns fit the type. -/
def decode (t : DataType) (b : Buffers) (hrelations : b.relations.length = t.relationColumns)
    (hmembers : b.members.length = t.members.length) : Except Error (Contents t) := do
  let records ← Record.decodeAll t b.records
  let toMany ← tryOfFn fun r : Fin t.toMany.length =>
    (b.relations.get ⟨r, by
      have := r.isLt
      rw [hrelations, DataType.relationColumns]
      omega⟩).decode .objectId
  let toOne ← tryOfFn fun r : Fin t.toOne.length =>
    (b.relations.get ⟨t.toMany.length + r, by
      have := r.isLt
      rw [hrelations, DataType.relationColumns]
      omega⟩).decode .objectId
  match toOne.toList.find? (·.length != records.length) with
  | some ids =>
    throw (.corruptBuffer ("one-to-one array of " ++ t.name ++ " holds " ++ toString ids.length
      ++ " ids for " ++ toString records.length ++ " records"))
  | none => pure ()
  let members ← tryOfFn fun m : Fin t.members.length =>
    (b.members.get ⟨m, by rw [hmembers]; exact m.isLt⟩).decode t.element
  return { records, toMany, toOne, members }

/-- Every column is covered by its windows. -/
def verify (c : Contents t) : Except Error Unit := do
  let _ ← tryOfFn fun r : Fin t.toMany.length =>
    checkPartition t.name r (c.records.map (relationWindow · r)) c.toMany[r].length
  let _ ← tryOfFn fun m : Fin t.members.length =>
    checkPartition t.name (t.toMany.length + m) (c.records.map (memberWindow · m))
      c.members[m].length

/-- The body of the object of one record. -/
def body (c : Contents t) (r : Record t) : Except Error (Body t) := do
  let _ ← tryOfFn fun i : Fin t.toMany.length =>
    (relationWindow r i).checked c.toMany[i].length
  let members ← tryOfFn fun m : Fin t.members.length => (memberWindow r m).slice c.members[m]
  return {
    payload := r.payload
    toMany := .windows (Vector.ofFn (relationWindow r))
    toOne := Vector.replicate _ none
    members }

end Contents

namespace Store

/-- The addresses of a subset collection of type `t`. Nothing but these is looked at. -/
def decodeSubset (t : DataType) (b : Buffers) : Except Error (List ObjectId) :=
  match b.relations with
  | [ids] => ids.decode .objectId
  | relations =>
    .error (.corruptBuffer ("subset collection of " ++ t.name ++ " carries "
      ++ toString relations.length ++ " id arrays"))

/-- The contents of a normal collection and the bodies of its objects. -/
def decodeOwned (t : DataType) (b : Buffers) (config : Config) :
    Except Error (Contents t × List (Body t)) :=
  if hrelations : b.relations.length = t.relationColumns then
    if hmembers : b.members.length = t.members.length then do
      let contents ← Contents.decode t b hrelations hmembers
      if config.verify then contents.verify
      let bodies ← contents.records.mapM contents.body
      return (contents, bodies)
    else
      .error (.corruptBuffer (t.name ++ " expects " ++ toString t.members.length
        ++ " vector member arrays, got " ++ toString b.members.length))
  else
    .error (.corruptBuffer (t.name ++ " expects " ++ toString t.relationColumns
      ++ " relation id arrays, got " ++ toString b.relations.length))

/-- Adds objects owned by the collection `c`, the first of them at `position`. -/
def addOwned (c : CollectionKey) {t : DataType} : Nat → List (Body t) → Store → Store
  | _, [], s => s
  | position, body :: rest, s =>
    addOwned c (position + 1) rest
      { s with objects := s.objects.insert ⟨t, .owned c position, body⟩ }

/-- A collection of type `t` with the given number, rebuilt from buffers. -/
def rebuild (t : DataType) (b : Buffers) (id : CollectionId) (config : Config) :
    Action CollectionKey := do
  b.expectType t
  let collection (storage : Storage) (columns : Columns t) : Collection :=
    { Collection.empty t b.subset config with id, storage, origin := some ⟨id, columns⟩ }
  if b.subset then
    let ids ← decodeSubset t b
    addCollection (collection (.subset (ids.map Slot.pending).toArray)
      (.stored (Vector.replicate _ []) (Vector.replicate _ [])))
  else
    let (contents, bodies) ← decodeOwned t b config
    let first := (← get).objects.next
    let c ← addCollection (collection
      (.owned ((List.range bodies.length).map (first + ·)).toArray)
      (.stored contents.toMany contents.toOne))
    modify (addOwned c 0 bodies)
    return c

end Store

end EventModel
