import EventModel.Store.Collection

/-!
# Flattening a collection

`flatten` computes the buffers of a collection from the objects it holds now. `prepare` keeps the
buffers and returns the same ones until the collection, one of its objects, or a collection that
owns one of the objects its relations lead to has changed.
-/

namespace EventModel

/-- Positions in a column are words of 32 bits. -/
def columnLimit : Nat :=
  2 ^ 32

/-- A position in a column as it is stored. -/
def columnOffset (position : Nat) : Except Error UInt32 :=
  if position < columnLimit then .ok (UInt32.ofNat position)
  else .error (.corruptBuffer (toString position ++ " elements exceed the range width"))

/-- The window of `count` elements from a position on. -/
def Window.ofExtent (start count : Nat) : Except Error Window := do
  let first ← columnOffset start
  let last ← columnOffset (start + count)
  return ⟨first, last⟩

/-- The flat form of one object of a collection, with what it adds to each column. -/
structure Row (t : DataType) where
  record : Record t
  toMany : Vector (List ObjectId) t.toMany.length
  members : Vector (List t.element.Value) t.members.length
  toOne : Vector ObjectId t.toOne.length

/-- The lengths of the columns so far. -/
structure Extents (t : DataType) where
  toMany : Vector Nat t.toMany.length
  members : Vector Nat t.members.length

namespace Extents

/-- Nothing was written yet. -/
def zero (t : DataType) : Extents t :=
  ⟨Vector.replicate _ 0, Vector.replicate _ 0⟩

/-- The extents after one more row. -/
def add (e : Extents t) (row : Row t) : Extents t :=
  ⟨Vector.ofFn fun r => e.toMany[r] + row.toMany[r].length,
    Vector.ofFn fun m => e.members[m] + row.members[m].length⟩

end Extents

namespace Store

/-- The address to store for a link. -/
def linkId (s : Store) (k : ObjectKey) : Except Error ObjectId :=
  if s.existsObject k then s.idOf (some k) else .error .unavailable

/-- The addresses to store for a to-many relation. -/
def relatedIds (s : Store) {t : DataType} (k : ObjectKey) (body : Body t)
    (r : Fin t.toMany.length) : Except Error (List ObjectId) :=
  match body.toMany with
  | .lists lists => lists[r].mapM s.linkId
  | .windows windows => do
    let origin ← s.originOf t k
    match origin.columns with
    | .stored columns _ => windows[r].slice columns[r]
    | .resolved columns => (← windows[r].slice columns[r]).mapM s.linkId

/-- The stored address for a to-one relation of the object at a position, if the collection was
rebuilt and waits for resolution. -/
def waitingId (origin : Option (Origin t)) (r : Fin t.toOne.length) (position : Nat) :
    Option ObjectId :=
  match origin with
  | some ⟨_, .stored _ columns⟩ => columns[r][position]?
  | _ => none

/-- The flat form of the object at a position. -/
def flattenObject (s : Store) (t : DataType) (origin : Option (Origin t)) (extents : Extents t)
    (position : Nat) (k : ObjectKey) : Except Error (Row t) := do
  let body ← s.body t k
  let toMany ← tryOfFn fun r : Fin t.toMany.length => do
    let ids ← s.relatedIds k body r
    if ids.any ObjectId.isUntracked then
      throw (.unpersistableReference t.name position (t.toMany.get r).name)
    return (ids, ← Window.ofExtent extents.toMany[r] ids.length)
  let memberWindows ← tryOfFn fun m : Fin t.members.length =>
    Window.ofExtent extents.members[m] body.members[m].length
  let toOne ← tryOfFn fun r : Fin t.toOne.length => do
    match body.toOne[r] with
    | none => return (waitingId origin r position).getD .untracked
    | some target =>
      let id ← s.linkId target
      if id.isUntracked then
        throw (.unpersistableReference t.name position (t.toOne.get r).name)
      return id
  return {
    record := (body.payload, toMany.map (·.2) ++ memberWindows)
    toMany := toMany.map (·.1)
    members := body.members
    toOne }

/-- The flat forms of the objects from a position on. -/
def flattenObjects (s : Store) (t : DataType) (origin : Option (Origin t)) :
    Extents t → Nat → List ObjectKey → Except Error (List (Row t))
  | _, _, [] => .ok []
  | extents, position, k :: rest => do
    let row ← s.flattenObject t origin extents position k
    return row :: (← flattenObjects s t origin (extents.add row) (position + 1) rest)

/-- The buffers of a normal collection with the given rows. -/
def buffersOfRows (t : DataType) (rows : List (Row t)) : Buffers :=
  { type := t.name
    subset := false
    records := .encode t.record (rows.map (·.record))
    relations :=
      (Vector.ofFn fun r : Fin t.toMany.length =>
        RawBytes.encode .objectId (rows.flatMap (·.toMany[r]))).toList
      ++ (Vector.ofFn fun r : Fin t.toOne.length =>
        RawBytes.encode .objectId (rows.map (·.toOne[r]))).toList
    members :=
      (Vector.ofFn fun m : Fin t.members.length =>
        RawBytes.encode t.element (rows.flatMap (·.members[m]))).toList }

/-- The buffers of a subset collection with the given addresses. -/
def buffersOfIds (t : DataType) (ids : List ObjectId) : Buffers :=
  { type := t.name
    subset := true
    records := .empty t.stride
    relations := [.encode .objectId ids]
    members := [] }

/-- The address to store for a place of a subset collection. -/
def slotId (s : Store) : Slot → Except Error ObjectId
  | .pending id => .ok id
  | .linked k => s.idOf (some k)

/-- The buffers of a collection as it is now. -/
def flattenCollection (s : Store) (collection : Collection) : Except Error Buffers :=
  match collection.storage with
  | .owned objects => do
    let t := collection.type
    return buffersOfRows t
      (← s.flattenObjects t collection.origin (.zero t) 0 objects.toList)
  | .subset slots => do
    return buffersOfIds collection.type (← slots.toList.mapM s.slotId)

/-- The buffers of a collection, written anew. -/
def flatten (s : Store) (c : CollectionKey) : Except Error Buffers := do
  s.flattenCollection (← s.collection c)

/-! ## Prepared buffers -/

/-- The objects that the relations of an object lead to. -/
def linkedObjects (s : Store) (t : DataType) (k : ObjectKey) : List ObjectKey :=
  match s.body t k with
  | .error _ => []
  | .ok body =>
    (List.finRange t.toMany.length).flatMap (fun r =>
      match s.links k body r with
      | .ok keys => keys
      | .error _ => [])
    ++ body.toOne.toList.filterMap id

/-- The owner of an object that exists. -/
def ownerOf? (s : Store) (k : ObjectKey) : Option CollectionKey :=
  (s.objects.get? k).bind Object.owner?

/-- The collections whose changes may change the buffers of a collection: itself and the owners of
the objects that its relations or its places lead to. -/
def dependencies (s : Store) (c : CollectionKey) (collection : Collection) : List CollectionKey :=
  let targets := collection.storage.objects.flatMap (s.linkedObjects collection.type)
    ++ collection.storage.linked
  (c :: targets.filterMap s.ownerOf?).eraseDups

/-- The changes of a collection so far, if it still exists. -/
def generation? (s : Store) (c : CollectionKey) : Option Nat :=
  (s.collections.get? c).map Collection.generation

/-- Nothing that the buffers depend on has changed since they were prepared. -/
def isCurrent (s : Store) (prepared : Prepared) : Bool :=
  prepared.stamps.all fun (c, generation) => s.generation? c == some generation

/-- The collection has prepared buffers that are current. -/
def isPreparedCollection (s : Store) (collection : Collection) : Bool :=
  match collection.prepared with
  | some prepared => s.isCurrent prepared
  | none => false

/-- The prepared buffers of the collection exist and are current. -/
def isPrepared (s : Store) (c : CollectionKey) : Bool :=
  match s.collections.get? c with
  | some collection => s.isPreparedCollection collection
  | none => false

/-- What buffers prepared now depend on. -/
def stamps (s : Store) (c : CollectionKey) (collection : Collection) :
    List (CollectionKey × Nat) :=
  (s.dependencies c collection).filterMap fun owner =>
    (s.generation? owner).map fun generation => (owner, generation)

/-- The buffers of a collection, with the number that identifies them. They are computed only if no
current buffers are kept; a failure keeps nothing. -/
def prepare (c : CollectionKey) : Action (Nat × Buffers) := fun s =>
  match s.collection c with
  | .error e => (.error e, s)
  | .ok collection =>
    match collection.prepared.filter s.isCurrent with
    | some prepared => (.ok (prepared.serial, prepared.buffers), s)
    | none =>
      match s.flattenCollection collection with
      | .error e =>
        (.error e, s.modifyCollection c fun collection => { collection with prepared := none })
      | .ok buffers =>
        let prepared := ⟨s.stamps c collection, buffers, s.serial⟩
        (.ok (s.serial, buffers),
          { s with serial := s.serial + 1 }.modifyCollection c fun collection =>
            { collection with prepared := some prepared })

end Store

end EventModel
