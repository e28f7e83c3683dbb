import EventModel.Store.Handle

/-!
# Collections

A normal collection owns objects of one type; a subset collection points at objects that other
collections own. Positions count from zero in the order of insertion, and only `clear` and `discard`
remove objects: they release every object that the collection owns.
-/

namespace EventModel.Store

/-- The collection under a key as one of type `t`. -/
def collectionAs (s : Store) (t : DataType) (c : CollectionKey) : Except Error Collection := do
  let collection ← s.collection c
  if collection.type = t then return collection
  else throw (.typeMismatch t.name collection.type.name)

/-- The objects that a collection owns, if it exists. -/
def ownedBy (s : Store) (c : CollectionKey) : List ObjectKey :=
  ((s.collections.get? c).map (·.storage.objects)).getD []

/-! ## Making and discarding collections -/

/-- Adds a collection to the store. -/
def addCollection (collection : Collection) : Action CollectionKey := fun s =>
  (.ok s.collections.next, { s with collections := s.collections.insert collection })

/-- A new collection without objects. -/
def newCollection (t : DataType) (subset : Bool) (config : Config := {}) : Action CollectionKey :=
  addCollection (.empty t subset config)

/-- Releases every owned object and forgets every place. Positions start from zero again. -/
def clear (c : CollectionKey) : Action Unit := fun s =>
  match s.collections.get? c with
  | none => (.ok (), s)
  | some collection =>
    let released := collection.storage.objects.foldl
      (fun s k => s.modifyObject k Object.release) s
    (.ok (), released.modifyCollection c fun collection =>
      { collection with
        storage := .empty collection.isSubset
        origin := none }.touch)

/-- Destroys a collection and releases every object it owns. -/
def discard (c : CollectionKey) : Action Unit := do
  clear c
  modify fun s => { s with collections := s.collections.erase c }

/-! ## Changing a collection -/

/-- Gives the collection a number; the addresses of its objects follow. -/
def setCollectionId (c : CollectionKey) (id : CollectionId) : Action Unit :=
  modify fun s => s.modifyCollection c fun collection => { collection with id }.touch

/-- Switches between normal and subset mode, which an empty collection only can do. -/
def setSubset (c : CollectionKey) (subset : Bool) : Action Unit := do
  let collection ← (← get).collection c
  if subset = collection.isSubset then return
  if !collection.isEmpty then throw (.invalidModeSwitch collection.size subset)
  modify fun s => s.modifyCollection c fun collection =>
    { collection with storage := .empty subset, origin := none }.touch

/-- Appends a key to the objects that a collection owns. -/
def appendOwned (collection : Collection) (k : ObjectKey) : Collection :=
  match collection.storage with
  | .owned objects => { collection with storage := .owned (objects.push k) }.touch
  | .subset _ => collection

/-- A subset collection with one more place at its end. -/
def appendSlot (collection : Collection) (slot : Slot) : Collection :=
  match collection.storage with
  | .owned _ => collection
  | .subset slots => { collection with storage := .subset (slots.push slot) }.touch

/-- A new object at the end of a normal collection. -/
def create (t : DataType) (c : CollectionKey) (payload : t.payload.Value) :
    Action (MutableHandle t) := do
  let collection ← (← get).collectionAs t c
  if collection.isSubset then throw (.invalidOnSubset "create")
  let position := collection.size
  let k := (← get).objects.next
  modify fun s =>
    { s with objects := s.objects.insert ⟨t, .owned c position, .ofPayload payload⟩ }
  modify fun s => s.modifyCollection c (appendOwned · k)
  mutableHandleTo t (some k)

/-- Takes up the object of a handle: a normal collection becomes the owner of a floating object, and
a subset collection points at an object that another collection owns. -/
def push (c : CollectionKey) (h : Handle t) : Action Unit := do
  let collection ← (← get).collectionAs t c
  let (k, _) ← (← get).bodyOf t ((← get).target h.toReference)
  let o ← (← get).object k
  match o.tracking with
  | .released => throw .unavailable
  | .floating _ =>
    if collection.isSubset then throw .requiresTrackedObject
    let position := collection.size
    modify fun s => s.modifyObject k fun o => { o with tracking := .owned c position }
    modify fun s => s.modifyCollection c (appendOwned · k)
  | .owned _ _ =>
    if collection.isSubset then
      modify fun s => s.modifyCollection c (appendSlot · (.linked k))
    else throw (.alreadyTracked ((← get).addressOf o))

/-! ## Access by position -/

/-- The object at a position. -/
def objectAtPosition (collection : Collection) (index : Nat) : Except Error ObjectKey :=
  match collection.storage with
  | .owned objects =>
    match objects[index]? with
    | some k => .ok k
    | none => .error (.outOfRange index objects.size)
  | .subset slots =>
    match slots[index]? with
    | some (.linked k) => .ok k
    | some (.pending _) => .error (.unresolvedReferences collection.type.name collection.id)
    | none => .error (.outOfRange index slots.size)

/-- A reference to the object at a position. -/
def objectAt (c : CollectionKey) (index : Nat) : Action Reference := do
  let k ← objectAtPosition (← (← get).collection c) index
  refer (some k)

/-- A read-only handle to the object at a position. -/
def getObject (t : DataType) (c : CollectionKey) (index : Nat) : Action (Handle t) := do
  let k ← objectAtPosition (← (← get).collectionAs t c) index
  handleTo t (some k)

/-- A handle that can change the object at a position. -/
def getMutable (t : DataType) (c : CollectionKey) (index : Nat) : Action (MutableHandle t) := do
  let k ← objectAtPosition (← (← get).collectionAs t c) index
  mutableHandleTo t (some k)

/-- The objects in order; a place that waits for resolution is empty. -/
def places (collection : Collection) : List (Option ObjectKey) :=
  match collection.storage with
  | .owned objects => objects.toList.map some
  | .subset slots => slots.toList.map fun
    | .linked k => some k
    | .pending _ => none

/-- The objects in order, if no place waits for resolution. -/
def allObjects (collection : Collection) : Except Error (List ObjectKey) :=
  (places collection).mapM fun
    | some k => .ok k
    | none => .error (.unresolvedReferences collection.type.name collection.id)

end EventModel.Store
