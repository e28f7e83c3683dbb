import EventModel.Store.Frame

/-!
# What is written into entries

In a `Store` the address of an object follows from its owner, and an object has a list and a place
for each relation of its type. A `Ledger` keeps beside the store what is written down instead. An
entry has the address that it was given last, so the entries of a collection are gone through one by
one when its number changes. It has as many lists and places as were made for it, and none once it is
released. A collection keeps how many columns of a read its objects share and how many wait.

Every operation is the one of the store, followed by what it writes.
-/

namespace EventModel

/-- What is written into the entry of an object: its address, and how many lists of to-many relations
and places of to-one relations there are in it. -/
structure Entry where
  address : ObjectId
  lists : Nat
  places : Nat
  deriving DecidableEq, Repr

namespace Entry

/-- The entry of a new object of type `t`. -/
def new (t : DataType) (address : ObjectId) : Entry :=
  { address, lists := t.toMany.length, places := t.toOne.length }

def renumber (address : ObjectId) (e : Entry) : Entry :=
  { e with address }

/-- A released entry drops its relations. It keeps the address, which nobody can ask for any more. -/
def release (e : Entry) : Entry :=
  { e with lists := 0, places := 0 }

end Entry

/-- What a collection keeps of the read that it was rebuilt in. -/
structure ReadState where
  /-- The number of columns that the objects have windows into. A subset collection has none. -/
  shared : Option Nat
  /-- The number of columns of to-one relations that wait for resolution. -/
  waiting : Nat
  resolved : Bool
  deriving DecidableEq, Repr

namespace ReadState

def subset : ReadState :=
  { shared := none, waiting := 0, resolved := false }

def owned (t : DataType) : ReadState :=
  { shared := some t.toMany.length, waiting := t.toOne.length, resolved := false }

/-- After resolution nothing waits. -/
def settle (r : ReadState) : ReadState :=
  { r with waiting := 0, resolved := true }

end ReadState

/-- An entry for every object, and for every collection what it keeps of a read. -/
structure Notes where
  entries : Arena Entry := {}
  reads : Arena (Option ReadState) := {}

namespace Notes

def addEntry (e : Entry) (notes : Notes) : Notes :=
  { notes with entries := notes.entries.insert e }

/-- Entries for `count` new objects of type `t`, the first of them with the address of `position`. -/
def addEntries (t : DataType) (id : CollectionId) : (position count : Nat) → Notes → Notes
  | _, 0, notes => notes
  | position, count + 1, notes =>
    addEntries t id (position + 1) count (notes.addEntry (.new t (.ofPosition position id)))

def addRead (r : Option ReadState) (notes : Notes) : Notes :=
  { notes with reads := notes.reads.insert r }

/-- The object gets an address. -/
def renumber (k : ObjectKey) (address : ObjectId) (notes : Notes) : Notes :=
  { notes with entries := notes.entries.modify k (Entry.renumber address) }

/-- The listed objects get addresses, the first of them the one of `position`. -/
def renumberAll (id : CollectionId) : Nat → List ObjectKey → Notes → Notes
  | _, [], notes => notes
  | position, k :: rest, notes =>
    renumberAll id (position + 1) rest (notes.renumber k (.ofPosition position id))

def releaseAll (ks : List ObjectKey) (notes : Notes) : Notes :=
  { notes with entries := ks.foldl (fun entries k => entries.modify k Entry.release) notes.entries }

/-- The collection keeps nothing of a read. -/
def dropRead (c : CollectionKey) (notes : Notes) : Notes :=
  { notes with reads := notes.reads.modify c fun _ => none }

def settleRead (c : CollectionKey) (notes : Notes) : Notes :=
  { notes with reads := notes.reads.modify c (Option.map ReadState.settle) }

end Notes

namespace Store

/-- The address of the next object of a collection. -/
def nextAddress (s : Store) (c : CollectionKey) : ObjectId :=
  .ofPosition (s.ownedBy c).length (s.numberOf c)

/-- The collection exists and is a subset collection. -/
def isSubset (s : Store) (c : CollectionKey) : Bool :=
  (s.collections.get? c).any Collection.isSubset

end Store

/-- A store with what is written down beside it. -/
structure Ledger where
  store : Store := {}
  notes : Notes := {}

/-- An operation on a ledger. -/
abbrev LedgerAction := ExceptT Error (StateM Ledger)

namespace Ledger

def empty : Ledger :=
  {}

/-- Runs an operation of the store and, if it succeeds, writes. What is written may depend on the
store before it, the store after it and its result. -/
def record (a : Action α) (write : (before after : Store) → α → Notes → Notes) :
    LedgerAction α := fun l =>
  match a l.store with
  | (.ok x, after) => (.ok x, ⟨after, write l.store after x l.notes⟩)
  | (.error e, after) => (.error e, ⟨after, l.notes⟩)

/-- Runs an operation that writes nothing. -/
def keep (a : Action α) : LedgerAction α :=
  record a fun _ _ _ notes => notes

/-! ## Objects and collections -/

def newObject (t : DataType) (payload : t.payload.Value) : LedgerAction (MutableHandle t) :=
  record (Store.newObject t payload) fun _ _ _ => .addEntry (.new t .untracked)

def newCollection (t : DataType) (subset : Bool) (config : Config) : LedgerAction CollectionKey :=
  record (Store.newCollection t subset config) fun _ _ _ => .addRead none

def create (t : DataType) (c : CollectionKey) (payload : t.payload.Value) :
    LedgerAction (MutableHandle t) :=
  record (Store.create t c payload) fun before _ _ => .addEntry (.new t (before.nextAddress c))

/-- A place in a subset collection is not written into the entry of its object. -/
def push (c : CollectionKey) (h : Handle t) : LedgerAction Unit :=
  record (Store.push c h) fun before _ _ notes =>
    match before.target h.toReference with
    | some k => if before.isSubset c then notes else notes.renumber k (before.nextAddress c)
    | none => notes

def clear (c : CollectionKey) : LedgerAction Unit :=
  record (Store.clear c) fun before _ _ notes => (notes.releaseAll (before.ownedBy c)).dropRead c

def discard (c : CollectionKey) : LedgerAction Unit := do
  clear c
  keep (modify fun s => { s with collections := s.collections.erase c })

/-- The collection gets a number, and every entry that it owns a new address. -/
def setCollectionId (c : CollectionKey) (id : CollectionId) : LedgerAction Unit :=
  record (Store.setCollectionId c id) fun before _ _ => .renumberAll id 0 (before.ownedBy c)

def setSubset (c : CollectionKey) (subset : Bool) : LedgerAction Unit :=
  record (Store.setSubset c subset) fun before _ _ notes =>
    if before.isSubset c = subset then notes else notes.dropRead c

/-! ## Reading and resolving -/

def rebuild (t : DataType) (b : Buffers) (id : CollectionId) (config : Config) :
    LedgerAction CollectionKey :=
  record (Store.rebuild t b id config) fun _ after c notes =>
    if b.subset then notes.addRead (some .subset)
    else (notes.addRead (some (.owned t))).addEntries t id 0 (after.ownedBy c).length

def build (registry : Registry) (buffers : Buffers) (id : CollectionId) (config : Config) :
    LedgerAction CollectionKey :=
  match registry.find? buffers.type with
  | none => throw (.unknownDataType buffers.type)
  | some t => rebuild t buffers id config

def setReferences (resolver : Resolver) (c : CollectionKey) : LedgerAction Unit :=
  record (Store.setReferences resolver c) fun _ _ _ => .settleRead c

/-- Runs an operation on each element; the first failure ends the run. -/
def forEach (f : α → LedgerAction Unit) : List α → LedgerAction Unit
  | [] => return
  | x :: rest => do
    f x
    forEach f rest

def resolveAll (collections : List CollectionKey) : LedgerAction Unit := do
  let s := (← get).store
  let resolver := s.resolverOf collections
  forEach (setReferences resolver) ((s.collectionIds collections).filterMap resolver)

/-! ## Frames -/

def discardFrame (f : FrameKey) : LedgerAction Unit := do
  match (← get).store.frames.get? f with
  | none => return
  | some frame =>
    forEach discard (frame.slots.map (·.2))
    keep (modify fun s => { s with frames := s.frames.erase f })

def put (f : FrameKey) (name : String) (c : CollectionKey) : LedgerAction CollectionId := do
  let frame ← (← get).store.frame f
  match frame.accept name with
  | .error e =>
    discard c
    throw e
  | .ok (id, ids) =>
    setCollectionId c id
    keep (modify fun s => s.modifyFrame f fun frame => { frame with ids }.push name id c)
    return id

def resolveFrame (f : FrameKey) : LedgerAction Unit := do
  let frame ← (← get).store.frame f
  forEach (setReferences frame.resolver) (frame.slots.map (·.2))

def putAll (f : FrameKey) (registry : Registry) (config : Config) :
    List (String × Buffers) → LedgerAction Unit
  | [] => return
  | (name, buffers) :: rest => do
    let frame ← (← get).store.frame f
    match frame.ids.id? name with
    | none =>
      throw (.corruptBuffer ("collection " ++ name ++ " is missing from the id table"))
    | some id =>
      let c ← build registry buffers id config
      let _ ← put f name c
      putAll f registry config rest

def readFrameSteps (data : FrameData) (registry : Registry) (config : Config) :
    LedgerAction FrameKey := do
  let f ← keep (Store.newFrame config)
  keep (modify fun s => s.modifyFrame f fun frame =>
    { frame with ids := data.ids, parameters := data.parameters })
  putAll f registry config data.collections
  resolveFrame f
  return f

/-- An operation that changes nothing if it fails. -/
def transaction (action : LedgerAction α) : LedgerAction α := fun l =>
  match action l with
  | (.ok x, l') => (.ok x, l')
  | (.error e, _) => (.error e, l)

def readFrame (data : FrameData) (registry : Registry) (config : Config) : LedgerAction FrameKey :=
  transaction (readFrameSteps data registry config)

/-! ## Questions -/

/-- The address that was written into the entry of an object, unless the object was released. -/
def idOf (l : Ledger) (target : Option ObjectKey) : Except Error ObjectId := do
  let _ ← l.store.available target
  match target.bind l.notes.entries.get? with
  | some e => return e.address
  | none => throw .unavailable

end Ledger

end EventModel
