import EventModel.Buffers
import EventModel.Config
import EventModel.IdTable
import EventModel.Parameters
import EventModel.Store.Arena
import EventModel.Store.Positions

/-!
# The object store

A `Store` holds every object, collection, frame and handle. An object is floating, owned by a
collection or released:

- a floating object exists while a handle points at it, and counts its handles;
- an owned object exists as long as its collection keeps it;
- a released object lost its collection; what still points at it finds it unavailable.

Relations hold keys of objects and keep nothing alive. The address of an object is not stored with
it but follows from its owner and its position there.
-/

namespace EventModel

/-- The key of an object in the store. -/
abbrev ObjectKey := Nat

/-- The key of a collection in the store. -/
abbrev CollectionKey := Nat

/-- The key of a handle in the store. -/
abbrev HandleKey := Nat

/-- The key of a frame in the store. -/
abbrev FrameKey := Nat

/-! ## Objects -/

/-- The to-many relations of an object: lists of its own, or, after it was rebuilt, windows into the
columns of its collection. -/
inductive ToMany (t : DataType)
  | lists (links : Vector (List ObjectKey) t.toMany.length)
  | windows (windows : Vector Window t.toMany.length)
  deriving DecidableEq

/-- What an object of type `t` holds. A to-one relation that was never set holds nothing. -/
structure Body (t : DataType) where
  payload : t.payload.Value
  toMany : ToMany t
  toOne : Vector (Option ObjectKey) t.toOne.length
  members : Vector (List t.element.Value) t.members.length

/-- A body with a payload and nothing else. -/
def Body.ofPayload {t : DataType} (payload : t.payload.Value) : Body t :=
  { payload
    toMany := .lists (Vector.replicate _ [])
    toOne := Vector.replicate _ none
    members := Vector.replicate _ [] }

/-- Where an object belongs. -/
inductive Tracking
  /-- No collection owns the object; the number of its handles is counted, in a word of 32 bits. -/
  | floating (handles : UInt32)
  | owned (owner : CollectionKey) (position : Nat)
  | released
  deriving DecidableEq, Repr

/-- A typed object and where it belongs. -/
structure Object where
  type : DataType
  tracking : Tracking
  body : Body type

namespace Object

/-- The body as one of type `t`. -/
def bodyAs (o : Object) (t : DataType) : Except Error (Body t) :=
  if h : o.type = t then .ok (h ▸ o.body) else .error (.typeMismatch t.name o.type.name)

def isReleased (o : Object) : Bool :=
  o.tracking == .released

/-- The collection that owns the object. -/
def owner? (o : Object) : Option CollectionKey :=
  match o.tracking with
  | .owned owner _ => some owner
  | _ => none

/-- One more handle points at the object. Only floating objects count their handles. -/
def acquire (o : Object) : Object :=
  match o.tracking with
  | .floating handles => { o with tracking := .floating (handles + 1) }
  | _ => o

/-- One handle less points at the object; the count stops at zero. -/
def letGo (o : Object) : Object :=
  match o.tracking with
  | .floating handles =>
    { o with tracking := .floating (if handles = 0 then 0 else handles - 1) }
  | _ => o

/-- The object loses its place; handles to it find nothing from now on. -/
def release (o : Object) : Object :=
  { o with tracking := .released }

end Object

/-! ## Collections -/

/-- A place in a subset collection. -/
inductive Slot
  /-- A stored address that waits for resolution. -/
  | pending (id : ObjectId)
  | linked (object : ObjectKey)
  deriving DecidableEq, Repr

/-- Objects that a collection owns, or places of a subset collection. -/
inductive Storage
  | owned (objects : Array ObjectKey)
  | subset (slots : Array Slot)
  deriving DecidableEq, Repr

namespace Storage

def size : Storage → Nat
  | owned objects => objects.size
  | subset slots => slots.size

def isSubset : Storage → Bool
  | owned _ => false
  | subset _ => true

def empty (subset : Bool) : Storage :=
  if subset then .subset #[] else .owned #[]

/-- The objects that are pointed at but not owned. -/
def linked : Storage → List ObjectKey
  | owned _ => []
  | subset slots => slots.toList.filterMap fun
    | .linked object => some object
    | .pending _ => none

/-- The objects that are owned. -/
def objects : Storage → List ObjectKey
  | owned objects => objects.toList
  | subset _ => []

end Storage

/-- The relation columns that a collection was rebuilt from: stored addresses, or, after resolution,
the objects they stand for. -/
inductive Columns (t : DataType)
  | stored (toMany : Vector (List ObjectId) t.toMany.length)
      (toOne : Vector (List ObjectId) t.toOne.length)
  | resolved (toMany : Vector (List ObjectKey) t.toMany.length)
  deriving DecidableEq

/-- What a collection keeps of the buffers it was rebuilt from. -/
structure Origin (t : DataType) where
  /-- The number of the collection at that time. -/
  id : CollectionId
  columns : Columns t
  deriving DecidableEq

/-- Buffers that were prepared, the changes seen by then, and a number that identifies them. -/
structure Prepared where
  stamps : List (CollectionKey × Nat)
  buffers : Buffers
  serial : Nat

/-- A collection of objects of one type. -/
structure Collection where
  type : DataType
  id : CollectionId
  config : Config
  storage : Storage
  /-- Counts the changes of the collection and of the objects it owns. -/
  generation : Nat
  prepared : Option Prepared
  origin : Option (Origin type)

namespace Collection

def empty (type : DataType) (subset : Bool) (config : Config) : Collection :=
  { type
    id := .invalid
    config
    storage := .empty subset
    generation := 0
    prepared := none
    origin := none }

def size (c : Collection) : Nat :=
  c.storage.size

def isEmpty (c : Collection) : Bool :=
  c.size == 0

def isSubset (c : Collection) : Bool :=
  c.storage.isSubset

/-- Something changed: buffers that were prepared before are no longer current. -/
def advance (c : Collection) : Collection :=
  { c with generation := c.generation + 1 }

/-- The collection itself changed: prepared buffers are discarded. -/
def touch (c : Collection) : Collection :=
  { c.advance with prepared := none }

/-- Stored addresses wait for resolution. -/
def isUnresolved (c : Collection) : Bool :=
  match c.origin with
  | some ⟨_, .stored _ _⟩ => true
  | _ => false

/-- The kept columns as those of type `t`. -/
def originAs (c : Collection) (t : DataType) : Option (Origin t) :=
  if h : c.type = t then h ▸ c.origin else none

/-- The text that shows the extent of a collection. -/
def describe (c : Collection) : String :=
  Text.structureText "Collection"
    [("type_name", Text.quote c.type.name), ("collection_id", c.id.describe),
      ("len", toString c.size), ("subset", toString c.isSubset)] false

end Collection

/-! ## Frames -/

/-- A named set of collections with parameters. The collections stand in the order in which they were
put into the frame; their positions are kept by name and by number. -/
structure Frame where
  config : Config := {}
  ids : IdTable := .empty
  slots : List (String × CollectionKey) := []
  byName : Positions String := .empty
  byId : Positions CollectionId := .empty
  parameters : Parameters := .empty

namespace Frame

def names (f : Frame) : List String :=
  f.slots.map (·.1)

/-- The position that is kept for a name and the collection there. -/
def find? (f : Frame) (name : String) : Option (Nat × CollectionKey) :=
  (f.byName.get? name).bind fun position => f.slots[position]?.map fun slot => (position, slot.2)

/-- The collection with a name. -/
def collection? (f : Frame) (name : String) : Option CollectionKey :=
  (f.find? name).map (·.2)

/-- The collection at the position that is kept for a number. -/
def resolver (f : Frame) (id : CollectionId) : Option CollectionKey :=
  (f.byId.get? id).bind fun position => f.slots[position]?.map (·.2)

def contains (f : Frame) (name : String) : Bool :=
  (f.byName.get? name).isSome

/-- The number for a collection under a name that the frame does not have yet, and the table that
has the name. -/
def accept (f : Frame) (name : String) : Except Error (CollectionId × IdTable) :=
  if f.contains name then .error (.nameAlreadyPresent name) else f.ids.add name

/-- The frame with one more collection behind the others. -/
def push (f : Frame) (name : String) (id : CollectionId) (c : CollectionKey) : Frame :=
  { f with
    slots := f.slots ++ [(name, c)]
    byName := f.byName.insert name f.slots.length
    byId := f.byId.insert id f.slots.length }

/-- The frame with the positions of all its collections entered anew. -/
def reindex (f : Frame) (numberOf : CollectionKey → CollectionId) : Frame :=
  { f with
    byName := .ofList (f.slots.map (·.1))
    byId := .ofList (f.slots.map fun slot => numberOf slot.2) }

/-- The frame without the collection at a position; those behind it move up by one. -/
def removeAt (f : Frame) (position : Nat) (numberOf : CollectionKey → CollectionId) : Frame :=
  { f with slots := f.slots.eraseIdx position }.reindex numberOf

def size (f : Frame) : Nat :=
  f.slots.length

def isEmpty (f : Frame) : Bool :=
  f.slots.isEmpty

def describe (f : Frame) : String :=
  Text.structureText "Frame"
    [("collections", Text.listText (f.names.map Text.quote)),
      ("parameters", toString f.parameters.size)] false

end Frame

/-! ## The store -/

/-- Everything that handles, collections and frames refer to. -/
structure Store where
  objects : Arena Object := {}
  collections : Arena Collection := {}
  frames : Arena Frame := {}
  /-- Every handle with the object it points at; an empty handle points at none. -/
  handles : Arena (Option ObjectKey) := {}
  /-- The number that the next prepared buffers get. -/
  serial : Nat := 0

/-- An operation on the store. It may change the store even if it fails. -/
abbrev Action := ExceptT Error (StateM Store)

namespace Store

def empty : Store :=
  {}

/-- The collection under a key; one that was dropped is not available. -/
def collection (s : Store) (c : CollectionKey) : Except Error Collection :=
  match s.collections.get? c with
  | some collection => .ok collection
  | none => .error .unavailable

def object (s : Store) (k : ObjectKey) : Except Error Object :=
  match s.objects.get? k with
  | some o => .ok o
  | none => .error .unavailable

def frame (s : Store) (f : FrameKey) : Except Error Frame :=
  match s.frames.get? f with
  | some frame => .ok frame
  | none => .error .unavailable

/-- The number of a collection. -/
def numberOf (s : Store) (c : CollectionKey) : CollectionId :=
  match s.collections.get? c with
  | some collection => collection.id
  | none => .invalid

/-- Some handle points at the object. -/
def isHeld (s : Store) (k : ObjectKey) : Bool :=
  s.handles.any (· == some k)

/-- The number of handles that point at an object. -/
def handleCount (s : Store) (k : ObjectKey) : Nat :=
  s.handles.countP (· == some k)

/-- A place of a subset collection points at an object. -/
def isInSubset (s : Store) (k : ObjectKey) : Bool :=
  s.collections.any fun c => c.storage.linked.contains k

/-- The object exists: its collection keeps it, or a handle or, once released, a place in a subset
collection points at it. -/
def existsObject (s : Store) (k : ObjectKey) : Bool :=
  match s.objects.get? k with
  | none => false
  | some o =>
    match o.tracking with
    | .owned _ _ => true
    | .floating _ => s.isHeld k
    | .released => s.isHeld k || s.isInSubset k

/-- The address of an object. -/
def addressOf (s : Store) (o : Object) : ObjectId :=
  match o.tracking with
  | .owned owner position =>
    match s.collections.get? owner with
    | some c => .ofPosition position c.id
    | none => .untracked
  | _ => .untracked

def modifyObject (s : Store) (k : ObjectKey) (f : Object → Object) : Store :=
  { s with objects := s.objects.modify k f }

def modifyCollection (s : Store) (c : CollectionKey) (f : Collection → Collection) : Store :=
  { s with collections := s.collections.modify c f }

def modifyFrame (s : Store) (f : FrameKey) (g : Frame → Frame) : Store :=
  { s with frames := s.frames.modify f g }

/-- A change of the object is a change of the collection that owns it. -/
def advanceOwner (s : Store) (k : ObjectKey) : Store :=
  match (s.objects.get? k).bind Object.owner? with
  | some owner => s.modifyCollection owner Collection.advance
  | none => s

/-- The body of an object of type `t`, unless the object was released. -/
def body (s : Store) (t : DataType) (k : ObjectKey) : Except Error (Body t) := do
  let o ← s.object k
  if o.isReleased then throw .unavailable
  o.bodyAs t

/-- Puts a body in the place of the one of an object of type `t`. -/
def setBody (s : Store) {t : DataType} (k : ObjectKey) (body : Body t) : Store :=
  s.modifyObject k fun o => if h : o.type = t then { o with body := h ▸ body } else o

end Store

end EventModel
