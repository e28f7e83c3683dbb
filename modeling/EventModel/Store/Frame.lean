import EventModel.Registry
import EventModel.Store.Resolve

/-!
# Frames

A frame owns the collections that were put into it and gives each the number that its name has in
the id table. `writeFrame` collects the flat form of a frame and `readFrame` rebuilds a frame from
it, resolving the stored addresses within the frame.
-/

namespace EventModel

/-- The flat form of a frame. -/
structure FrameData where
  ids : IdTable
  collections : List (String × Buffers)
  parameters : Parameters
  deriving DecidableEq

namespace FrameData

/-- Equality of flat forms; floating point parameters are compared as numbers. -/
def equal (a b : FrameData) : Bool :=
  a.ids == b.ids && a.collections == b.collections && a.parameters.equal b.parameters

end FrameData

namespace Store

/-- A new frame without collections. -/
def newFrame (config : Config := {}) : Action FrameKey := fun s =>
  (.ok s.frames.next, { s with frames := s.frames.insert { config } })

/-- Destroys a frame and its collections. -/
def discardFrame (f : FrameKey) : Action Unit := do
  match (← get).frames.get? f with
  | none => return
  | some frame =>
    forEach discard (frame.slots.map (·.2))
    modify fun s => { s with frames := s.frames.erase f }

/-- Gives a collection to a frame under a name. If the frame does not accept the name, the collection
is destroyed. -/
def put (f : FrameKey) (name : String) (c : CollectionKey) : Action CollectionId := do
  let frame ← (← get).frame f
  match frame.accept name with
  | .error e =>
    discard c
    throw e
  | .ok (id, ids) =>
    setCollectionId c id
    modify fun s => s.modifyFrame f fun frame => { frame with ids }.push name id c
    return id

/-- Replaces the parameters of a frame. -/
def setParameters (f : FrameKey) (parameters : Parameters) : Action Unit :=
  modify fun s => s.modifyFrame f fun frame => { frame with parameters }

/-- Takes the collection with a name out of a frame. The id table keeps the name. -/
def take (t : DataType) (f : FrameKey) (name : String) : Action (Option CollectionKey) := do
  let frame ← (← get).frame f
  match frame.find? name with
  | none => return none
  | some (position, c) =>
    let _ ← (← get).collectionAs t c
    modify fun s => s.modifyFrame f (·.removeAt position s.numberOf)
    return some c

/-- The collection with a name, if it is one of type `t`. -/
def typedCollection? (s : Store) (t : DataType) (frame : Frame) (name : String) :
    Option CollectionKey :=
  (frame.collection? name).filter fun c => (s.collectionAs t c).toOption.isSome

/-- Resolves every collection of a frame, in the order of the names. -/
def resolveFrame (f : FrameKey) : Action Unit := do
  let frame ← (← get).frame f
  forEach (setReferences frame.resolver) (frame.slots.map (·.2))

/-- Prepares collections one after the other; the first failure ends it, and what was prepared
before stays prepared. -/
def prepareAll : List (String × CollectionKey) → Action (List (String × Buffers))
  | [] => return []
  | (name, c) :: rest => do
    let (_, buffers) ← prepare c
    return (name, buffers) :: (← prepareAll rest)

/-- The flat form of a frame. -/
def writeFrame (f : FrameKey) : Action FrameData := do
  let frame ← (← get).frame f
  let collections ← prepareAll frame.slots
  return { ids := frame.ids, collections, parameters := frame.parameters }

/-- A collection rebuilt from buffers, of the type that they name. -/
def build (registry : Registry) (buffers : Buffers) (id : CollectionId) (config : Config) :
    Action CollectionKey :=
  match registry.find? buffers.type with
  | none => throw (.unknownDataType buffers.type)
  | some t => rebuild t buffers id config

/-- Rebuilds collections and puts them into a frame, each under its name. -/
def putAll (f : FrameKey) (registry : Registry) (config : Config) :
    List (String × Buffers) → Action Unit
  | [] => return
  | (name, buffers) :: rest => do
    let frame ← (← get).frame f
    match frame.ids.id? name with
    | none =>
      throw (.corruptBuffer ("collection " ++ name ++ " is missing from the id table"))
    | some id =>
      let c ← build registry buffers id config
      let _ ← put f name c
      putAll f registry config rest

/-- Rebuilds a frame and resolves its collections, step by step. -/
def readFrameSteps (data : FrameData) (registry : Registry) (config : Config) :
    Action FrameKey := do
  let f ← newFrame config
  modify fun s => s.modifyFrame f fun frame =>
    { frame with ids := data.ids, parameters := data.parameters }
  putAll f registry config data.collections
  resolveFrame f
  return f

/-- An operation that changes nothing if it fails. -/
def transaction (action : Action α) : Action α := fun s =>
  match action s with
  | (.ok a, s') => (.ok a, s')
  | (.error e, _) => (.error e, s)

/-- A frame rebuilt from its flat form; a failure leaves nothing behind. -/
def readFrame (data : FrameData) (registry : Registry) (config : Config) : Action FrameKey :=
  transaction (readFrameSteps data registry config)

end Store

end EventModel
