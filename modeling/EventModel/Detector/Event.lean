import EventModel.Detector.DataModel
import EventModel.Store.Frame

/-!
# Events

An `EventSpec` describes an event of the detector by lists in which relations are indices. `build`
makes a frame of it and `ofFrame` reads the description back from a frame.
-/

namespace EventModel.Detector

/-- A cluster; its hits and clusters are positions in the lists of the event. -/
structure ClusterSpec where
  payload : cluster.payload.Value
  hits : List Nat
  clusters : List Nat
  weights : List Binary32
  deriving DecidableEq

/-- A track; its hits and its seed are positions in the lists of the event. -/
structure TrackSpec where
  payload : track.payload.Value
  hits : List Nat
  /-- The cluster that the track was seeded by. -/
  seed : Option Nat
  deriving DecidableEq

/-- An event as lists of objects, in the order of their collections. -/
structure EventSpec where
  hits : List hit.payload.Value := []
  clusters : List ClusterSpec := []
  tracks : List TrackSpec := []
  /-- The tracks in the subset collection. -/
  selected : List Nat := []
  deriving DecidableEq

/-- The collections of an event. -/
structure EventCollections where
  hits : CollectionKey
  clusters : CollectionKey
  tracks : CollectionKey
  selected : CollectionKey

/-- The names of the collections in a frame. -/
def hitsName : String := "hits"

def clustersName : String := "clusters"

def tracksName : String := "tracks"

def selectedName : String := "selected_tracks"

open Store

/-! ## Building -/

/-- Runs an operation with a handle that is dropped afterwards. -/
def withHandle (acquire : Action α) (reference : α → Reference) (use : α → Action Unit) :
    Action Unit := do
  let h ← acquire
  use h
  drop (reference h)

/-- Creates an object and keeps no handle to it. -/
def createObject (t : DataType) (c : CollectionKey) (payload : t.payload.Value) : Action Unit :=
  withHandle (create t c payload) (·.toReference) fun _ => return

/-- Appends the object at an index to a relation. -/
def relate (h : MutableHandle t) (relation : Nat) (u : DataType) (c : CollectionKey)
    (index : Nat) : Action Unit :=
  withHandle (getObject u c index) (·.toReference) fun target =>
    addRelated h relation target.toReference

/-- The relations and weights of the cluster at a position. -/
def fillCluster (e : EventCollections) (position : Nat) (spec : ClusterSpec) : Action Unit :=
  withHandle (getMutable cluster e.clusters position) (·.toReference) fun h => do
    forEach (relate h 0 hit e.hits) spec.hits
    forEach (relate h 1 cluster e.clusters) spec.clusters
    setMembers h 0 spec.weights

/-- The relations of the track at a position. -/
def fillTrack (e : EventCollections) (position : Nat) (spec : TrackSpec) : Action Unit :=
  withHandle (getMutable track e.tracks position) (·.toReference) fun h => do
    forEach (relate h 0 hit e.hits) spec.hits
    match spec.seed with
    | none => return
    | some seed =>
      withHandle (getObject cluster e.clusters seed) (·.toReference) fun target =>
        setSingle h 0 target.toReference

/-- Appends the track at an index to the selected tracks. -/
def select (e : EventCollections) (index : Nat) : Action Unit :=
  withHandle (getObject track e.tracks index) (·.toReference) fun h => push e.selected h

/-- Makes the collections of an event and fills them: first all objects, then their relations. -/
def buildSteps (spec : EventSpec) : Action EventCollections := do
  let e : EventCollections := {
    hits := ← newCollection hit false
    clusters := ← newCollection cluster false
    tracks := ← newCollection track false
    selected := ← newCollection track true }
  forEach (createObject hit e.hits) spec.hits
  forEach (createObject cluster e.clusters) (spec.clusters.map (·.payload))
  forEach (createObject track e.tracks) (spec.tracks.map (·.payload))
  forEach (fun (cluster, i) => fillCluster e i cluster) spec.clusters.zipIdx
  forEach (fun (track, i) => fillTrack e i track) spec.tracks.zipIdx
  forEach (select e) spec.selected
  return e

/-- The collections of an event; an index that is out of range leaves nothing behind. -/
def build (spec : EventSpec) : Action EventCollections :=
  transaction (buildSteps spec)

/-- A frame that holds an event. -/
def buildFrame (spec : EventSpec) : Action FrameKey := do
  let e ← build spec
  let f ← newFrame
  let _ ← put f hitsName e.hits
  let _ ← put f clustersName e.clusters
  let _ ← put f tracksName e.tracks
  let _ ← put f selectedName e.selected
  return f

/-! ## Reading back -/

/-- The collection of a frame that has a name, as one of type `t`. -/
def typedCollection (s : Store) (frame : Frame) (t : DataType) (name : String) :
    Except Error Collection :=
  match frame.collection? name with
  | none => .error (.typeMismatch t.name "nothing")
  | some c => s.collectionAs t c

/-- The position of an object that has to belong to the collection with a number. -/
def positionIn (s : Store) (collection : CollectionId) (place : Option ObjectKey) :
    Except Error Nat := do
  let id ← s.idOf place
  if id.collection ≠ collection then
    throw (.corruptBuffer (id.text ++ " does not belong to collection " ++ collection.text))
  match id.position? with
  | some position => return position
  | none => throw (.corruptBuffer (id.text ++ " has no position"))

/-- The positions of the objects of a relation. -/
def relatedPositions (s : Store) (t : DataType) (place : Option ObjectKey) (relation : Nat)
    (collection : CollectionId) : Except Error (List Nat) := do
  (← s.related t place relation).mapM (positionIn s collection)

/-- The description of one cluster. -/
def readCluster (s : Store) (hits clusters : CollectionId) (place : Option ObjectKey) :
    Except Error ClusterSpec := do
  return {
    payload := ← s.payload cluster place
    hits := ← relatedPositions s cluster place 0 hits
    clusters := ← relatedPositions s cluster place 1 clusters
    weights := ← s.members cluster place 0 }

/-- The description of one track. -/
def readTrack (s : Store) (hits clusters : CollectionId) (place : Option ObjectKey) :
    Except Error TrackSpec := do
  let seed ← match ← s.single track place 0 with
    | none => pure none
    | some target => some <$> positionIn s clusters target
  return {
    payload := ← s.payload track place
    hits := ← relatedPositions s track place 0 hits
    seed }

/-- The event in a frame. -/
def ofFrame (s : Store) (f : FrameKey) : Except Error EventSpec := do
  let frame ← s.frame f
  let hits ← typedCollection s frame hit hitsName
  let clusters ← typedCollection s frame cluster clustersName
  let tracks ← typedCollection s frame track tracksName
  let selected ← typedCollection s frame track selectedName
  return {
    hits := ← (places hits).mapM (s.payload hit)
    clusters := ← (places clusters).mapM (readCluster s hits.id clusters.id)
    tracks := ← (places tracks).mapM (readTrack s hits.id clusters.id)
    selected := ← (← allObjects selected).mapM fun k => positionIn s tracks.id (some k) }

/-- A frame rebuilt with the types of the data model. -/
def reread (data : FrameData) : Action FrameKey :=
  readFrame data registry {}

/-! ## Properties of descriptions -/

namespace EventSpec

/-- The number of objects in the collections that own them. -/
def objectCount (spec : EventSpec) : Nat :=
  spec.hits.length + spec.clusters.length + spec.tracks.length

/-- Equality of descriptions; floating point numbers are compared as numbers. -/
def equal (a b : EventSpec) : Bool :=
  a.hits.isEqv b.hits hit.payload.equal
  && a.clusters.isEqv b.clusters (fun x y => cluster.payload.equal x.payload y.payload
    && x.hits == y.hits && x.clusters == y.clusters && x.weights.isEqv y.weights Binary32.equal)
  && a.tracks.isEqv b.tracks (fun x y => track.payload.equal x.payload y.payload
    && x.hits == y.hits && x.seed == y.seed)
  && a.selected == b.selected

end EventSpec

end EventModel.Detector
