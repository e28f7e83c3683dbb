import Mathlib.Logic.Relation
import EventModel.Proofs.Store.Indexed
import EventModel.Proofs.Store.Parts

/-!
# Changes of a store

Every operation is a sequence of elementary changes. `Change` lists them with what holds before
each: an invariant of all runs is proved by going through its constructors once. A change is a gain
or a loss, and no operation mixes the two.

A collection is changed from outside only while it is loose, that is, while no frame holds it.
-/

namespace EventModel

/-- The window selects elements of a column of `n` elements. -/
def Window.Fits (w : Window) (n : Nat) : Prop :=
  w.start.toNat ≤ w.stop.toNat ∧ w.stop.toNat ≤ n

/-- The number of stored addresses, or of links, of a to-many relation. -/
def Columns.length {t : DataType} (columns : Columns t) (r : Fin t.toMany.length) : Nat :=
  match columns with
  | .stored toMany _ => toMany[r].length
  | .resolved toMany => toMany[r].length

/-- The body has a window into each of the columns and no link of its own. -/
def Body.IsRebuilt {t : DataType} (body : Body t) (columns : Columns t) : Prop :=
  (∃ windows, body.toMany = .windows windows ∧
    ∀ r : Fin t.toMany.length, windows[r].Fits (columns.length r)) ∧
  body.toOne = Vector.replicate _ none

namespace Store

/-- The collection exists and no frame holds it, so that whoever has it may change it. -/
def isLoose (s : Store) (c : CollectionKey) : Bool :=
  (s.collections.get? c).isSome && !s.frames.any fun frame => frame.slots.any fun slot => slot.2 == c

/-- The links of a body lead to objects of the types that its relations declare. -/
structure LinksTyped (s : Store) {t : DataType} (body : Body t) : Prop where
  toMany : ∀ lists, body.toMany = .lists lists → ∀ r : Fin t.toMany.length,
    ∀ k ∈ lists[r], s.typeName? (some k) = some (t.toMany.get r).target
  toOne : ∀ (r : Fin t.toOne.length) (k : ObjectKey), body.toOne[r] = some k →
    s.typeName? (some k) = some (t.toOne.get r).target

/-- A new collection without objects, or one with places that wait for resolution, or one whose
objects get the next keys of the store. -/
inductive Founds (s : Store) (col : Collection) : List (Body col.type) → Prop
  | subset (ids : List ObjectId) (h : col.storage = .subset (ids.map Slot.pending).toArray) :
      Founds s col []
  | owned (bodies : List (Body col.type))
      (h : col.storage =
        .owned ((List.range bodies.length).map (s.objects.next + ·)).toArray)
      (hbodies : ∀ body ∈ bodies, ∃ origin, col.origin = some origin ∧
        body.IsRebuilt origin.columns)
      (hsingles : ∀ id toMany toOne, col.origin = some ⟨id, .stored toMany toOne⟩ →
        ∀ r : Fin col.type.toOne.length, toOne[r].length = bodies.length) : Founds s col bodies

/-- The store with a new collection and the objects that it owns. -/
def withFounded (s : Store) (col : Collection) (bodies : List (Body col.type)) : Store :=
  addOwned s.collections.next 0 bodies { s with collections := s.collections.insert col }

/-- The store in which the collection `c` has become the owner of a floating object. -/
def withAdopted (s : Store) (c : CollectionKey) (position : Nat) (k : ObjectKey) : Store :=
  (s.modifyObject k fun o => { o with tracking := .owned c position }).modifyCollection
    c (appendOwned · k)

/-- The store in which a collection has lost its objects and its places. -/
def withReset (s : Store) (c : CollectionKey) (col : Collection) (subset : Bool) : Store :=
  (s.releaseAll col.storage.objects).modifyCollection c fun col =>
    { col with storage := .empty subset, origin := none }.touch

section Updates

variable {s : Store} {c d : CollectionKey} {k k' : ObjectKey} {col : Collection}

theorem withAdopted_get?_self {o : Object} (ho : s.objects.get? k = some o) (c : CollectionKey)
    (position : Nat) : (s.withAdopted c position k).objects.get? k =
      some { o with tracking := .owned c position } :=
  Arena.get?_modify_self ho _

theorem withAdopted_get?_ne (hk : k' ≠ k) (c : CollectionKey) (position : Nat) :
    (s.withAdopted c position k).objects.get? k' = s.objects.get? k' :=
  Arena.get?_modify_ne hk.symm _

theorem withAdopted_collections_self (hcol : s.collections.get? c = some col) (position : Nat)
    (k : ObjectKey) :
    (s.withAdopted c position k).collections.get? c = some (appendOwned col k) :=
  Arena.get?_modify_self hcol _

theorem withAdopted_collections_ne (hd : d ≠ c) (position : Nat) (k : ObjectKey) :
    (s.withAdopted c position k).collections.get? d = s.collections.get? d :=
  Arena.get?_modify_ne hd.symm _

/-- The objects of the collection are released, and all others stay as they are. -/
theorem withReset_get? (s : Store) (c : CollectionKey) (col : Collection) (subset : Bool)
    (k : ObjectKey) : (s.withReset c col subset).objects.get? k =
      if k ∈ col.storage.objects then (s.objects.get? k).map Object.release
      else s.objects.get? k :=
  releaseAll_get? s col.storage.objects k

theorem withReset_collections_self (hcol : s.collections.get? c = some col) (subset : Bool) :
    (s.withReset c col subset).collections.get? c =
      some { col with storage := .empty subset, origin := none }.touch := by
  rw [withReset, modifyCollection_collections, releaseAll_collections,
    Arena.get?_modify_self hcol]

theorem withReset_collections_ne (hd : d ≠ c) (col : Collection) (subset : Bool) :
    (s.withReset c col subset).collections.get? d = s.collections.get? d := by
  rw [withReset, modifyCollection_collections, releaseAll_collections,
    Arena.get?_modify_ne hd.symm]

end Updates

/-- The store with a new floating object and its first handle. -/
def withNewObject (s : Store) (t : DataType) (payload : t.payload.Value) : Store :=
  { s with objects := s.objects.insert ⟨t, .floating 0, .ofPayload payload⟩ }.withHandle
    (some s.objects.next)

/-- What a change is about. -/
inductive ChangeKind
  /-- Something is added, altered or moved; no object loses its collection and no handle its object. -/
  | gain
  /-- A to-one relation of an object is set. -/
  | link
  /-- A handle, the objects of a collection, a collection or a frame goes. -/
  | loss

/-- One change of a store. -/
inductive Change (s : Store) : ChangeKind → Store → Prop
  | hold (target : Option ObjectKey) (h : ∀ k, target = some k → s.existsObject k = true) :
      Change s .gain (s.withHandle target)
  | unlink (r : Reference) (k : ObjectKey) (h : s.target r = some k) :
      Change s .loss (s.withoutTarget r.key k)
  | forget (r : Reference) (h : s.target r = none) :
      Change s .loss { s with handles := s.handles.erase r.key }
  | newObject (t : DataType) (payload : t.payload.Value) :
      Change s .gain (s.withNewObject t payload)
  | access (k : ObjectKey) : Change s .gain (s.advanceOwner k)
  | edit {t : DataType} (k : ObjectKey) (old new : Body t) (hold : s.body t k = .ok old)
      (hlinks : s.LinksTyped new)
      (hwindows : ∀ windows, new.toMany = .windows windows → old.toMany = .windows windows)
      (hsingles : new.toOne = old.toOne)
      (hrelations : new.toMany = old.toMany ∨
        ∃ (r : Fin t.toMany.length) (ks : List ObjectKey), s.links k old r = .ok ks) :
      Change s .gain ((s.advanceOwner k).setBody k new)
  | setPlace {t : DataType} (k : ObjectKey) (body : Body t) (r : Fin t.toOne.length)
      (place : Option ObjectKey) (hbody : s.body t k = .ok body)
      (hplace : ∀ target, place = some target →
        s.typeName? (some target) = some (t.toOne.get r).target) :
      Change s .link ((s.advanceOwner k).setBody k { body with toOne := setAt body.toOne r place })
  | found (col : Collection) (bodies : List (Body col.type)) (hprepared : col.prepared = none)
      (horigin : ∀ origin, col.origin = some origin →
        ∃ toMany toOne, origin.columns = .stored toMany toOne)
      (h : s.Founds col bodies) :
      Change s .gain (s.withFounded col bodies)
  | adopt (c : CollectionKey) (k : ObjectKey) (col : Collection) (o : Object)
      (n : UInt32)
      (hloose : s.isLoose c) (hcol : s.collections.get? c = some col)
      (hnormal : col.isSubset = false) (hobject : s.objects.get? k = some o)
      (htype : o.type = col.type) (hfloating : o.tracking = .floating n)
      (hheld : s.isHeld k = true) :
      Change s .gain (s.withAdopted c col.size k)
  | enlist (c : CollectionKey) (k : ObjectKey) (col : Collection) (o : Object) (owner : CollectionKey)
      (position : Nat) (hloose : s.isLoose c) (hcol : s.collections.get? c = some col)
      (hsubset : col.isSubset = true) (hobject : s.objects.get? k = some o)
      (htype : o.type = col.type) (howned : o.tracking = .owned owner position) :
      Change s .gain (s.modifyCollection c (appendSlot · (.linked k)))
  | reset (c : CollectionKey) (col : Collection) (subset : Bool) (hloose : s.isLoose c)
      (hcol : s.collections.get? c = some col) :
      Change s .loss (s.withReset c col subset)
  | remove (c : CollectionKey) (col : Collection) (hloose : s.isLoose c)
      (hcol : s.collections.get? c = some col) (hempty : col.storage.objects = []) :
      Change s .loss { s with collections := s.collections.erase c }
  | renumber (c : CollectionKey) (id : CollectionId) (hloose : s.isLoose c) :
      Change s .gain (s.modifyCollection c fun col => { col with id }.touch)
  | resolveSubset (c : CollectionKey) (col : Collection) (origin : Origin col.type)
      (slots : Array Slot) (linked : List ObjectKey)
      (hcol : s.collections.get? c = some col) (hstorage : col.storage = .subset slots)
      (horigin : col.origin = some origin) (hunresolved : col.isUnresolved = true)
      (hlinked : ∀ k ∈ linked, ∃ o, s.objects.get? k = some o ∧ o.type = col.type ∧
        ∀ n, o.tracking ≠ .floating n) :
      Change s .gain (s.modifyCollection c fun col' =>
        { withColumns col' (⟨origin.id, .resolved (Vector.replicate _ [])⟩ : Origin col.type) with
          storage := .subset (linked.map Slot.linked).toArray })
  | resolveOwned (c : CollectionKey) (col : Collection) (objects : Array ObjectKey)
      (id : CollectionId) (toMany : Vector (List ObjectId) col.type.toMany.length)
      (toOne : Vector (List ObjectId) col.type.toOne.length)
      (many : Vector (List ObjectKey) col.type.toMany.length)
      (one : Vector (List (Option ObjectKey)) col.type.toOne.length)
      (hcol : s.collections.get? c = some col) (hstorage : col.storage = .owned objects)
      (horigin : col.origin = some ⟨id, .stored toMany toOne⟩)
      (hlength : ∀ r : Fin col.type.toMany.length, many[r].length = toMany[r].length)
      (hsingles : ∀ r : Fin col.type.toOne.length, one[r].length = toOne[r].length)
      (hmany : ∀ r : Fin col.type.toMany.length, ∀ k ∈ many[r],
        s.typeName? (some k) = some (col.type.toMany.get r).target)
      (hone : ∀ r : Fin col.type.toOne.length, ∀ k, some k ∈ one[r] →
        s.typeName? (some k) = some (col.type.toOne.get r).target) :
      Change s .gain ((assignAllSingles one 0 objects.toList s).modifyCollection c fun col' =>
        withColumns col' (⟨id, .resolved many⟩ : Origin col.type))
  | keep (c : CollectionKey) (col : Collection) (buffers : Buffers)
      (hcol : s.collections.get? c = some col) (hflat : s.flattenCollection col = .ok buffers) :
      Change s .gain ({ s with serial := s.serial + 1 }.modifyCollection c fun col' =>
        { col' with prepared := some ⟨s.stamps c col, buffers, s.serial⟩ })
  | unkeep (c : CollectionKey) :
      Change s .gain (s.modifyCollection c fun col => { col with prepared := none })
  | newFrame (config : Config) : Change s .gain { s with frames := s.frames.insert { config } }
  | adoptIds (f : FrameKey) (frame : Frame) (ids : IdTable) (parameters : Parameters)
      (hframe : s.frames.get? f = some frame) (hempty : frame.slots = []) (hids : ids.Built) :
      Change s .gain (s.modifyFrame f fun frame => { frame with ids, parameters })
  | setParameters (f : FrameKey) (parameters : Parameters) :
      Change s .gain (s.modifyFrame f fun frame => { frame with parameters })
  | putSlot (f : FrameKey) (frame : Frame) (name : String) (c : CollectionKey) (col : Collection)
      (ids : IdTable) (hloose : s.isLoose c) (hcol : s.collections.get? c = some col)
      (hframe : s.frames.get? f = some frame) (hfresh : frame.contains name = false)
      (hids : frame.ids.add name = .ok (col.id, ids)) :
      Change s .gain (s.modifyFrame f fun frame => { frame with ids }.push name col.id c)
  | takeSlot (f : FrameKey) (position : Nat) :
      Change s .gain (s.modifyFrame f (·.removeAt position s.numberOf))
  | eraseFrame (f : FrameKey) : Change s .loss { s with frames := s.frames.erase f }

/-- A sequence of changes of one kind. -/
abbrev Changes (kind : ChangeKind) : Store → Store → Prop :=
  Relation.ReflTransGen fun s s' => Change s kind s'

end Store
end EventModel
