import EventModel.Proofs.Store.Mirror
import EventModel.Proofs.Store.Reading

/-!
# Where the links of a frame lead

The links of a frame are named by paths: a collection, an object in it, and a relation of the
object or a place of a subset collection. `targetIn` reads what a path leads to now, and `addressIn`
what the flat form of the frame stores for it.
-/

namespace EventModel

/-- A link within a collection. -/
inductive LinkPath
  | toMany (object relation position : Nat)
  | toOne (object relation : Nat)
  | place (position : Nat)
  deriving DecidableEq, Repr

/-- The address that a flat form holds for a link. -/
def Flat.address? {t : DataType} : Flat t → LinkPath → Option ObjectId
  | .owned rows, .toMany i r p =>
    (rows[i]?).bind fun row => if h : r < t.toMany.length then row.toMany[r][p]? else none
  | .owned rows, .toOne i r =>
    (rows[i]?).bind fun row =>
      if h : r < t.toOne.length then some row.toOne[r] |>.filter (!·.isUntracked) else none
  | .subset ids, .place i => ids[i]?
  | _, _ => none

namespace Store

variable {s s' : Store} {frame frame' : Frame} {entries : List FlatCollection}

/-! ## Reading through a frame -/

/-- The collection that a frame holds under a name. -/
def collectionIn (s : Store) (frame : Frame) (name : String) : Option Collection :=
  (frame.collection? name).bind s.collections.get?

/-- The object at a position of a collection of a frame. -/
def objectIn (s : Store) (frame : Frame) (name : String) (i : Nat) : Option ObjectKey :=
  (s.collectionIn frame name).bind fun col => (objectAtPosition col i).toOption

/-- The object at a position of a to-many relation of an object, if it still exists. -/
def relatedAt (s : Store) (k : ObjectKey) (relation position : Nat) : Option ObjectKey := do
  let o ← s.objects.get? k
  let places ← (s.related o.type (some k) relation).toOption
  (places[position]?).join

/-- The object of a to-one relation of an object, if it is set and still exists. -/
def singleAt (s : Store) (k : ObjectKey) (relation : Nat) : Option ObjectKey := do
  let o ← s.objects.get? k
  let place ← (s.single o.type (some k) relation).toOption
  place.join

/-- The object that a link of a frame leads to. -/
def targetIn (s : Store) (frame : Frame) (name : String) : LinkPath → Option ObjectKey
  | .toMany i r p => (s.objectIn frame name i).bind (s.relatedAt · r p)
  | .toOne i r => (s.objectIn frame name i).bind (s.singleAt · r)
  | .place i =>
    (s.collectionIn frame name).bind fun col =>
      if col.isSubset then (objectAtPosition col i).toOption else none

/-- The address that is stored for a link of a frame when the frame is written. -/
def addressIn (s : Store) (frame : Frame) (name : String) (path : LinkPath) : Option ObjectId :=
  (s.collectionIn frame name).bind fun col => (s.flatOf col).toOption.bind (·.address? path)

/-- Every address that is stored for a link leads, within the frame, to the object that the link
leads to. -/
def IsFaithful (s : Store) (frame : Frame) : Prop :=
  ∀ name path id, s.addressIn frame name path = some id →
    ∃ k, s.targetIn frame name path = some k ∧
      s.resolveObject frame.resolver id = .ok k

/-! ## Reading one object -/

section Objects

variable {t : DataType} {k k' : ObjectKey} {body : Body t}

theorem relatedAt_eq_some_iff (hbody : s.body t k = .ok body) {r p : Nat} :
    s.relatedAt k r p = some k' ↔ ∃ (h : r < t.toMany.length) (ks : List ObjectKey),
      s.links k body ⟨r, h⟩ = .ok ks ∧ ks[p]? = some k' ∧ s.existsObject k' = true := by
  rcases body_eq_ok_iff.1 hbody with ⟨tracking, hk, -⟩
  have hrelated : s.relatedAt k r p =
      (s.related t (some k) r).toOption.bind fun places => (places[p]?).join := by
    unfold relatedAt
    rw [hk]
    rfl
  rw [hrelated]
  by_cases hr : r < t.toMany.length
  · have hmap := related_eq_map hbody ⟨r, hr⟩
    dsimp only at hmap
    rw [hmap]
    rcases hlinks : s.links k body ⟨r, hr⟩ with e | ks
    · constructor
      · intro hfalse
        cases hfalse
      · rintro ⟨h, ks, hks, -⟩
        cases hlinks.symm.trans hks
    -- a place shows its object only as long as the object exists
    · have hjoin : ((ks.map s.placeOf)[p]?).join = some k' ↔
          ks[p]? = some k' ∧ s.existsObject k' = true := by
        rw [Option.join_eq_some_iff, List.getElem?_map, Option.map_eq_some_iff]
        simp only [placeOf_eq_some_iff]
        constructor
        · rintro ⟨k₁, hk₁, rfl, hexists⟩
          exact ⟨hk₁, hexists⟩
        · rintro ⟨hk', hexists⟩
          exact ⟨k', hk', rfl, hexists⟩
      constructor
      · intro hsome
        exact ⟨hr, ks, hlinks, hjoin.1 hsome⟩
      · rintro ⟨h, ks', hks', hrest⟩
        cases hlinks.symm.trans hks'
        exact hjoin.2 hrest
  · rw [related_eq_error hr]
    constructor
    · intro hfalse
      cases hfalse
    · rintro ⟨h, -⟩
      exact absurd h hr

theorem singleAt_eq_some_iff (hbody : s.body t k = .ok body) {r : Nat} :
    s.singleAt k r = some k' ↔ ∃ h : r < t.toOne.length,
      body.toOne[r] = some k' ∧ s.existsObject k' = true := by
  rcases body_eq_ok_iff.1 hbody with ⟨tracking, hk, -⟩
  have hsingle : s.singleAt k r = (s.single t (some k) r).toOption.bind Option.join := by
    unfold singleAt
    rw [hk]
    rfl
  rw [hsingle]
  by_cases hr : r < t.toOne.length
  · have hmap := single_eq_ok hbody ⟨r, hr⟩
    dsimp only at hmap
    rw [hmap]
    change (body.toOne[r].map s.placeOf).join = some k' ↔ _
    rw [Option.join_eq_some_iff, Option.map_eq_some_iff]
    simp only [placeOf_eq_some_iff]
    constructor
    · rintro ⟨k₁, hk₁, rfl, hexists⟩
      exact ⟨hr, hk₁, hexists⟩
    · rintro ⟨h, hk', hexists⟩
      exact ⟨k', hk', rfl, hexists⟩
  · rw [single_eq_error hr]
    constructor
    · intro hfalse
      cases hfalse
    · rintro ⟨h, -⟩
      exact absurd h hr

end Objects

theorem Resolves.existsObject (h : WellFormed s) {resolver : Resolver} {type : String}
    {id : ObjectId} {k : ObjectKey} (hk : s.Resolves resolver type id k) :
    s.existsObject k = true :=
  existsObject_of_resolveObject h hk.object

/-! ## Reading a frame and its mirror -/

theorem Keeps.getElem? (h : WellFormed s) {c : CollectionKey} {col : Collection} {i : Nat}
    {k : ObjectKey} (hk : s.Keeps c i k) (hcol : s.collections.get? c = some col) :
    ∃ objects, col.storage = .owned objects ∧ objects[i]? = some k := by
  rcases hk with ⟨o, ho, htracking⟩
  rcases h.owner k o c i ho htracking with ⟨col', objects, hcol', hstorage, hi⟩
  cases hcol.symm.trans hcol'
  exact ⟨objects, hstorage, hi⟩

/-- The object that a collection of the frame keeps is found there. -/
theorem objectIn_of_keeps (h : WellFormed s) (hheld : ∃ f, s.frames.get? f = some frame)
    {name : String} {c : CollectionKey} (hslot : (name, c) ∈ frame.slots) {i : Nat} {k : ObjectKey}
    (hk : s.Keeps c i k) : s.objectIn frame name i = some k := by
  rcases hheld with ⟨f, hframe⟩
  have hname : frame.collection? name = some c :=
    collection?_of_mem h hframe hslot
  rcases h.held f frame name c hframe hslot with ⟨col, hcol, -⟩
  rcases hk.getElem? h hcol with ⟨objects, hstorage, hi⟩
  have hplace : objectAtPosition col i = .ok k := by
    unfold objectAtPosition
    rw [hstorage]
    dsimp only
    rw [hi]
  simp [objectIn, collectionIn, hname, hcol, hplace, Except.toOption]

namespace Pairs

variable {e : FlatCollection} {c c' : CollectionKey}

/-- The address that is stored for a link is the one in the flat form of its collection. -/
theorem addressIn_eq (hpairs : Pairs s s' frame frame' e c c') {name : String}
    (hname : frame.collection? name = some c) (path : LinkPath) :
    s.addressIn frame name path = e.flat.address? path := by
  rcases hpairs.flat.flatOf with ⟨config, storage, generation, prepared, origin, hcol, hflat⟩
  unfold addressIn collectionIn
  rw [hname, Option.bind_some, hcol, Option.bind_some, hflat]
  rfl

/-- Objects at one position were flattened to a row and restored from it. -/
theorem exists_row (hpairs : Pairs s s' frame frame' e c c') (h : WellFormed s)
    (h' : WellFormed s') {i : Nat} {k k' : ObjectKey} (hk : s.Keeps c i k)
    (hk' : s'.Keeps c' i k') :
    ∃ (rows : List (Row e.type)) (row : Row e.type) (origin : Option (Origin e.type))
      (extents : Extents e.type) (body body' : Body e.type),
      e.flat = .owned rows ∧ rows[i]? = some row ∧ s.Flattens origin extents i k body row ∧
        s'.body e.type k' = .ok body' ∧ s'.Restores frame'.resolver k' row body' := by
  rcases hpairs with ⟨-, -, hflat, hrestored⟩
  rcases e with ⟨name, number, t, flat⟩
  dsimp only at hflat hrestored ⊢
  cases hflat with
  | owned hstands hrows =>
    rcases hstands with ⟨config, generation, prepared, hcol⟩
    cases hrestored with
    | owned hstands' hlength hobjects =>
      rcases hstands' with ⟨config', generation', prepared', hcol'⟩
      rcases hk.getElem? h hcol with ⟨objects, hstorage, hi⟩
      rcases hk'.getElem? h' hcol' with ⟨objects', hstorage', hi'⟩
      cases hstorage
      cases hstorage'
      rw [List.getElem?_toArray] at hi hi'
      rcases hrows.getElem?_of_key hi with ⟨row, extents, body, hrow, hflattens⟩
      rcases hobjects i k' row hi' hrow with ⟨body', hbody', hrestores⟩
      rw [Nat.zero_add] at hflattens
      exact ⟨_, row, _, extents, body, body', rfl, hrow, hflattens,
        body_eq_ok_iff.2 ⟨_, hbody', by simp⟩, hrestores⟩
  | subset hstands hids =>
    rcases hstands with ⟨config, generation, prepared, hcol⟩
    rcases hk.getElem? h hcol with ⟨objects, hstorage, -⟩
    cases hstorage

end Pairs

end Store

end EventModel
