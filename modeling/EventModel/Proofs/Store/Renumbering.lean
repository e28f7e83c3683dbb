import EventModel.Proofs.Store.Closed
import EventModel.Proofs.Store.ReadBack
import EventModel.Proofs.Store.Readers
import EventModel.Proofs.Store.Refused

/-!
# Renumbering a collection

A collection gets a number when one is set or when a frame takes it. The addresses of its objects
follow, and so does every stored address that is computed from a link to one of them: all others are
written as before (`Renumbers.flatten`). What a collection keeps of the buffers that it was rebuilt
from does not follow, neither the addresses that wait for resolution nor the number that its objects
report while they do (`renumbered_of_givesNumber`).
-/

namespace EventModel

variable {t : DataType}

/-- The address with another number for its collection. -/
def ObjectId.withCollection (address : ObjectId) (id : CollectionId) : ObjectId :=
  { address with collection := id }

@[simp]
theorem ObjectId.isUntracked_withCollection (address : ObjectId) (id : CollectionId) :
    (address.withCollection id).isUntracked = address.isUntracked := rfl

/-- The row of the object at a position, with changed addresses for its links. -/
def Row.mapIds (f : LinkPath → ObjectId → ObjectId) (position : Nat) (row : Row t) : Row t :=
  { row with
    toMany := Vector.ofFn fun r => row.toMany[r].mapIdx fun p => f (.toMany position r p)
    toOne := Vector.ofFn fun r => f (.toOne position r) row.toOne[r] }

/-- The flat form with changed addresses for its links, and everything else as it is. -/
def Flat.mapIds (f : LinkPath → ObjectId → ObjectId) : Flat t → Flat t
  | .owned rows => .owned (rows.mapIdx fun i => Row.mapIds f i)
  | .subset ids => .subset (ids.mapIdx fun i => f (.place i))

/-- Other addresses take up the same room. -/
theorem Extents.add_mapIds (extents : Extents t) (f : LinkPath → ObjectId → ObjectId)
    (position : Nat) (row : Row t) : extents.add (row.mapIds f position) = extents.add row := by
  simp [Extents.add, Row.mapIds]

namespace Store

variable {s s' : Store} {c d : CollectionKey} {col other : Collection} {id : CollectionId}
  {k k' : ObjectKey}

/-! ## Stores that differ in one number -/

/-- The stores differ in the number of the collection `c` and in what counts its changes. -/
structure Renumbers (s s' : Store) (c : CollectionKey) (col : Collection) (id : CollectionId) :
    Prop where
  objects : s'.objects = s.objects
  handles : s'.handles = s.handles
  before : s.collections.get? c = some col
  after : s'.collections.get? c = some { col with id }.touch
  others : ∀ d, d ≠ c → s'.collections.get? d = s.collections.get? d

/-- The collection gets the number: it is set, or a frame takes the collection. -/
inductive GivesNumber (s : Store) (c : CollectionKey) (id : CollectionId) : Store → Prop
  | set : GivesNumber s c id (setCollectionId c id s).2
  | put {f : FrameKey} {name : String} {s' : Store} (h : put f name c s = (.ok id, s')) :
      GivesNumber s c id s'

theorem renumbers_withPut (hcol : s.collections.get? c = some col) (f : FrameKey) (name : String)
    (id : CollectionId) (ids : IdTable) : Renumbers s (s.withPut f name c id ids) c col id where
  objects := rfl
  handles := rfl
  before := hcol
  after := Arena.get?_modify_self hcol _
  others _ hd := Arena.get?_modify_ne hd.symm _

theorem GivesNumber.renumbers (h : GivesNumber s c id s') (hcol : s.collections.get? c = some col) :
    Renumbers s s' c col id := by
  cases h with
  | set =>
    exact ⟨rfl, rfl, hcol, Arena.get?_modify_self hcol _, fun d hd => Arena.get?_modify_ne hd.symm _⟩
  | @put f name s' hput =>
    rcases put_cases f name c s with ⟨e, herror⟩ | ⟨e, herror⟩ | ⟨frame, id', ids, -, -, hok⟩
    · cases hput.symm.trans herror
    · cases hput.symm.trans herror
    · cases hput.symm.trans hok
      exact renumbers_withPut hcol f name id ids

/-- The address of an object once the collection `c` has the number `id`. -/
def renumberedId (s : Store) (c : CollectionKey) (id : CollectionId) (k : ObjectKey)
    (address : ObjectId) : ObjectId :=
  if s.ownerOf? k = some c then address.withCollection id else address

/-- The object that a link within a collection leads to. -/
def linkIn (s : Store) (col : Collection) : LinkPath → Option ObjectKey
  | .toMany i r p => (objectAtPosition col i).toOption.bind (s.relatedAt · r p)
  | .toOne i r => (objectAtPosition col i).toOption.bind (s.singleAt · r)
  | .place i => if col.isSubset then (objectAtPosition col i).toOption else none

/-- The address that is written for a link once the collection `c` has the number `id`, if
`address` was written before. What is not computed from a link is written as before. -/
def renumbered (s : Store) (c : CollectionKey) (id : CollectionId) (col : Collection)
    (path : LinkPath) (address : ObjectId) : ObjectId :=
  match s.linkIn col path with
  | some k => s.renumberedId c id k address
  | none => address

theorem renumbered_of_some {path : LinkPath} (h : s.linkIn other path = some k)
    (address : ObjectId) :
    s.renumbered c id other path address = s.renumberedId c id k address := by
  rw [renumbered, h]

theorem renumbered_of_none {path : LinkPath} (h : s.linkIn other path = none)
    (address : ObjectId) : s.renumbered c id other path address = address := by
  rw [renumbered, h]

@[simp]
theorem isUntracked_renumberedId (address : ObjectId) :
    (s.renumberedId c id k address).isUntracked = address.isUntracked := by
  unfold renumberedId
  split <;> simp

@[simp]
theorem isUntracked_renumbered (path : LinkPath) (address : ObjectId) :
    (s.renumbered c id other path address).isUntracked = address.isUntracked := by
  unfold renumbered
  split <;> simp

namespace Renumbers

/-- Every collection is there before and after, with the same type, objects and columns. -/
theorem collection (h : Renumbers s s' c col id) (hd : s.collections.get? d = some other) :
    ∃ generation prepared, s'.collections.get? d =
      some { other with id := if d = c then id else other.id, generation, prepared } := by
  by_cases heq : d = c
  · subst heq
    cases h.before.symm.trans hd
    exact ⟨col.generation + 1, none, by rw [h.after, if_pos rfl]; rfl⟩
  · exact ⟨other.generation, other.prepared, by rw [h.others d heq, hd, if_neg heq]⟩

/-- What does not depend on the number of a collection or on its changes stays the same. -/
theorem map_get? (h : Renumbers s s' c col id) {α : Type} {f : Collection → α}
    (hf : ∀ (x : Collection) id generation prepared, f { x with id, generation, prepared } = f x)
    (d : CollectionKey) : (s'.collections.get? d).map f = (s.collections.get? d).map f := by
  rcases hd : s.collections.get? d with _ | other
  · have hne : d ≠ c := by
      rintro rfl
      cases h.before.symm.trans hd
    rw [h.others d hne, hd]
  · rcases h.collection hd with ⟨generation, prepared, hd'⟩
    rw [hd', Option.map_some, Option.map_some, hf]

theorem existsObject (h : Renumbers s s' c col id) (k : ObjectKey) :
    s'.existsObject k = s.existsObject k :=
  existsObject_congr (tracking?_congr (by rw [h.objects])) h.handles
    (h.map_get? fun _ _ _ _ => rfl)

theorem body (h : Renumbers s s' c col id) (t : DataType) (k : ObjectKey) :
    s'.body t k = s.body t k :=
  body_congr (by rw [h.objects]) t

/-- The columns of an object are the same. -/
theorem originOf (h : Renumbers s s' c col id) (t : DataType) (k : ObjectKey) :
    s'.originOf t k = s.originOf t k :=
  originOf_congr (tracking?_congr (by rw [h.objects])) (h.map_get? fun _ _ _ _ => rfl)

/-- The address of an object changes only with the number of its own collection. -/
theorem addressOf (h : Renumbers s s' c col id) {o : Object} (ho : s.objects.get? k = some o) :
    s'.addressOf o = s.renumberedId c id k (s.addressOf o) := by
  rcases htracking : o.tracking with n | ⟨d, i⟩ | _
  · have hnone : s.ownerOf? k ≠ some c := by simp [ownerOf?, ho, Object.owner?, htracking]
    rw [renumberedId, if_neg hnone, Store.addressOf, Store.addressOf, htracking]
  · have howner : s.ownerOf? k = some d := ownerOf?_of_tracking ho htracking
    by_cases heq : d = c
    · subst heq
      rw [renumberedId, if_pos howner, addressOf_of_owned htracking h.after,
        addressOf_of_owned htracking h.before]
      rfl
    · have hne : s.ownerOf? k ≠ some c := by
        rw [howner]
        exact fun hsome => heq (Option.some.inj hsome)
      rw [renumberedId, if_neg hne, Store.addressOf, Store.addressOf, htracking]
      dsimp only
      rw [h.others d heq]
  · have hnone : s.ownerOf? k ≠ some c := by simp [ownerOf?, ho, Object.owner?, htracking]
    rw [renumberedId, if_neg hnone, Store.addressOf, Store.addressOf, htracking]

theorem idOf (h : Renumbers s s' c col id) {address : ObjectId}
    (hid : s.idOf (some k) = .ok address) :
    s'.idOf (some k) = .ok (s.renumberedId c id k address) := by
  rcases idOf_eq_ok hid with ⟨o, ho, hreleased, rfl⟩
  rw [← h.addressOf ho]
  have havailable : s'.available (some k) = .ok o := by
    simp [available, h.objects, ho, hreleased]
  rw [Store.idOf, havailable]
  rfl

theorem linkId (h : Renumbers s s' c col id) {address : ObjectId}
    (hlink : s.linkId k = .ok address) :
    s'.linkId k = .ok (s.renumberedId c id k address) := by
  unfold Store.linkId at hlink ⊢
  rw [h.existsObject k]
  by_cases hexists : s.existsObject k = true
  · rw [if_pos hexists] at hlink ⊢
    exact h.idOf hlink
  · rw [if_neg hexists] at hlink
    cases hlink

end Renumbers

/-! ## What is written -/

theorem existsObject_of_linkId {address : ObjectId} (h : s.linkId k = .ok address) :
    s.existsObject k = true := by
  unfold linkId at h
  split at h
  · assumption
  · cases h

section Rows

variable {t : DataType} {body : Body t} {origin : Option (Origin t)} {extents : Extents t}
  {position : Nat} {row : Row t}

/-- Lists that differ by a function of the positions. -/
theorem forall₂_mapIdx {α β γ : Type} {R : α → β → Prop} {S : α → γ → Prop} {xs : List α}
    {ys : List β} {f : Nat → β → γ} (h : List.Forall₂ R xs ys)
    (hf : ∀ i x y, xs[i]? = some x → R x y → S x (f i y)) : List.Forall₂ S xs (ys.mapIdx f) := by
  induction h generalizing f with
  | nil => exact .nil
  | @cons x y xs ys hhead _ ih =>
    rw [List.mapIdx_cons]
    refine .cons (hf 0 x y rfl hhead) (ih ?_)
    intro i x' y' hx' hR
    exact hf (i + 1) x' y' (by simpa using hx') hR

theorem mapIdx_eq_self {α : Type} {xs : List α} {f : Nat → α → α} (h : ∀ i x, f i x = x) :
    xs.mapIdx f = xs := by
  apply List.ext_getElem?
  intro i
  rw [List.getElem?_mapIdx]
  cases xs[i]? <;> simp [h]

/-- The addresses of a to-many relation, with those of the objects of `c` renumbered. Addresses that
wait for resolution are not those of objects. -/
theorem Renumbers.relatedIds (h : Renumbers s s' c col id) (hbody : s.body t k = .ok body)
    (hplace : objectAtPosition other position = .ok k) {r : Fin t.toMany.length}
    {ids : List ObjectId} (hids : s.relatedIds k body r = .ok ids) :
    s'.relatedIds k body r =
      .ok (ids.mapIdx fun p => s.renumbered c id other (.toMany position r p)) := by
  have hlink : ∀ p, s.linkIn other (.toMany position r p) = s.relatedAt k r p := by
    intro p
    rw [linkIn, hplace]
    rfl
  rcases relatedIds_cases hids with ⟨ks, hks, hids⟩ | ⟨windows, n, many, one, hmany, horigin, hids⟩
  · have hks' : s'.links k body r = .ok ks := by
      rw [links_congr (h.originOf t k), hks]
    rw [relatedIds_of_links hks', mapM_eq_ok_iff]
    refine forall₂_mapIdx (mapM_eq_ok_iff.1 hids) ?_
    intro p k' address hk' haddress
    have hrelated : s.relatedAt k r p = some k' :=
      (relatedAt_eq_some_iff hbody).2 ⟨r.isLt, ks, hks, hk', existsObject_of_linkId haddress⟩
    rw [renumbered_of_some ((hlink p).trans hrelated)]
    exact h.linkId haddress
  · -- the relation waits, so its places are not links yet
    have hnone : ∀ p, s.relatedAt k r p = none := by
      intro p
      rw [Option.eq_none_iff_forall_not_mem]
      intro k' hk'
      rcases (relatedAt_eq_some_iff hbody).1 hk' with ⟨hr, ks, hks, -⟩
      unfold links at hks
      rw [hmany] at hks
      rcases bind_eq_ok_iff.1 hks with ⟨origin, horigin', hks⟩
      cases horigin.symm.trans horigin'
      cases hks
    rw [mapIdx_eq_self fun p address => renumbered_of_none ((hlink p).trans (hnone p)) address]
    unfold Store.relatedIds
    rw [hmany]
    exact bind_eq_ok_iff.2 ⟨_, (h.originOf t k).trans horigin, hids⟩

theorem Renumbers.singleId (h : Renumbers s s' c col id) (hbody : s.body t k = .ok body)
    (hplace : objectAtPosition other position = .ok k) {r : Fin t.toOne.length}
    {address : ObjectId} (hid : s.singleId origin position body r = .ok address) :
    s'.singleId origin position body r =
      .ok (s.renumbered c id other (.toOne position r) address) := by
  have hlink : s.linkIn other (.toOne position r) = s.singleAt k r := by
    rw [linkIn, hplace]
    rfl
  rcases hsome : body.toOne[r] with _ | k'
  · have hnone : s.singleAt k r = none := by
      rw [Option.eq_none_iff_forall_not_mem]
      intro k' hk'
      rcases (singleAt_eq_some_iff hbody).1 hk' with ⟨hr, hk', -⟩
      cases hsome.symm.trans hk'
    rw [renumbered_of_none (hlink.trans hnone)]
    simp only [Store.singleId, hsome] at hid ⊢
    exact hid
  · rcases (singleId_eq_ok_of_some hsome).1 hid with ⟨hid, htracked⟩
    have hsingle : s.singleAt k r = some k' :=
      (singleAt_eq_some_iff hbody).2 ⟨r.isLt, hsome, existsObject_of_linkId hid⟩
    rw [renumbered_of_some (hlink.trans hsingle)]
    exact (singleId_eq_ok_of_some hsome).2 ⟨h.linkId hid, by simpa using htracked⟩

theorem Renumbers.flattens (h : Renumbers s s' c col id)
    (hrow : s.Flattens origin extents position k body row)
    (hplace : objectAtPosition other position = .ok k) :
    s'.Flattens origin extents position k body
      (row.mapIds (s.renumbered c id other) position) where
  read := by rw [h.body, hrow.read]
  payload := hrow.payload
  members := hrow.members
  toMany r := by
    rw [h.relatedIds hrow.read hplace (hrow.toMany r)]
    simp [Row.mapIds]
  tracked r address haddress := by
    simp only [Row.mapIds, getElem_fin, Vector.getElem_ofFn, List.mem_mapIdx] at haddress
    rcases haddress with ⟨p, hp, rfl⟩
    rw [isUntracked_renumbered]
    exact hrow.tracked r _ (List.getElem_mem hp)
  relationWindows r := by
    have hwindow := hrow.relationWindows r
    simpa [Row.mapIds] using hwindow
  memberWindows := hrow.memberWindows
  toOne r := by
    rw [h.singleId hrow.read hplace (hrow.toOne r)]
    simp [Row.mapIds]

/-- Object by object, from a position on. -/
theorem Renumbers.flattensAll (h : Renumbers s s' c col id) {keys : List ObjectKey}
    {rows : List (Row t)} (hrows : s.FlattensAll origin extents position keys rows)
    (hplaces : ∀ j k, keys[j]? = some k → objectAtPosition other (position + j) = .ok k) :
    s'.FlattensAll origin extents position keys
      (rows.mapIdx fun j => Row.mapIds (s.renumbered c id other) (position + j)) := by
  induction hrows with
  | nil extents position => exact .nil extents position
  | @cons extents position k keys body row rows hrow _ ih =>
    rw [List.mapIdx_cons]
    refine .cons (h.flattens hrow (hplaces 0 k rfl)) ?_
    rw [Nat.add_zero, Extents.add_mapIds]
    have hrest := ih fun j k' hk' => by
      have hplace := hplaces (j + 1) k' (by simpa using hk')
      rwa [← Nat.add_right_comm, Nat.add_assoc]
    have hshift : ∀ j, position + 1 + j = position + (j + 1) := by omega
    simpa only [hshift] using hrest

end Rows

theorem Renumbers.slotId (h : Renumbers s s' c col id) {slots : Array Slot} {i : Nat} {slot : Slot}
    (hstorage : other.storage = .subset slots) (hslot : slots[i]? = some slot)
    {address : ObjectId} (haddress : s.slotId slot = .ok address) :
    s'.slotId slot = .ok (s.renumbered c id other (.place i) address) := by
  have hlink : s.linkIn other (.place i) = (objectAtPosition other i).toOption := by
    rw [linkIn, Collection.isSubset, hstorage]
    rfl
  unfold objectAtPosition at hlink
  rw [hstorage] at hlink
  dsimp only at hlink
  rw [hslot] at hlink
  cases slot with
  | pending stored =>
    rw [renumbered_of_none hlink]
    exact haddress
  | linked k =>
    rw [renumbered_of_some hlink]
    exact h.idOf haddress

/-- The flat form of a collection, with the addresses of the links to objects of `c` renumbered. -/
theorem Renumbers.flatOf (h : Renumbers s s' c col id) {flat : Flat other.type}
    (hflat : s.flatOf other = .ok flat) :
    s'.flatOf other = .ok (flat.mapIds (s.renumbered c id other)) := by
  unfold Store.flatOf at hflat ⊢
  rcases hstorage : other.storage with objects | slots
  · simp only [hstorage, map_eq_ok_iff] at hflat ⊢
    rcases hflat with ⟨rows, hrows, rfl⟩
    have hplaces : ∀ j k, objects.toList[j]? = some k → objectAtPosition other (0 + j) = .ok k := by
      intro j k hk
      unfold objectAtPosition
      rw [hstorage, Nat.zero_add]
      dsimp only
      rw [← Array.getElem?_toList, hk]
    have hall := h.flattensAll (flattenObjects_eq_ok_iff.1 hrows) hplaces
    simp only [Nat.zero_add] at hall
    exact ⟨_, flattenObjects_eq_ok_iff.2 hall, rfl⟩
  · simp only [hstorage, map_eq_ok_iff] at hflat ⊢
    rcases hflat with ⟨ids, hids, rfl⟩
    refine ⟨_, mapM_eq_ok_iff.2 (forall₂_mapIdx (mapM_eq_ok_iff.1 hids) ?_), rfl⟩
    intro i slot address hslot haddress
    exact h.slotId hstorage (Array.getElem?_toList ▸ hslot) haddress

theorem flatten_eq_map (hd : s.collections.get? d = some other) :
    s.flatten d = Flat.buffers <$> s.flatOf other := by
  rw [Store.flatten, collection_eq_ok_iff.2 hd]
  exact flattenCollection_eq_map other

theorem Renumbers.flatten (h : Renumbers s s' c col id) (hd : s.collections.get? d = some other)
    {flat : Flat other.type} (hflat : s.flatOf other = .ok flat) :
    s'.flatten d = .ok (flat.mapIds (s.renumbered c id other)).buffers := by
  rcases h.collection hd with ⟨generation, prepared, hd'⟩
  have hflat' := h.flatOf hflat
  rw [flatten_eq_map hd']
  exact map_eq_ok_iff.2 ⟨flat.mapIds (s.renumbered c id other), hflat', rfl⟩

/-! ## Links and addresses that wait -/

/-- The link is not resolved yet: what is written for it is what was read. -/
inductive WaitsIn (col : Collection) : LinkPath → Prop
  | place {slots : Array Slot} {i : Nat} {address : ObjectId} (hstorage : col.storage = .subset slots)
      (hslot : slots[i]? = some (.pending address)) : WaitsIn col (.place i)
  | toMany (i r p : Nat) (h : col.isUnresolved = true) : WaitsIn col (.toMany i r p)
  | toOne (i r : Nat) (h : col.isUnresolved = true) : WaitsIn col (.toOne i r)

/-- The columns of an object are those of the collection that owns it. -/
theorem origin_of_originOf {o : Object} {i : Nat} (ho : s.objects.get? k = some o)
    (htracking : o.tracking = .owned d i) (hd : s.collections.get? d = some other)
    {origin : Origin other.type} (horigin : s.originOf other.type k = .ok origin) :
    other.origin = some origin := by
  rw [originOf_of_owned ho htracking hd, originAs_self] at horigin
  rcases hsome : other.origin with _ | found
  · rw [hsome] at horigin
    cases horigin
  · rw [hsome] at horigin
    rw [Except.ok.inj horigin]

theorem waitsIn_of_relatedIds (h : WellFormed s) {i : Nat} (hlists : s.ListsAt d i k)
    (hd : s.collections.get? d = some other) {body : Body other.type}
    (hbody : s.body other.type k = .ok body) {r : Fin other.type.toMany.length}
    {ids : List ObjectId} (hids : s.relatedIds k body r = .ok ids) {p : Nat} {address : ObjectId}
    (haddress : ids[p]? = some address) :
    WaitsIn other (.toMany i r p) ∨
      ∃ k', s.linkIn other (.toMany i r p) = some k' ∧ s.idOf (some k') = .ok address := by
  have hlink : s.linkIn other (.toMany i r p) = s.relatedAt k r p := by
    rw [linkIn, hlists.objectAtPosition hd]
    rfl
  rcases relatedIds_cases hids with ⟨ks, hks, hids⟩ | ⟨-, n, many, one, -, horigin, -⟩
  · rcases getElem?_of_forall₂ (mapM_eq_ok_iff.1 hids).flip haddress with ⟨k', hk', hid⟩
    refine .inr ⟨k', hlink.trans ?_, linkId_eq_ok hid⟩
    exact (relatedAt_eq_some_iff hbody).2 ⟨r.isLt, ks, hks, hk', existsObject_of_linkId hid⟩
  · rcases tracking?_eq_some_iff.1 (h.listsAt_iff.1 hlists) with ⟨o, ho, htracking⟩
    have hstored := origin_of_originOf ho htracking hd horigin
    exact .inl (.toMany i r p (isUnresolved_of_stored hstored))

theorem waitsIn_of_singleId {i : Nat} (hplace : objectAtPosition other i = .ok k)
    {body : Body other.type} (hbody : s.body other.type k = .ok body)
    {r : Fin other.type.toOne.length} {address : ObjectId}
    (hid : s.singleId other.origin i body r = .ok address)
    (htracked : address.isUntracked = false) :
    WaitsIn other (.toOne i r) ∨
      ∃ k', s.linkIn other (.toOne i r) = some k' ∧ s.idOf (some k') = .ok address := by
  have hlink : s.linkIn other (.toOne i r) = s.singleAt k r := by
    rw [linkIn, hplace]
    rfl
  rcases hsome : body.toOne[r] with _ | k'
  · -- only an address that waits is written for a relation without a link
    simp only [singleId, hsome] at hid
    rcases horigin : other.origin with _ | ⟨n, ⟨many, one⟩ | many⟩
    · rw [horigin] at hid
      cases hid
      cases htracked
    · exact .inl (.toOne i r (isUnresolved_of_stored horigin))
    · rw [horigin] at hid
      cases hid
      cases htracked
  · rcases (singleId_eq_ok_of_some hsome).1 hid with ⟨hid, -⟩
    refine .inr ⟨k', hlink.trans ?_, linkId_eq_ok hid⟩
    exact (singleAt_eq_some_iff hbody).2 ⟨r.isLt, hsome, existsObject_of_linkId hid⟩

/-- Every address that is written is the one of the object that its link leads to, unless the link
waits for resolution. -/
theorem waitsIn_or_linkIn (h : WellFormed s) (hd : s.collections.get? d = some other)
    {flat : Flat other.type} (hflat : s.flatOf other = .ok flat) {path : LinkPath}
    {address : ObjectId} (haddress : flat.address? path = some address) :
    WaitsIn other path ∨ ∃ k, s.linkIn other path = some k ∧ s.idOf (some k) = .ok address := by
  unfold Store.flatOf at hflat
  rcases hstorage : other.storage with objects | slots
  · simp only [hstorage, map_eq_ok_iff] at hflat
    rcases hflat with ⟨rows, hrows, rfl⟩
    have hall := flattenObjects_eq_ok_iff.1 hrows
    -- each row was made of the object at its position
    have hrow : ∀ i row, rows[i]? = some row → ∃ k extents body, s.ListsAt d i k ∧
        s.Flattens other.origin extents i k body row := by
      intro i row hrow
      rcases hall.getElem?_of_row hrow with ⟨k, extents, body, hkey, hflattens⟩
      rw [Nat.zero_add] at hflattens
      exact ⟨k, extents, body, ⟨other, objects, hd, hstorage, Array.getElem?_toList ▸ hkey⟩,
        hflattens⟩
    cases path with
    | toMany i r p =>
      rcases Option.bind_eq_some_iff.1 haddress with ⟨row, hsome, haddress⟩
      rcases Option.dite_none_right_eq_some.1 haddress with ⟨hr, haddress⟩
      rcases hrow i row hsome with ⟨k, extents, body, hlists, hflattens⟩
      exact waitsIn_of_relatedIds h hlists hd hflattens.read (hflattens.toMany ⟨r, hr⟩) haddress
    | toOne i r =>
      rcases Option.bind_eq_some_iff.1 haddress with ⟨row, hsome, haddress⟩
      rcases Option.dite_none_right_eq_some.1 haddress with ⟨hr, haddress⟩
      rcases Option.filter_eq_some_iff.1 haddress with ⟨⟨⟩, htracked⟩
      rcases hrow i row hsome with ⟨k, extents, body, hlists, hflattens⟩
      exact waitsIn_of_singleId (hlists.objectAtPosition hd) hflattens.read
        (hflattens.toOne ⟨r, hr⟩) (by simpa using htracked)
    | place i => cases haddress
  · simp only [hstorage, map_eq_ok_iff] at hflat
    rcases hflat with ⟨ids, hids, rfl⟩
    cases path with
    | toMany i r p => cases haddress
    | toOne i r => cases haddress
    | place i =>
      rcases getElem?_of_forall₂ (mapM_eq_ok_iff.1 hids).flip haddress with ⟨slot, hslot, hid⟩
      rw [Array.getElem?_toList] at hslot
      cases slot with
      | pending stored => exact .inl (.place hstorage hslot)
      | linked k =>
        refine .inr ⟨k, ?_, hid⟩
        unfold linkIn objectAtPosition
        simp only [Collection.isSubset, hstorage, hslot]
        rfl

/-! ## What a new number changes -/

/-- What a new number of the collection `c` changes, and what it leaves as it is. -/
structure Renumbered (s s' : Store) (c : CollectionKey) (col : Collection) (id : CollectionId) :
    Prop where
  /-- Every object of the collection keeps its index and gets the new number. -/
  objects : ∀ i k, s.ListsAt c i k →
    s.idOf (some k) = .ok (.ofPosition i col.id) ∧ s'.idOf (some k) = .ok (.ofPosition i id)
  /-- A collection that could be flattened can be flattened after it. What is written for links to
  objects of `c` has the new number, and everything else is as it was; every address that is written
  is that of a link, unless it waits for resolution. -/
  written : ∀ d other b, s.collections.get? d = some other → s.flatten d = .ok b →
    ∃ flat : Flat other.type, b = flat.buffers ∧
      s'.flatten d = .ok (flat.mapIds (s.renumbered c id other)).buffers ∧
      ∀ path address, flat.address? path = some address → WaitsIn other path ∨
        ∃ k, s.linkIn other path = some k ∧ s.idOf (some k) = .ok address
  /-- The places of the collection are refused under the new number. -/
  places : ∀ new n, s'.collections.get? c = some new → RefusesPlace new n → n = id
  /-- The relations of its objects are refused under the number that it was rebuilt with. -/
  relations : ∀ i k n, s.ListsAt c i k → s'.RefusesRelation col.type k n →
    ∃ columns, col.origin = some ⟨n, columns⟩

/-- A collection that gets a number, by itself or with a place in a frame, passes it on to its
objects and to every address that is computed from a link to one of them. The addresses that it was
rebuilt with stay as they are until it is resolved, and so does the number that its objects report
until then. -/
theorem renumbered_of_givesNumber (h : Reachable s) (hcol : s.collections.get? c = some col)
    (hnumber : s.GivesNumber c id s') : Renumbered s s' c col id where
  objects i k hlists := by
    rcases tracking?_eq_some_iff.1 (h.wellFormed.listsAt_iff.1 hlists) with ⟨o, ho, htracking⟩
    have hid : s.idOf (some k) = .ok (.ofPosition i col.id) := by
      have hlink := linkId_of_owned ho htracking
      rw [addressOf_of_owned htracking hcol] at hlink
      exact linkId_eq_ok hlink
    refine ⟨hid, ?_⟩
    rw [(hnumber.renumbers hcol).idOf hid, renumberedId, if_pos (ownerOf?_of_tracking ho htracking)]
    rfl
  written d other b hd hflat := by
    rw [flatten_eq_map hd, map_eq_ok_iff] at hflat
    rcases hflat with ⟨flat, hflat, rfl⟩
    exact ⟨flat, rfl, (hnumber.renumbers hcol).flatten hd hflat, fun path address haddress =>
      waitsIn_or_linkIn h.wellFormed hd hflat haddress⟩
  places new n hnew hrefused := by
    cases (hnumber.renumbers hcol).after.symm.trans hnew
    exact hrefused.eq_id
  relations i k n hlists hrefused := by
    have hren := hnumber.renumbers hcol
    rcases tracking?_eq_some_iff.1 (h.wellFormed.listsAt_iff.1 hlists) with ⟨o, ho, htracking⟩
    rcases hrefused.originOf with ⟨many, one, horigin⟩
    have ho' : s'.objects.get? k = some o := by rw [hren.objects, ho]
    have hsome : col.origin = some ⟨n, .stored many one⟩ :=
      origin_of_originOf ho' htracking hren.after horigin
    exact ⟨_, hsome⟩

/-! ## A collection that waits under another number -/

/-- A node that leads to itself, in a collection with the number 7. -/
def loopBuffers : Buffers where
  type := "Node"
  subset := false
  records := .encode nodeType.record [((5 : UInt8), #v[⟨0, 1⟩])]
  relations := [.encode .objectId [⟨0, ⟨7⟩⟩]]
  members := []

/-- The loop before it is resolved, and a node of another collection that leads to it. -/
def loopStore : Store :=
  let read := (getMutable nodeType 0 0 (rebuild nodeType loopBuffers ⟨7⟩ {} .empty).2).2
  (addRelated (t := nodeType) ⟨⟨⟨1⟩⟩⟩ 0 ⟨0⟩ (withNode 6 read)).2

/-- The loop under the number 9. -/
def renumberedLoop : Store :=
  (setCollectionId 0 ⟨9⟩ loopStore).2

def loopCollection : Collection :=
  (loopStore.collections.get? 0).get (by decide +kernel)

theorem reachable_loopStore : Reachable loopStore := by
  have hrebuilt := Reachable.empty.step (.rebuild nodeType loopBuffers ⟨7⟩ {})
  have hread := hrebuilt.step (.getMutable nodeType 0 0)
  have hnode := reachable_withNode 6 hread (by decide +kernel)
  exact hnode.step (.addRelated (t := nodeType) ⟨⟨⟨1⟩⟩⟩ 0 ⟨0⟩)

/-- The live link to the loop is written under the new number. The one that waits is still written
under the old number, which its object also reports. -/
theorem renumbered_of_givesNumber_loopStore :
    Renumbered loopStore renumberedLoop 0 loopCollection ⟨9⟩ ∧
      (loopStore.flatten 1).bind (·.relationIds 0) = .ok [⟨0, ⟨7⟩⟩] ∧
      (renumberedLoop.flatten 1).bind (·.relationIds 0) = .ok [⟨0, ⟨9⟩⟩] ∧
      (renumberedLoop.flatten 0).bind (·.relationIds 0) = .ok [⟨0, ⟨7⟩⟩] ∧
      renumberedLoop.related nodeType (some 0) 0 = .error (.unresolvedReferences "Node" ⟨7⟩) := by
  refine ⟨renumbered_of_givesNumber reachable_loopStore (Option.some_get _).symm .set, ?_⟩
  decide +kernel

end Store
end EventModel
