import Mathlib.Algebra.Ring.Nat
import EventModel.Proofs.Store.Mirror
import EventModel.Proofs.Store.Ownership
import EventModel.Proofs.Store.Reading

/-!
# Closed frames

A frame is closed if nothing in it waits for resolution and every link in it leads to an object that
one of its own collections owns. A closed frame can be written (`IsClosed.exists_flats`), and every
address that is written leads back to its object within the frame, so that a frame which is rebuilt
from the flat form can be resolved (`IsClosed.answers`).
-/

namespace EventModel

/-- A position below 2⁶³ is read off its address. -/
theorem ObjectId.position?_ofPosition {i : Nat} (h : i < 2 ^ 63) (id : CollectionId) :
    (ObjectId.ofPosition i id).position? = some i := by
  have hindex : (Int64.ofNat i).toInt = i := Int64.toInt_ofNat_of_lt h
  unfold position? ofPosition
  rw [if_pos h]
  dsimp only
  rw [hindex, if_neg (by omega), Int.toNat_natCast]

namespace Store

variable {s s' : Store} {t : DataType} {c : CollectionKey} {k k' : ObjectKey} {f : FrameKey}
  {frame : Frame} {name : String} {col : Collection}

/-! ## Closed frames -/

/-- A collection of the frame owns the object. -/
def IsHeldIn (s : Store) (frame : Frame) (k : ObjectKey) : Prop :=
  ∃ slot ∈ frame.slots, s.ownerOf? k = some slot.2

instance (frame : Frame) (k : ObjectKey) : Decidable (s.IsHeldIn frame k) :=
  inferInstanceAs (Decidable (∃ slot ∈ frame.slots, _))

/-- Positions in the collections of the frame are below 2⁶³, as those of objects in memory are. -/
def HasPositions (s : Store) (frame : Frame) : Prop :=
  ∀ slot ∈ frame.slots, ∀ col ∈ s.collections.get? slot.2, col.size ≤ 2 ^ 63

instance (frame : Frame) : Decidable (s.HasPositions frame) :=
  inferInstanceAs (Decidable (∀ slot ∈ frame.slots, ∀ col ∈ s.collections.get? slot.2, _))

/-- The length of a to-many relation of an object. -/
def relatedLength (s : Store) (t : DataType) (r : Nat) (k : ObjectKey) : Nat :=
  (s.relatedSize t (some k) r).toOption.getD 0

/-- The length of a vector member of an object. -/
def memberLength (s : Store) (t : DataType) (m : Nat) (k : ObjectKey) : Nat :=
  ((s.members t (some k) m).toOption.map List.length).getD 0

/-- The collection can be written, and what is written leads to objects of the frame only. -/
structure ClosesIn (s : Store) (frame : Frame) (col : Collection) : Prop where
  /-- Nothing waits for resolution. -/
  resolved : col.isUnresolved = false
  links : ∀ k ∈ col.storage.objects, ∀ k' ∈ s.linkedObjects col.type k, s.IsHeldIn frame k'
  places : ∀ place ∈ Store.places col, ∃ k ∈ place, s.IsHeldIn frame k
  /-- The columns are not longer than positions in them can say. -/
  relatedTotals : ∀ r : Fin col.type.toMany.length,
    (col.storage.objects.map (s.relatedLength col.type r)).sum < columnLimit
  memberTotals : ∀ m : Fin col.type.members.length,
    (col.storage.objects.map (s.memberLength col.type m)).sum < columnLimit
  /-- Positions are below 2⁶³, as those of objects in memory are. -/
  size : col.size ≤ 2 ^ 63

/-- Every collection of the frame is closed in it. -/
structure IsClosed (s : Store) (frame : Frame) : Prop where
  collections : ∀ slot ∈ frame.slots, ∀ col ∈ s.collections.get? slot.2, s.ClosesIn frame col

instance (frame : Frame) (col : Collection) : Decidable (s.ClosesIn frame col) :=
  decidable_of_iff
    (col.isUnresolved = false ∧
      (∀ k ∈ col.storage.objects, ∀ k' ∈ s.linkedObjects col.type k, s.IsHeldIn frame k') ∧
      (∀ place ∈ Store.places col, ∃ k ∈ place, s.IsHeldIn frame k) ∧
      (∀ r : Fin col.type.toMany.length,
        (col.storage.objects.map (s.relatedLength col.type r)).sum < columnLimit) ∧
      (∀ m : Fin col.type.members.length,
        (col.storage.objects.map (s.memberLength col.type m)).sum < columnLimit) ∧
      col.size ≤ 2 ^ 63)
    ⟨fun ⟨hresolved, hlinks, hplaces, hrelated, hmembers, hsize⟩ =>
        ⟨hresolved, hlinks, hplaces, hrelated, hmembers, hsize⟩,
      fun h => ⟨h.resolved, h.links, h.places, h.relatedTotals, h.memberTotals, h.size⟩⟩

instance (frame : Frame) : Decidable (s.IsClosed frame) :=
  decidable_of_iff
    (∀ slot ∈ frame.slots, ∀ col ∈ s.collections.get? slot.2, s.ClosesIn frame col)
    ⟨IsClosed.mk, IsClosed.collections⟩

theorem IsHeldIn.exists_listsAt (h : WellFormed s) (hk : s.IsHeldIn frame k) :
    ∃ slot ∈ frame.slots, ∃ i, s.ListsAt slot.2 i k := by
  rcases hk with ⟨slot, hslot, howner⟩
  rcases Option.bind_eq_some_iff.1 howner with ⟨o, ho, hsome⟩
  rcases owner?_eq_some_iff.1 hsome with ⟨i, htracking⟩
  exact ⟨slot, hslot, i, h.owner k o slot.2 i ho htracking⟩

/-! ## Links of a closed frame -/

theorem IsClosed.hasPositions (hclosed : s.IsClosed frame) : s.HasPositions frame :=
  fun slot hslot col hcol => (hclosed.collections slot hslot col hcol).size

/-- What an object of a closed frame leads to is in the frame. -/
theorem IsClosed.heldIn {id : CollectionId} {storage : Storage} {origin : Option (Origin t)}
    (hclosed : s.IsClosed frame) {slot : String × CollectionKey} (hslot : slot ∈ frame.slots)
    (hstands : s.Stands slot.2 t id storage origin) {i : Nat} (hlists : s.ListsAt slot.2 i k)
    (hk' : k' ∈ s.linkedObjects t k) : s.IsHeldIn frame k' := by
  rcases hstands with ⟨config, generation, prepared, hcol⟩
  rcases hlists with ⟨col, objects, hcol', hstorage, hi⟩
  cases hcol.symm.trans hcol'
  refine (hclosed.collections slot hslot _ hcol).links k ?_ k' hk'
  rw [hstorage]
  exact List.mem_of_getElem? ((Array.getElem?_toList).trans hi)

/-- An object of a frame has an address that leads to it within the frame. -/
theorem IsHeldIn.linkId (h : WellFormed s) (hframe : s.frames.get? f = some frame)
    (hpositions : s.HasPositions frame) (hk : s.IsHeldIn frame k) :
    ∃ id, s.linkId k = .ok id ∧ id.isUntracked = false ∧
      ∃ slot ∈ frame.slots, ∃ i, s.ListsAt slot.2 i k ∧
        frame.resolver id.collection = some slot.2 ∧ id.position? = some i := by
  rcases hk.exists_listsAt h with ⟨⟨name, c⟩, hslot, i, hlists⟩
  rcases tracking?_eq_some_iff.1 (h.listsAt_iff.1 hlists) with ⟨o, ho, howned⟩
  have hcopy := hlists
  rcases hcopy with ⟨col, objects, hcol, hstorage, hi⟩
  have hlt : i < 2 ^ 63 := by
    have hsize := hpositions (name, c) hslot col hcol
    have hbound := (Array.getElem?_eq_some_iff.1 hi).1
    rw [Collection.size, hstorage, Storage.size] at hsize
    omega
  refine ⟨.ofPosition i col.id, ?_, isUntracked_ofPosition i col.id, (name, c), hslot, i, hlists,
    resolver_eq_some h hframe hslot hcol, ObjectId.position?_ofPosition hlt _⟩
  rw [linkId_of_owned ho howned, addressOf_of_owned howned hcol]

theorem ListsAt.objectAtPosition {i : Nat} (hlists : s.ListsAt c i k)
    (hcol : s.collections.get? c = some col) : objectAtPosition col i = .ok k := by
  rcases hlists with ⟨col', objects, hcol', hstorage, hi⟩
  cases hcol.symm.trans hcol'
  unfold Store.objectAtPosition
  rw [hstorage]
  dsimp only
  rw [hi]

theorem IsHeldIn.resolveObject (h : WellFormed s) (hframe : s.frames.get? f = some frame)
    (hpositions : s.HasPositions frame) (hk : s.IsHeldIn frame k)
    {id : ObjectId} (hid : s.linkId k = .ok id) :
    s.resolveObject frame.resolver id = .ok k := by
  rcases hk.linkId h hframe hpositions with ⟨id', hid', -, slot, -, i, hlists, hresolver, hposition⟩
  cases hid.symm.trans hid'
  have hcopy := hlists
  rcases hlists with ⟨col, objects, hcol, -, -⟩
  exact resolveObject_eq_ok_iff.2 ⟨slot.2, col, i, hresolver, hcol, hposition,
    hcopy.objectAtPosition hcol⟩

/-- No place of a subset collection waits. -/
theorem ClosesIn.exists_linked (hcloses : s.ClosesIn frame col) {slots : Array Slot}
    (hstorage : col.storage = .subset slots) :
    ∀ slot ∈ slots.toList, ∃ k, slot = .linked k ∧ s.IsHeldIn frame k := by
  intro slot hslot
  have hall := hcloses.places
  unfold Store.places at hall
  rw [hstorage] at hall
  rcases hall _ (List.mem_map_of_mem hslot) with ⟨k, hk, hheld⟩
  rcases slot with id | k'
  · cases hk
  · exact ⟨k', rfl, Option.some.inj hk ▸ hheld⟩

/-- A collection lists objects of its type, which are there. -/
theorem WellFormed.exists_body (h : WellFormed s) (hcol : s.collections.get? c = some col)
    {objects : Array ObjectKey} (hstorage : col.storage = .owned objects) {i : Nat}
    (hk : objects.toList[i]? = some k) :
    ∃ body : Body col.type, s.ListsAt c i k ∧ s.body col.type k = .ok body := by
  have hi : objects[i]? = some k := by rwa [Array.getElem?_toList] at hk
  rcases h.listed c col objects i k hcol hstorage hi with ⟨⟨type, tracking, body⟩, ho, rfl, rfl⟩
  exact ⟨body, ⟨col, objects, hcol, hstorage, hi⟩, body_eq_ok_iff.2 ⟨_, ho, by simp⟩⟩

/-! ## Objects that can be flattened -/

theorem relatedLength_eq {body : Body t} (hbody : s.body t k = .ok body)
    (r : Fin t.toMany.length) : s.relatedLength t r k =
      match body.toMany with
      | .lists lists => lists[r].length
      | .windows windows => windows[r].size := by
  have hindex : checkIndex r.val t.toMany.length = .ok r := dif_pos r.isLt
  rw [relatedLength, relatedSize, hindex, bodyOf_of_body hbody]
  change (match body.toMany with
    | .lists lists => pure lists[r].length
    | .windows windows => pure windows[r].size : Except Error Nat).toOption.getD 0 = _
  rcases body.toMany with lists | windows
  · rfl
  · rfl

theorem memberLength_eq {body : Body t} (hbody : s.body t k = .ok body)
    (m : Fin t.members.length) : s.memberLength t m k = body.members[m].length := by
  rw [memberLength, members_eq_ok hbody m]
  rfl

/-- Windows that can be asked select from columns that the owner of the object keeps. -/
theorem exists_columns (h : WellFormed s) {body : Body t} (hbody : s.body t k = .ok body)
    {windows : Vector Window t.toMany.length} (hmany : body.toMany = .windows windows) :
    ∃ owner i col origin, s.tracking? k = some (.owned owner i) ∧
      s.collections.get? owner = some col ∧ col.originAs t = some origin ∧
      s.originOf t k = .ok origin ∧
      ∀ r : Fin t.toMany.length, windows[r].Fits (origin.columns.length r) := by
  rcases body_eq_ok_iff.1 hbody with ⟨tracking, ho, hreleased⟩
  rcases h.windows k _ windows ho hmany with hfalse | ⟨owner, i, col, origin, howned, hcol, hfit⟩
  · exact absurd hfalse hreleased
  · obtain ⟨horigin, hfits⟩ : col.originAs t = some origin ∧
        ∀ r : Fin t.toMany.length, windows[r].Fits (origin.columns.length r) := hfit
    refine ⟨owner, i, col, origin, ?_, hcol, horigin, ?_, hfits⟩
    · rw [tracking?_of_get? ho]
      exact congrArg some howned
    · rw [originOf_of_owned ho howned hcol, horigin]

/-- The links of an object that a collection lists are known, or its window selects stored addresses
that wait for resolution. Their number is known in both cases. -/
theorem links_cases (h : WellFormed s) {i : Nat} {body : Body t} (hbody : s.body t k = .ok body)
    (hlists : s.ListsAt c i k) (hcol : s.collections.get? c = some col)
    (r : Fin t.toMany.length) :
    (∃ ks, s.links k body r = .ok ks ∧ ks.length = s.relatedLength t r k) ∨
      ∃ windows id many one, body.toMany = .windows windows ∧
        col.originAs t = some ⟨id, .stored many one⟩ ∧
        s.originOf t k = .ok ⟨id, .stored many one⟩ ∧ windows[r].Fits many[r].length ∧
        windows[r].size = s.relatedLength t r k := by
  rw [relatedLength_eq hbody]
  rcases hmany : body.toMany with lists | windows
  · exact .inl ⟨lists[r], by simp only [links, hmany], rfl⟩
  · rcases exists_columns h hbody hmany
      with ⟨c', i', col', origin, htracking, hcol', horigin, hsome, hfits⟩
    -- windows belong to the collection that lists the object
    cases htracking.symm.trans (h.listsAt_iff.1 hlists)
    cases hcol.symm.trans hcol'
    rcases origin with ⟨id, ⟨many, one⟩ | many⟩
    · exact .inr ⟨windows, id, many, one, rfl, horigin, hsome, hfits r, rfl⟩
    · have hfit : windows[r].Fits many[r].length := hfits r
      refine .inl ⟨windows[r].segment many[r], ?_, Window.length_segment hfit⟩
      simp only [links, hmany]
      exact bind_eq_ok_iff.2 ⟨_, hsome, Window.slice_eq_ok_iff.2 ⟨hfit, rfl⟩⟩

/-- The links of an object in a resolved collection are known, and so is their number. -/
theorem exists_links (h : WellFormed s) {i : Nat} {body : Body t} (hbody : s.body t k = .ok body)
    (hlists : s.ListsAt c i k) (hcol : s.collections.get? c = some col)
    (hresolved : col.isUnresolved = false) (r : Fin t.toMany.length) :
    ∃ ks, s.links k body r = .ok ks ∧ ks.length = s.relatedLength t r k := by
  rcases links_cases h hbody hlists hcol r with hlinks | ⟨windows, id, many, one, -, horigin, -⟩
  · exact hlinks
  · rcases originAs_eq_some horigin with ⟨rfl, hstored⟩
    rw [isUnresolved_of_stored hstored] at hresolved
    cases hresolved

/-- The stored addresses that a to-many relation of an object waits with: those that its window
selects, before resolution. -/
def waitingIds (s : Store) (t : DataType) (r : Fin t.toMany.length) (k : ObjectKey) :
    List ObjectId :=
  match s.body t k with
  | .error _ => []
  | .ok body =>
    match body.toMany, s.originOf t k with
    | .windows windows, .ok ⟨_, .stored many _⟩ => windows[r].segment many[r]
    | _, _ => []

theorem waitingIds_of_stored {body : Body t} {windows : Vector Window t.toMany.length}
    {id : CollectionId} {many : Vector (List ObjectId) t.toMany.length}
    {one : Vector (List ObjectId) t.toOne.length} (hbody : s.body t k = .ok body)
    (hmany : body.toMany = .windows windows) (horigin : s.originOf t k = .ok ⟨id, .stored many one⟩)
    (r : Fin t.toMany.length) : s.waitingIds t r k = windows[r].segment many[r] := by
  simp only [waitingIds, hbody, hmany, horigin]

theorem waitingIds_of_links {body : Body t} {r : Fin t.toMany.length} {ks : List ObjectKey}
    (hbody : s.body t k = .ok body) (hlinks : s.links k body r = .ok ks) :
    s.waitingIds t r k = [] := by
  simp only [waitingIds, hbody]
  split
  · rename_i windows id many one hmany horigin
    simp only [links, hmany, horigin] at hlinks
    cases hlinks
  · rfl

theorem relatedIds_of_stored {body : Body t} {windows : Vector Window t.toMany.length}
    {id : CollectionId} {many : Vector (List ObjectId) t.toMany.length}
    {one : Vector (List ObjectId) t.toOne.length} (hmany : body.toMany = .windows windows)
    (horigin : s.originOf t k = .ok ⟨id, .stored many one⟩) {r : Fin t.toMany.length}
    (hfits : windows[r].Fits many[r].length) :
    s.relatedIds k body r = .ok (windows[r].segment many[r]) := by
  simp only [relatedIds, hmany]
  exact bind_eq_ok_iff.2 ⟨_, horigin, Window.slice_eq_ok_iff.2 ⟨hfits, rfl⟩⟩

/-- What the flat form of an object needs, wherever its windows will lie. -/
structure CanFlatten (s : Store) (origin : Option (Origin t)) (position : Nat) (k : ObjectKey)
    (body : Body t) : Prop where
  read : s.body t k = .ok body
  toMany : ∀ r : Fin t.toMany.length, ∃ ids, s.relatedIds k body r = .ok ids ∧
    (∀ id ∈ ids, id.isUntracked = false) ∧ ids.length = s.relatedLength t r k
  toOne : ∀ r : Fin t.toOne.length, ∃ id, s.singleId origin position body r = .ok id

/-- An object that a collection lists can be flattened if its links and the addresses that it waits
with can be stored. -/
theorem canFlatten_of_linkId (h : WellFormed s) {i : Nat} {body : Body t}
    (hbody : s.body t k = .ok body) (hlists : s.ListsAt c i k)
    (hlinks : ∀ k' ∈ s.linkedObjects t k, ∃ id, s.linkId k' = .ok id ∧ id.isUntracked = false)
    (hwaiting : ∀ r : Fin t.toMany.length, ∀ id ∈ s.waitingIds t r k, id.isUntracked = false)
    (origin : Option (Origin t)) (position : Nat) : s.CanFlatten origin position k body where
  read := hbody
  toMany r := by
    have hcopy := hlists
    rcases hcopy with ⟨col, -, hcol, -⟩
    rcases links_cases h hbody hlists hcol r
      with ⟨ks, hks, hlength⟩ | ⟨windows, id, many, one, hmany, -, horigin, hfits, hsize⟩
    -- links that are known are stored one by one
    · have hstored : ∀ k' ∈ ks, ∃ id, s.linkId k' = .ok id ∧ id.isUntracked = false :=
        fun k' hk' => hlinks k' ((mem_linkedObjects_iff hbody).2 (.inl ⟨r, ks, hks, hk'⟩))
      rcases exists_forall₂ hstored with ⟨ids, hids⟩
      refine ⟨ids, ?_, ?_, ?_⟩
      · rw [relatedIds_of_links hks, mapM_eq_ok_iff]
        exact hids.imp fun _ _ hid => hid.1
      · intro id hid
        rcases exists_right_of_forall₂ hids.flip hid with ⟨k', -, -, htracked⟩
        exact htracked
      · rw [← hlength, hids.length_eq]
    -- addresses that wait are stored as they are
    · refine ⟨_, relatedIds_of_stored hmany horigin hfits, ?_, ?_⟩
      · rw [← waitingIds_of_stored hbody hmany horigin]
        exact hwaiting r
      · rw [Window.length_segment hfits, hsize]
  toOne r := by
    rcases hplace : body.toOne[r] with _ | k'
    · exact ⟨_, by simp only [singleId, hplace]; rfl⟩
    · rcases hlinks k' ((mem_linkedObjects_iff hbody).2 (.inr ⟨r, hplace⟩)) with ⟨id, hid⟩
      exact ⟨id, (singleId_eq_ok_of_some hplace).2 hid⟩

section FlattensAll

variable {origin : Option (Origin t)} {extents : Extents t} {position : Nat}

/-- An object has a flat form as long as its windows end within the limit. -/
theorem CanFlatten.exists_row {body : Body t} (h : s.CanFlatten origin position k body)
    (extents : Extents t)
    (hrelations : ∀ r : Fin t.toMany.length,
      extents.toMany[r] + s.relatedLength t r k < columnLimit)
    (hmembers : ∀ m : Fin t.members.length,
      extents.members[m] + s.memberLength t m k < columnLimit) :
    ∃ row, s.Flattens origin extents position k body row ∧
      (∀ r : Fin t.toMany.length, row.toMany[r].length = s.relatedLength t r k) ∧
      ∀ m : Fin t.members.length, row.members[m].length = s.memberLength t m k := by
  choose ids hids htracked hlength using h.toMany
  choose single hsingle using h.toOne
  -- a window is refused only if it ends beyond the limit
  have hwindow : ∀ start count : Nat, start + count < columnLimit →
      ∃ w, Window.ofExtent start count = .ok w :=
    fun start count hlt => ⟨_, Window.ofExtent_eq_ok_iff.2 ⟨hlt, rfl⟩⟩
  have hmany : ∀ r : Fin t.toMany.length, ∃ w,
      Window.ofExtent extents.toMany[r] (ids r).length = .ok w := by
    intro r
    exact hwindow _ _ (hlength r ▸ hrelations r)
  have hmember : ∀ m : Fin t.members.length, ∃ w,
      Window.ofExtent extents.members[m] body.members[m].length = .ok w := by
    intro m
    exact hwindow _ _ (memberLength_eq h.read m ▸ hmembers m)
  choose windows hwindows using hmany
  choose memberWindows hmemberWindows using hmember
  refine ⟨⟨(body.payload, Vector.ofFn windows ++ Vector.ofFn memberWindows), Vector.ofFn ids,
    body.members, Vector.ofFn single⟩, ⟨h.read, rfl, rfl, ?toMany, ?tracked, ?relationWindows,
      ?memberWindows, ?toOne⟩, ?lengths, ?memberLengths⟩
  case toMany =>
    intro r
    simpa using hids r
  case tracked =>
    intro r
    simpa using htracked r
  case relationWindows =>
    intro r
    rw [relationWindow_append]
    simpa using hwindows r
  case memberWindows =>
    intro m
    rw [memberWindow_append]
    simpa using hmemberWindows m
  case toOne =>
    intro r
    simpa using hsingle r
  case lengths =>
    intro r
    simpa using hlength r
  case memberLengths =>
    intro m
    exact (memberLength_eq h.read m).symm

/-- Objects have flat forms one after the other as long as the columns keep within the limit. -/
theorem exists_flattensAll {keys : List ObjectKey}
    (hobjects : ∀ i k, keys[i]? = some k →
      ∃ body : Body t, s.CanFlatten origin (position + i) k body)
    (hrelations : ∀ r : Fin t.toMany.length,
      extents.toMany[r] + (keys.map (s.relatedLength t r)).sum < columnLimit)
    (hmembers : ∀ m : Fin t.members.length,
      extents.members[m] + (keys.map (s.memberLength t m)).sum < columnLimit) :
    ∃ rows, s.FlattensAll origin extents position keys rows := by
  -- on the objects that are left: each moves the extents on by what it needs
  induction keys generalizing extents position with
  | nil => exact ⟨[], .nil extents position⟩
  | cons k keys ih =>
    simp only [List.map_cons, List.sum_cons] at hrelations hmembers
    rcases hobjects 0 k rfl with ⟨body, hbody⟩
    rcases hbody.exists_row extents (fun r => by have hlimit := hrelations r; omega)
      (fun m => by have hlimit := hmembers m; omega) with ⟨row, hrow, hmany, hmember⟩
    have hrest : ∀ i k', keys[i]? = some k' →
        ∃ body : Body t, s.CanFlatten origin (position + 1 + i) k' body := by
      intro i k' hk'
      have hposition : position + 1 + i = position + (i + 1) := by omega
      rw [hposition]
      exact hobjects (i + 1) k' hk'
    rcases @ih (extents.add row) (position + 1) hrest
      (fun r => by
        have hlimit := hrelations r
        rw [extents.getElem_toMany_add, hmany r]
        omega)
      (fun m => by
        have hlimit := hmembers m
        rw [extents.getElem_members_add, hmember m]
        omega) with ⟨rows, hrows⟩
    exact ⟨row :: rows, .cons hrow hrows⟩

end FlattensAll

/-- Every row is the flat form of an object that the collection lists. -/
theorem FlattensAll.exists_of_row {id : CollectionId} {keys : List ObjectKey}
    {rows : List (Row t)} {origin origin' : Option (Origin t)}
    (hrows : s.FlattensAll origin (.zero t) 0 keys rows)
    (hstands : s.Stands c t id (.owned keys.toArray) origin') {row : Row t} (hrow : row ∈ rows) :
    ∃ i k extents body, s.ListsAt c i k ∧ s.Flattens origin extents i k body row := by
  rcases List.mem_iff_getElem?.1 hrow with ⟨i, hi⟩
  rcases hrows.getElem?_of_row hi with ⟨k, extents, body, hk, hflattens⟩
  rw [Nat.zero_add] at hflattens
  rcases hstands.collection with ⟨col, hcol, -, -, hstorage⟩
  exact ⟨i, k, extents, body, ⟨col, keys.toArray, hcol, hstorage, by simpa using hk⟩, hflattens⟩

/-! ## Closed frames are written -/

theorem waitingId_eq_none (hresolved : col.isUnresolved = false) (r : Fin col.type.toOne.length)
    (position : Nat) : waitingId col.origin r position = none := by
  unfold waitingId
  split
  · rename_i id toMany toOne horigin
    rw [isUnresolved_of_stored horigin] at hresolved
    cases hresolved
  · rfl

namespace IsClosed

section Written

variable (h : WellFormed s) (hframe : s.frames.get? f = some frame) (hclosed : s.IsClosed frame)

include h hframe hclosed

theorem canFlatten {slot : String × CollectionKey} (hslot : slot ∈ frame.slots)
    (hcol : s.collections.get? slot.2 = some col) {i : Nat} (hlists : s.ListsAt slot.2 i k)
    {body : Body col.type} (hbody : s.body col.type k = .ok body) (position : Nat) :
    s.CanFlatten col.origin position k body := by
  refine canFlatten_of_linkId h hbody hlists (fun k' hk' => ?_) (fun r => ?_) col.origin position
  · have hheld := hclosed.heldIn hslot (stands_of_get? hcol) hlists hk'
    rcases hheld.linkId h hframe hclosed.hasPositions with ⟨id, hid, htracked, -⟩
    exact ⟨id, hid, htracked⟩
  · have hresolved := (hclosed.collections slot hslot col hcol).resolved
    rcases exists_links h hbody hlists hcol hresolved r with ⟨ks, hks, -⟩
    rw [waitingIds_of_links hbody hks]
    simp

/-- Every collection of a closed frame has a flat form. -/
theorem exists_hasFlat {slot : String × CollectionKey} (hslot : slot ∈ frame.slots) :
    ∃ e, Names s.HasFlat slot e := by
  rcases h.held f frame slot.1 slot.2 hframe hslot with ⟨col, hcol, -⟩
  have hstands := stands_of_get? hcol
  have hcloses := hclosed.collections slot hslot col hcol
  rcases hstorage : col.storage with objects | slots
  · rw [hstorage] at hstands
    have hobjects : ∀ i k, objects.toList[i]? = some k →
        ∃ body : Body col.type, s.CanFlatten col.origin (0 + i) k body := by
      intro i k hk
      rcases h.exists_body hcol hstorage hk with ⟨body, hlists, hbody⟩
      exact ⟨body, canFlatten h hframe hclosed hslot hcol hlists hbody _⟩
    have hkeys : col.storage.objects = objects.toList := by rw [hstorage, Storage.objects]
    rcases @exists_flattensAll s col.type col.origin (.zero _) 0 objects.toList hobjects
      (fun r => by
        have htotal := hcloses.relatedTotals r
        rw [hkeys] at htotal
        simpa [Extents.zero] using htotal)
      (fun m => by
        have htotal := hcloses.memberTotals m
        rw [hkeys] at htotal
        simpa [Extents.zero] using htotal) with ⟨rows, hrows⟩
    exact ⟨⟨slot.1, col.id, col.type, .owned rows⟩, rfl, .owned hstands hrows⟩
  · rw [hstorage] at hstands
    -- every place of a subset collection leads to an object of the frame
    have hids : ∀ place ∈ slots.toList, ∃ id, s.slotId place = .ok id := by
      intro place hplace
      rcases hcloses.exists_linked hstorage place hplace with ⟨k, rfl, hheld⟩
      rcases hheld.linkId h hframe hclosed.hasPositions with ⟨id, hid, -⟩
      exact ⟨id, linkId_eq_ok hid⟩
    rcases exists_forall₂ hids with ⟨ids, hall⟩
    exact ⟨⟨slot.1, col.id, col.type, .subset ids⟩, rfl, .subset hstands hall⟩

theorem exists_flats : ∃ entries, List.Forall₂ (Names s.HasFlat) frame.slots entries :=
  exists_forall₂ fun _ hslot => exists_hasFlat h hframe hclosed hslot

end Written

/-! ## What is written -/

section Rows

variable (hclosed : s.IsClosed frame) {slot : String × CollectionKey} {id : CollectionId}
  {storage : Storage} {origin : Option (Origin t)} {extents : Extents t} {position i : Nat}
  {body : Body t} {row : Row t}

include hclosed

/-- The addresses in a row are those of the objects that its object leads to. -/
theorem related_of_flattens (h : WellFormed s) (hslot : slot ∈ frame.slots)
    (hstands : s.Stands slot.2 t id storage origin) (hlists : s.ListsAt slot.2 i k)
    (hrow : s.Flattens origin extents position k body row) (r : Fin t.toMany.length) :
    ∃ ks, s.links k body r = .ok ks ∧ List.Forall₂ (fun k' id => s.IsHeldIn frame k' ∧
      s.linkId k' = .ok id) ks row.toMany[r] := by
  have hcopy := hstands
  rcases hcopy with ⟨config, generation, prepared, hcol⟩
  have hresolved := (hclosed.collections slot hslot _ hcol).resolved
  rcases exists_links h hrow.read hlists hcol hresolved r with ⟨ks, hks, -⟩
  have hids := hrow.toMany r
  rw [relatedIds_of_links hks, mapM_eq_ok_iff] at hids
  have hheld : ∀ k' ∈ ks, s.IsHeldIn frame k' := fun k' hk' =>
    hclosed.heldIn hslot hstands hlists
      ((mem_linkedObjects_iff hrow.read).2 (.inl ⟨r, ks, hks, hk'⟩))
  exact ⟨ks, hks, (List.forall₂_and_left ks _).2 ⟨hheld, hids⟩⟩

/-- A to-one relation is stored as the address of its object, or as the one untracked address. -/
theorem single_of_flattens (hslot : slot ∈ frame.slots)
    (hstands : s.Stands slot.2 t id storage origin) (hlists : s.ListsAt slot.2 i k)
    (hrow : s.Flattens origin extents position k body row) (r : Fin t.toOne.length) :
    (body.toOne[r] = none ∧ row.toOne[r] = .untracked) ∨
      ∃ k', body.toOne[r] = some k' ∧ s.IsHeldIn frame k' ∧ s.linkId k' = .ok row.toOne[r] := by
  have hid := hrow.toOne r
  have hcopy := hstands
  rcases hcopy with ⟨config, generation, prepared, hcol⟩
  have hresolved := (hclosed.collections slot hslot _ hcol).resolved
  have hwaiting := waitingId_eq_none hresolved r position
  rcases hplace : body.toOne[r] with _ | k'
  · simp only [singleId, hplace, hwaiting] at hid
    exact .inl ⟨rfl, (Except.ok.inj hid).symm⟩
  · have hheld := hclosed.heldIn hslot hstands hlists
      ((mem_linkedObjects_iff hrow.read).2 (.inr ⟨r, hplace⟩))
    exact .inr ⟨k', rfl, hheld, ((singleId_eq_ok_of_some hplace).1 hid).1⟩

end Rows

/-- A place of a subset collection is stored as the address of its object. -/
theorem exists_of_slotId (h : WellFormed s) (hframe : s.frames.get? f = some frame)
    (hclosed : s.IsClosed frame) {slot : String × CollectionKey} (hslot : slot ∈ frame.slots)
    {number : CollectionId} {places : Array Slot} {origin : Option (Origin t)}
    (hstands : s.Stands slot.2 t number (.subset places) origin) {place : Slot}
    (hplace : place ∈ places.toList) {id : ObjectId} (hid : s.slotId place = .ok id) :
    ∃ k, place = .linked k ∧ s.IsHeldIn frame k ∧ s.linkId k = .ok id := by
  rcases hstands with ⟨config, generation, prepared, hcol⟩
  rcases (hclosed.collections slot hslot _ hcol).exists_linked rfl place hplace with ⟨k, rfl, hheld⟩
  rcases hheld.linkId h hframe hclosed.hasPositions with ⟨id', hid', -⟩
  cases (linkId_eq_ok hid').symm.trans hid
  exact ⟨k, rfl, hheld, hid'⟩

section Stores

variable (h : WellFormed s) (hframe : s.frames.get? f = some frame) (hclosed : s.IsClosed frame)
  {slot : String × CollectionKey} (hslot : slot ∈ frame.slots) {number : CollectionId}
  {flat : Flat t} (hflat : s.HasFlat slot.2 t number flat)

include h hframe hclosed hslot hflat

/-- Every address that is stored is that of an object of the frame, or stands for an unset
relation. -/
theorem exists_of_stores {id : ObjectId} (hid : flat.Stores id) :
    id = .untracked ∨ ∃ k, s.IsHeldIn frame k ∧ s.linkId k = .ok id := by
  cases hflat with
  | owned hstands hrows =>
    cases hid with
    | toMany hrow r hid =>
      rcases hrows.exists_of_row hstands hrow with ⟨i, k, extents, body, hlists, hflattens⟩
      rcases hclosed.related_of_flattens h hslot hstands hlists hflattens r with ⟨ks, -, hids⟩
      rcases exists_right_of_forall₂ hids.flip hid with ⟨k', -, hk'⟩
      exact .inr ⟨k', hk'⟩
    | toOne hrow r =>
      rcases hrows.exists_of_row hstands hrow with ⟨i, k, extents, body, hlists, hflattens⟩
      rcases hclosed.single_of_flattens hslot hstands hlists hflattens r
        with ⟨-, huntracked⟩ | ⟨k', -, hk'⟩
      · exact .inl huntracked
      · exact .inr ⟨k', hk'⟩
  | subset hstands hids =>
    cases hid with
    | place hid =>
      rcases exists_right_of_forall₂ hids.flip hid with ⟨place, hplace, hslotId⟩
      rcases exists_of_slotId h hframe hclosed hslot hstands hplace hslotId with ⟨k, -, hk⟩
      exact .inr ⟨k, hk⟩

/-- Relations that are not set are stored as the untracked address. -/
theorem isCanonical : flat.IsCanonical := by
  rcases flat with rows | ids
  · intro r row hrow huntracked
    rcases exists_of_stores h hframe hclosed hslot hflat (.toOne hrow r)
      with heq | ⟨k, hheld, hid⟩
    · exact heq
    · rcases hheld.linkId h hframe hclosed.hasPositions with ⟨id', hid', htracked, -⟩
      cases hid.symm.trans hid'
      rw [htracked] at huntracked
      cases huntracked
  · trivial

end Stores

/-! ## What is written can be read -/

section Read

variable (h : WellFormed s) (hframe : s.frames.get? f = some frame) (hclosed : s.IsClosed frame)
  {entries : List FlatCollection} (hflats : List.Forall₂ (Names s.HasFlat) frame.slots entries)
  {s₁ : Store} {slots : List (String × CollectionKey)}
  (hwaits : List.Forall₂ (Names s₁.Waits) slots entries)

include h hframe hclosed hflats hwaits

/-- The address of an object of the frame leads to one of the same type among the collections that
were rebuilt. -/
theorem exists_resolves (hk : s.IsHeldIn frame k) {id : ObjectId} (hid : s.linkId k = .ok id)
    {o : Object} (ho : s.objects.get? k = some o) :
    ∃ k₁ o₁, s₁.Resolves (s₁.resolverOf (slots.map (·.2))) o.type.name id k₁ ∧
      s₁.objects.get? k₁ = some o₁ ∧ o₁.type = o.type := by
  rcases hk.linkId h hframe hclosed.hasPositions
    with ⟨id', hid', htracked, slot, hslot, i, hlists, hresolver, hposition⟩
  cases hid.symm.trans hid'
  rw [resolver_eq_resolverOf h hframe] at hresolver
  -- both lists of collections pick the one of the same entry for the number in the address
  rcases resolverOf_cases (fun _ _ _ _ => HasFlat.exists_collection)
    (fun _ _ _ _ => Waits.exists_collection) hflats hwaits id.collection
    with ⟨hnone, -⟩ | ⟨c, c₁, hc, hc₁, e, -, -, -, -, hflat, hwait⟩
  · cases hresolver.symm.trans hnone
  · cases hresolver.symm.trans hc
    rcases e with ⟨name, number, t, flat⟩
    dsimp only at hflat hwait
    rcases hlists with ⟨col, objects, hcol, hstorage, hi⟩
    rcases h.listed slot.2 col objects i k hcol hstorage hi with ⟨o', ho', htype, -⟩
    cases ho.symm.trans ho'
    cases hflat with
    | subset hstands _ =>
      rcases hstands.collection with ⟨col', hcol', -, -, hsubset⟩
      cases hcol.symm.trans hcol'
      cases hstorage.symm.trans hsubset
    | @owned keys origin rows hstands hrows =>
      rcases hstands.collection with ⟨col', hcol', htype', -, howned⟩
      cases hcol.symm.trans hcol'
      cases hstorage.symm.trans howned
      cases hwait with
      | @owned keys₁ _ origin₁ hstands₁ howns _ =>
        have hlengths : keys.length = keys₁.length :=
          hrows.length_eq.trans ((howns.length.trans (List.length_map _)).symm)
        have hlt : i < keys₁.length := by
          rw [← hlengths]
          exact (List.getElem?_eq_some_iff.1 (List.getElem?_toArray ▸ hi)).1
        have hkey : keys₁[i]? = some keys₁[i] := List.getElem?_eq_getElem hlt
        rcases howns.object hkey with ⟨body₁, -, ho₁⟩
        rcases hstands₁ with ⟨config, generation, prepared, hcol₁⟩
        have hname : t = o.type := htype'.symm.trans htype.symm
        refine ⟨keys₁[i], _, ⟨htracked, ?_, ?_⟩, ho₁, hname⟩
        · exact typeName?_eq_some_iff.2 ⟨_, ho₁, congrArg DataType.name hname⟩
        · refine resolveObject_eq_ok_iff.2 ⟨c₁, _, i, hc₁, hcol₁, hposition, ?_⟩
          unfold objectAtPosition
          dsimp only
          rw [List.getElem?_toArray, hkey]

/-- Every address of a closed frame finds an object among the collections that were rebuilt. -/
theorem answers {e : FlatCollection} (he : e ∈ entries) :
    s₁.Answers (s₁.resolverOf (slots.map (·.2))) e.type e.flat := by
  rcases exists_right_of_forall₂ hflats.flip he with ⟨slot, hslot, -, hflat⟩
  rcases e with ⟨name, number, t, flat⟩
  dsimp only at hflat ⊢
  -- types are checked by name, so a type that is declared is all that a link needs
  have hfinds : ∀ {k : ObjectKey} {id : ObjectId} {type : String}, s.IsHeldIn frame k →
      s.linkId k = .ok id → s.typeName? (some k) = some type →
        ∃ k₁, s₁.Resolves (s₁.resolverOf (slots.map (·.2))) type id k₁ := by
    intro k id type hheld hid htype
    rcases typeName?_eq_some_iff.1 htype with ⟨o, ho, rfl⟩
    rcases exists_resolves h hframe hclosed hflats hwaits hheld hid ho with ⟨k₁, o₁, hk₁, -⟩
    exact ⟨k₁, hk₁⟩
  cases hflat with
  | owned hstands hrows =>
    refine .owned ?_ ?_
    · intro r row hrow id hid
      rcases hrows.exists_of_row hstands hrow with ⟨i, k, extents, body, hlists, hflattens⟩
      rcases hclosed.related_of_flattens h hslot hstands hlists hflattens r with ⟨ks, hks, hids⟩
      rcases exists_right_of_forall₂ hids.flip hid with ⟨k', hk', hheld, hlink⟩
      exact hfinds hheld hlink (links_typed h hflattens.read hks k' hk')
    · intro r row hrow
      rcases hrows.exists_of_row hstands hrow with ⟨i, k, extents, body, hlists, hflattens⟩
      rcases hclosed.single_of_flattens hslot hstands hlists hflattens r
        with ⟨-, hid⟩ | ⟨k', hplace, hheld, hlink⟩
      · exact ⟨none, .inl ⟨by rw [hid]; rfl, rfl⟩⟩
      · have htype := (linksTyped_of_body h hflattens.read).toOne r k' hplace
        rcases hfinds hheld hlink htype with ⟨k₁, hk₁⟩
        exact ⟨some k₁, .inr ⟨k₁, rfl, hk₁⟩⟩
  | @subset places origin ids hstands hids =>
    refine .subset ?_
    intro id hid
    rcases exists_right_of_forall₂ hids.flip hid with ⟨place, hplace, hslotId⟩
    rcases exists_of_slotId h hframe hclosed hslot hstands hplace hslotId
      with ⟨k, rfl, hheld, hlink⟩
    rcases hstands.collection with ⟨col, hcol, rfl, -, hstorage⟩
    rcases h.slots slot.2 col _ k hcol hstorage (by simpa using hplace) with ⟨o, ho, htype, -⟩
    rcases exists_resolves h hframe hclosed hflats hwaits hheld hlink ho
      with ⟨k₁, o₁, hk₁, ho₁, htype₁⟩
    exact ⟨k₁, htype ▸ hk₁, o₁, ho₁, htype₁.trans htype⟩

end Read

end IsClosed

end Store
end EventModel
