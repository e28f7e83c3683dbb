import EventModel.Proofs.Store.Readers

/-!
# Shared links

The objects of a rebuilt collection select their links by windows from columns that the collection
keeps, and the windows of several objects may overlap. This module compares such a store with one
whose objects hold the same links in lists of their own. The two are `Alike`, and whatever is asked
of the one has the same answer in the other.
-/

namespace EventModel

/-! ## Stores that are alike -/

/-- The collection owns an object at a position, and its columns are resolved. -/
structure Collection.Serves (col : Collection) (i : Nat) (k : ObjectKey) {t : DataType}
    (many : Vector (List ObjectKey) t.toMany.length) : Prop where
  listed : ∃ objects, col.storage = .owned objects ∧ objects[i]? = some k
  columns : ∃ id, col.originAs t = some ⟨id, .resolved many⟩

namespace Store

variable {s s' : Store} {k : ObjectKey} {c : CollectionKey} {i : Nat} {t : DataType}

/-- The windows of an object select the lists from the columns of its owner. -/
def Selects (collections : Arena Collection) (c : CollectionKey) (i : Nat) (k : ObjectKey)
    (windows : Vector Window t.toMany.length)
    (lists : Vector (List ObjectKey) t.toMany.length) : Prop :=
  ∃ (col : Collection) (many : Vector (List ObjectKey) t.toMany.length),
    collections.get? c = some col ∧ col.Serves i k many ∧
      ∀ r : Fin t.toMany.length, windows[r].slice many[r] = .ok lists[r]

/-- The bodies of an object in two stores. They differ at most in that the second has lists of the
links that the first selects by windows. -/
inductive SameBody (collections : Arena Collection) (k : ObjectKey) (tracking : Tracking) :
    Body t → Body t → Prop
  | refl (body : Body t) : SameBody collections k tracking body body
  | copied {c : CollectionKey} {i : Nat} (body : Body t) {windows : Vector Window t.toMany.length}
      {lists : Vector (List ObjectKey) t.toMany.length} (htracking : tracking = .owned c i)
      (hmany : body.toMany = .windows windows)
      (hselects : Selects collections c i k windows lists) :
      SameBody collections k tracking body { body with toMany := .lists lists }

/-- An object in two stores. Nothing is read from the body of a released object. -/
inductive SameObject (collections : Arena Collection) (k : ObjectKey) : Object → Object → Prop
  | released {t : DataType} (body body' : Body t) :
      SameObject collections k ⟨t, .released, body⟩ ⟨t, .released, body'⟩
  | same {t : DataType} {tracking : Tracking} {body body' : Body t}
      (h : SameBody collections k tracking body body') :
      SameObject collections k ⟨t, tracking, body⟩ ⟨t, tracking, body'⟩

/-- The stores differ at most in how objects hold their links. -/
structure Alike (s s' : Store) : Prop where
  collections : s'.collections = s.collections
  frames : s'.frames = s.frames
  handles : s'.handles = s.handles
  serial : s'.serial = s.serial
  next : s'.objects.next = s.objects.next
  objects : ∀ k, Option.Rel (SameObject s.collections k) (s.objects.get? k) (s'.objects.get? k)

namespace SameObject

variable {collections : Arena Collection} {o o' : Object}

theorem refl (collections : Arena Collection) (k : ObjectKey) (o : Object) :
    SameObject collections k o o :=
  .same (.refl o.body)

theorem type_eq (h : SameObject collections k o o') : o'.type = o.type := by
  cases h <;> rfl

theorem tracking_eq (h : SameObject collections k o o') : o'.tracking = o.tracking := by
  cases h <;> rfl

theorem isReleased_eq (h : SameObject collections k o o') : o'.isReleased = o.isReleased := by
  rw [Object.isReleased, Object.isReleased, h.tracking_eq]

theorem owner?_eq (h : SameObject collections k o o') : o'.owner? = o.owner? := by
  simp only [Object.owner?, h.tracking_eq]

end SameObject

/-- Bodies of an object in two stores, the first of which is the one in the first store. -/
def ReadAlike (s : Store) (k : ObjectKey) (body body' : Body t) : Prop :=
  ∃ tracking, s.objects.get? k = some ⟨t, tracking, body⟩ ∧
    SameBody s.collections k tracking body body'

namespace Alike

/-! ## Objects -/

theorem get?_cases (h : Alike s s') (k : ObjectKey) :
    (s.objects.get? k = none ∧ s'.objects.get? k = none) ∨
      ∃ o o', s.objects.get? k = some o ∧ s'.objects.get? k = some o' ∧
        SameObject s.collections k o o' := by
  have hrel := h.objects k
  generalize s.objects.get? k = x at hrel
  generalize s'.objects.get? k = y at hrel
  cases hrel with
  | none => exact .inl ⟨rfl, rfl⟩
  | some hsame => exact .inr ⟨_, _, rfl, rfl, hsame⟩

theorem object (h : Alike s s') (k : ObjectKey) :
    Parallel (SameObject s.collections k) (s.object k) (s'.object k) := by
  unfold Store.object
  rcases h.get?_cases k with ⟨ho, ho'⟩ | ⟨o, o', ho, ho', hsame⟩
  · rw [ho, ho']
    exact .error _
  · rw [ho, ho']
    exact .ok hsame

theorem target (h : Alike s s') : s'.target = s.target := by
  funext r
  rw [Store.target, Store.target, h.handles]

theorem collection (h : Alike s s') : s'.collection = s.collection := by
  funext c
  rw [Store.collection, Store.collection, h.collections]

theorem frame (h : Alike s s') : s'.frame = s.frame := by
  funext f
  rw [Store.frame, Store.frame, h.frames]

theorem tracking? (h : Alike s s') (k : ObjectKey) : s'.tracking? k = s.tracking? k := by
  unfold Store.tracking?
  rcases h.get?_cases k with ⟨ho, ho'⟩ | ⟨o, o', ho, ho', hsame⟩
  · rw [ho, ho']
  · rw [ho, ho', Option.map_some, Option.map_some, hsame.tracking_eq]

theorem existsObject (h : Alike s s') : s'.existsObject = s.existsObject :=
  funext fun k => existsObject_congr (h.tracking? k) h.handles fun c => by rw [h.collections]

theorem addressOf (h : Alike s s') {o o' : Object} (htracking : o'.tracking = o.tracking) :
    s'.addressOf o' = s.addressOf o := by
  unfold Store.addressOf
  rw [htracking, h.collections]

theorem isAvailable (h : Alike s s') : s'.isAvailable = s.isAvailable := by
  funext target
  rcases target with _ | k
  · rfl
  · unfold Store.isAvailable
    rw [Option.bind_some, Option.bind_some]
    rcases h.get?_cases k with ⟨ho, ho'⟩ | ⟨o, o', ho, ho', hsame⟩
    · rw [ho, ho']
    · simp only [ho, ho', hsame.isReleased_eq]

theorem available (h : Alike s s') (target : Option ObjectKey) :
    Parallel (fun o o' => o'.type = o.type ∧ o'.tracking = o.tracking) (s.available target)
      (s'.available target) := by
  rcases target with _ | k
  · exact .error _
  · unfold Store.available
    rw [Option.bind_some, Option.bind_some]
    rcases h.get?_cases k with ⟨ho, ho'⟩ | ⟨o, o', ho, ho', hsame⟩
    · rw [ho, ho']
      exact .error _
    · simp only [ho, ho', hsame.isReleased_eq]
      by_cases hreleased : o.isReleased = true
      · rw [if_pos hreleased, if_pos hreleased]
        exact .error _
      · rw [if_neg hreleased, if_neg hreleased]
        exact .ok ⟨hsame.type_eq, hsame.tracking_eq⟩

theorem idOf (h : Alike s s') : s'.idOf = s.idOf := by
  funext target
  exact ((h.available target).bind_eq (g := fun o => .ok (s'.addressOf o)) fun _ _ hsame =>
    congrArg Except.ok (h.addressOf hsame.2).symm).symm

theorem typeName? (h : Alike s s') : s'.typeName? = s.typeName? := by
  funext target
  rcases target with _ | k
  · rfl
  · unfold Store.typeName?
    rw [Option.bind_some, Option.bind_some]
    rcases h.get?_cases k with ⟨ho, ho'⟩ | ⟨o, o', ho, ho', hsame⟩
    · rw [ho, ho']
    · rw [ho, ho', Option.map_some, Option.map_some, hsame.type_eq]

theorem isTracked (h : Alike s s') : s'.isTracked = s.isTracked := by
  funext target
  rw [Store.isTracked, Store.isTracked, h.idOf]

theorem ownerOf? (h : Alike s s') : s'.ownerOf? = s.ownerOf? := by
  funext k
  unfold Store.ownerOf?
  rcases h.get?_cases k with ⟨ho, ho'⟩ | ⟨o, o', ho, ho', hsame⟩
  · rw [ho, ho']
  · rw [ho, ho', Option.bind_some, Option.bind_some, hsame.owner?_eq]

theorem handlesOfFloating? (h : Alike s s') : s'.handlesOfFloating? = s.handlesOfFloating? := by
  funext target
  rcases target with _ | k
  · rfl
  · unfold Store.handlesOfFloating?
    rw [Option.bind_some, Option.bind_some]
    rcases h.get?_cases k with ⟨ho, ho'⟩ | ⟨o, o', ho, ho', hsame⟩
    · rw [ho, ho']
    · rw [ho, ho']
      cases hsame with
      | released => rfl
      -- the number of handles is part of the tracking, which is the same
      | @same t tracking => cases tracking <;> rfl

theorem expectType (h : Alike s s') : s'.expectType = s.expectType := by
  funext t target
  rcases target with _ | k
  · rfl
  · refine ((h.object k).bind_eq fun o o' hsame => ?_).symm
    rw [hsame.type_eq]

theorem checkTarget (h : Alike s s') : s'.checkTarget = s.checkTarget := by
  funext target expected
  rcases target with _ | k
  · rfl
  · refine ((h.available (some k)).bind_eq fun o o' hsame => ?_).symm
    rw [hsame.1]

/-! ## Bodies -/

theorem body (h : Alike s s') (t : DataType) (k : ObjectKey) :
    Parallel (ReadAlike s k (t := t)) (s.body t k) (s'.body t k) := by
  rcases h.get?_cases k with ⟨ho, ho'⟩ | ⟨o, o', ho, ho', hsame⟩
  · simp only [Store.body, Store.object, ho, ho']
    exact .error _
  · cases hsame with
    | released =>
      exact parallel_body (R := s.ReadAlike k) ho ho' (fun hreleased => absurd rfl hreleased) t
    | same hbody => exact parallel_body (R := s.ReadAlike k) ho ho' (fun _ => ⟨_, ho, hbody⟩) t

theorem bodyOf (h : Alike s s') (t : DataType) (target : Option ObjectKey) :
    Parallel (fun x x' => x'.1 = x.1 ∧ ReadAlike s x.1 x.2 x'.2) (s.bodyOf t target)
      (s'.bodyOf t target) := by
  rcases target with _ | k
  · exact .error _
  · exact (h.body t k).bind fun body body' hbody => .ok ⟨rfl, hbody⟩

theorem originOf (h : Alike s s') (t : DataType) (k : ObjectKey) :
    s'.originOf t k = s.originOf t k :=
  originOf_congr (h.tracking? k) fun c => by rw [h.collections]

end Alike

section Bodies

variable {body body' : Body t}

theorem links_of_selects {windows : Vector Window t.toMany.length}
    {lists : Vector (List ObjectKey) t.toMany.length} {o : Object}
    (ho : s.objects.get? k = some o) (htracking : o.tracking = .owned c i)
    (hmany : body.toMany = .windows windows) (hselects : Selects s.collections c i k windows lists)
    (r : Fin t.toMany.length) : s.links k body r = .ok lists[r] := by
  rcases hselects with ⟨col, many, hcol, hserves, hslices⟩
  rcases hserves.columns with ⟨id, horigin⟩
  unfold links
  simp only [hmany]
  rw [originOf_of_owned ho htracking hcol, horigin]
  exact hslices r

/-- A body with windows and one with the lists that they select show the same. -/
theorem ReadAlike.showsSame (h : s.ReadAlike k body body') (halike : Alike s s') :
    ShowsSame s s' none k body body' := by
  rcases h with ⟨tracking, ho, hsame⟩
  cases hsame with
  | refl => exact .refl (halike.originOf t k) body
  | copied body htracking hmany hselects =>
    exact .of_links rfl rfl rfl (fun r _ => links_of_selects ho htracking hmany hselects r)
      fun _ _ => rfl

theorem ReadAlike.ownLists_eq (h : s.ReadAlike k body body') (halike : Alike s s') :
    s'.ownLists k body' = s.ownLists k body := by
  rcases h with ⟨tracking, ho, hsame⟩
  cases hsame with
  | refl =>
    unfold ownLists
    simp only [links_congr (halike.originOf t k)]
  | copied body htracking hmany hselects =>
    have hlinks := tryOfFn_eq_ok_iff.2 (links_of_selects ho htracking hmany hselects)
    simp only [ownLists, hmany]
    exact hlinks.symm

theorem Alike.linkId (h : Alike s s') : s'.linkId = s.linkId := by
  funext k
  rw [Store.linkId, Store.linkId, h.existsObject, h.idOf]

theorem ReadAlike.relatedIds_eq (h : s.ReadAlike k body body') (halike : Alike s s')
    (r : Fin t.toMany.length) : s'.relatedIds k body' r = s.relatedIds k body r := by
  have hlinks := (h.showsSame halike).links r (by simp)
  rcases h with ⟨tracking, ho, hsame⟩
  cases hsame with
  | refl =>
    -- here the links may be missing: before resolution the addresses are written as they are stored
    unfold relatedIds
    rw [halike.originOf t k, halike.linkId]
  | copied body htracking hmany hselects =>
    have hks := links_of_selects ho htracking hmany hselects r
    rw [relatedIds_of_links hks, relatedIds_of_links (hlinks.trans hks), halike.linkId]

end Bodies

namespace Alike

/-! ## Questions about objects -/

theorem readsSame (h : Alike s s') : ReadsSame none s s' :=
  BodiesShowSame.readsSame ⟨h.existsObject, fun k t => by
    have hbody := h.body t k
    generalize s.body t k = x at hbody
    generalize s'.body t k = x' at hbody
    cases hbody with
    | error e => exact .error e
    | ok hread => exact .ok (hread.showsSame h)⟩

theorem related (h : Alike s s') : s'.related = s.related := by
  funext t target relation
  rcases target with _ | k
  · rfl
  · exact h.readsSame.related t k relation (by simp)

theorem relatedSize (h : Alike s s') : s'.relatedSize = s.relatedSize := by
  funext t target relation
  rcases target with _ | k
  · rfl
  · exact h.readsSame.relatedSize t k relation (by simp)

theorem relatedAs (h : Alike s s') : s'.relatedAs = s.relatedAs := by
  funext t u target relation
  rw [Store.relatedAs, Store.relatedAs, h.related, h.expectType]

theorem singleAs (h : Alike s s') : s'.singleAs = s.singleAs := by
  funext t u target relation
  rw [Store.singleAs, Store.singleAs, h.readsSame.single, h.expectType]

/-! ## Questions about collections -/

theorem collectionAs (h : Alike s s') : s'.collectionAs = s.collectionAs := by
  funext t c
  rw [Store.collectionAs, Store.collectionAs, h.collection]

theorem flattenObject (h : Alike s s') (t : DataType) : s'.flattenObject t = s.flattenObject t := by
  funext origin extents position k
  refine ((h.body t k).bind_eq fun body body' hbody => ?_).symm
  have hshows := hbody.showsSame h
  rw [hshows.payload, hshows.members, hshows.toOne, h.linkId]
  simp only [hbody.relatedIds_eq h]

theorem flattenObjects (h : Alike s s') (t : DataType) (origin : Option (Origin t))
    (extents : Extents t) (position : Nat) (ks : List ObjectKey) :
    s'.flattenObjects t origin extents position ks =
      s.flattenObjects t origin extents position ks := by
  induction ks generalizing extents position with
  | nil => rfl
  | cons k rest ih =>
    rw [Store.flattenObjects, Store.flattenObjects, h.flattenObject]
    simp only [ih]

theorem flattenCollection (h : Alike s s') : s'.flattenCollection = s.flattenCollection := by
  funext col
  have hslot : s'.slotId = s.slotId := by
    funext slot
    cases slot with
    | pending id => rfl
    | linked k => rw [slotId, slotId, h.idOf]
  unfold Store.flattenCollection
  rw [hslot]
  simp only [h.flattenObjects]

theorem flatten (h : Alike s s') : s'.flatten = s.flatten := by
  funext c
  rw [Store.flatten, Store.flatten, h.collection, h.flattenCollection]

theorem linkedObjects (h : Alike s s') : s'.linkedObjects = s.linkedObjects := by
  funext t k
  have hbody := h.body t k
  unfold Store.linkedObjects
  generalize s.body t k = x at hbody
  generalize s'.body t k = y at hbody
  cases hbody with
  | error e => rfl
  | ok hbody =>
    have hshows := hbody.showsSame h
    have hlinks : ∀ r, s'.links k _ r = s.links k _ r := fun r => hshows.links r (by simp)
    simp only [hlinks, hshows.toOne]

theorem dependencies (h : Alike s s') : s'.dependencies = s.dependencies := by
  funext c col
  rw [Store.dependencies, Store.dependencies, h.linkedObjects, h.ownerOf?]

theorem isCurrent (h : Alike s s') : s'.isCurrent = s.isCurrent := by
  funext prepared
  simp only [Store.isCurrent, generation?, h.collections]

theorem isPrepared (h : Alike s s') : s'.isPrepared = s.isPrepared := by
  funext c
  unfold Store.isPrepared isPreparedCollection
  rw [h.collections, h.isCurrent]

theorem stamps (h : Alike s s') : s'.stamps = s.stamps := by
  funext c col
  simp only [Store.stamps, generation?, h.dependencies, h.collections]

/-! ## Questions of resolution -/

theorem resolveObject (h : Alike s s') : s'.resolveObject = s.resolveObject := by
  funext resolver id
  unfold Store.resolveObject
  rw [h.collection]

theorem resolveTyped (h : Alike s s') : s'.resolveTyped = s.resolveTyped := by
  funext resolver type id
  rw [Store.resolveTyped, Store.resolveTyped, h.resolveObject, h.typeName?]

theorem resolveRequired (h : Alike s s') : s'.resolveRequired = s.resolveRequired := by
  funext resolver source type id
  rw [Store.resolveRequired, Store.resolveRequired, h.resolveTyped]

theorem resolveOptional (h : Alike s s') : s'.resolveOptional = s.resolveOptional := by
  funext resolver type id
  rw [Store.resolveOptional, Store.resolveOptional, h.resolveTyped]

theorem resolveSlot (h : Alike s s') : s'.resolveSlot = s.resolveSlot := by
  funext resolver t slot
  cases slot with
  | pending id => rw [Store.resolveSlot, Store.resolveSlot, h.resolveRequired, h.expectType]
  | linked k => rfl

theorem numberOf (h : Alike s s') : s'.numberOf = s.numberOf := by
  funext c
  simp only [Store.numberOf, h.collections]

theorem resolverOf (h : Alike s s') : s'.resolverOf = s.resolverOf := by
  funext cs
  simp only [Store.resolverOf, h.collections]

theorem collectionIds (h : Alike s s') : s'.collectionIds = s.collectionIds := by
  funext cs
  simp only [Store.collectionIds, h.collections]

end Alike

end Store
end EventModel
