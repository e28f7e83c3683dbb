import EventModel.Proofs.Store.ResolutionOrder
import EventModel.Proofs.Store.View

/-!
# Where addresses lead

An address that is stored in a frame's flat form leads to an object exactly if it locates one: its
number is that of a normal collection, and its index a position there. This does not depend on the
store that the frame is read into, nor on the order of its collections, as long as the numbers of
the collections are distinct and no address has that of a subset collection. So a frame can be read
exactly if every address locates an object of the type that is asked for (`readFrame_iff`).
-/

namespace EventModel

/-- The address is that of the object at a site, which has type `t`. -/
inductive Locates (flats : List FlatCollection) : DataType → ObjectId → Site → Prop
  | intro {name : String} {t : DataType} {rows : List (Row t)} {id : ObjectId} {i : Nat}
      (hmem : ⟨name, id.collection, t, .owned rows⟩ ∈ flats) (hposition : id.position? = some i)
      (hlt : i < rows.length) : Locates flats t id (name, i)

/-- Addresses of objects are not untracked. -/
theorem ObjectId.isUntracked_of_position? {id : ObjectId} {i : Nat} (h : id.position? = some i) :
    id.isUntracked = false := by
  rcases huntracked : id.isUntracked
  · rfl
  · have hindex : id.index = untrackedIndex := by simpa [isUntracked] using huntracked
    unfold position? at h
    rw [hindex] at h
    cases h

/-- The addresses that are stored. -/
def Stored.ids {t : DataType} : Stored t → List ObjectId
  | .owned contents => contents.toMany.toList.flatten ++ contents.toOne.toList.flatten
  | .subset ids => ids

/-- Every address locates an object of the type that is asked for. -/
inductive Answered (flats : List FlatCollection) {t : DataType} : Stored t → Prop
  | owned {contents : Contents t}
      (htoMany : ∀ r : Fin t.toMany.length, ∀ id ∈ contents.toMany[r],
        ∃ u site, u.name = (t.toMany.get r).target ∧ Locates flats u id site)
      (htoOne : ∀ r : Fin t.toOne.length, ∀ id ∈ contents.toOne[r], id.isUntracked = true ∨
        ∃ u site, u.name = (t.toOne.get r).target ∧ Locates flats u id site) :
      Answered flats (.owned contents)
  | subset {ids : List ObjectId} (hids : ∀ id ∈ ids, ∃ site, Locates flats t id site) :
      Answered flats (.subset ids)

/-- Addresses do not see the order of the collections. -/
theorem Locates.of_perm {flats flats' : List FlatCollection} (hperm : flats.Perm flats')
    {t : DataType} {id : ObjectId} {site : Site} (h : Locates flats t id site) :
    Locates flats' t id site := by
  rcases h with ⟨hmem, hposition, hlt⟩
  exact .intro (hperm.mem_iff.1 hmem) hposition hlt

theorem Answered.of_perm {flats flats' : List FlatCollection} (hperm : flats.Perm flats')
    {t : DataType} {stored : Stored t} (h : Answered flats stored) : Answered flats' stored := by
  cases h with
  | owned htoMany htoOne =>
    refine .owned ?_ ?_
    · intro r id hid
      rcases htoMany r id hid with ⟨u, site, hname, hlocates⟩
      exact ⟨u, site, hname, hlocates.of_perm hperm⟩
    · intro r id hid
      rcases htoOne r id hid with huntracked | ⟨u, site, hname, hlocates⟩
      · exact .inl huntracked
      · exact .inr ⟨u, site, hname, hlocates.of_perm hperm⟩
  | subset hids =>
    refine .subset ?_
    intro id hid
    rcases hids id hid with ⟨site, hlocates⟩
    exact ⟨site, hlocates.of_perm hperm⟩

namespace Store

variable {s s' : Store} {c : CollectionKey} {t : DataType} {id : ObjectId} {k : ObjectKey}
  {resolver : Resolver} {number : CollectionId} {flat : Flat t} {stored : Stored t}

/-! ## The shape of a collection -/

/-- The collection has the type, the number and as many objects as the flat form. -/
inductive HasShape (s : Store) (c : CollectionKey) (t : DataType) (number : CollectionId) :
    Flat t → Prop
  | owned {keys : List ObjectKey} {origin : Option (Origin t)} {rows : List (Row t)}
      (hstands : s.Stands c t number (.owned keys.toArray) origin)
      (hlength : keys.length = rows.length) : HasShape s c t number (.owned rows)
  | subset {slots : Array Slot} {origin : Option (Origin t)} {ids : List ObjectId}
      (hstands : s.Stands c t number (.subset slots) origin) : HasShape s c t number (.subset ids)

theorem Pends.hasShape (h : s.Pends c t number stored) : s.HasShape c t number stored.flat := by
  cases h with
  | owned hstands howns _ _ => exact .owned hstands (howns.length.trans (List.length_map _))
  | subset hpending => exact .subset hpending

theorem Restored.hasShape (h : s.Restored resolver c t number flat) :
    s.HasShape c t number flat := by
  cases h with
  | owned hstands hlength _ => exact .owned hstands hlength
  | subset hstands _ _ => exact .subset hstands

theorem HasShape.exists_collection (h : s.HasShape c t number flat) :
    ∃ col, s.collections.get? c = some col ∧ col.id = number := by
  cases h with
  | owned hstands _ =>
    rcases hstands.collection with ⟨col, hcol, -, hid, -⟩
    exact ⟨col, hcol, hid⟩
  | subset hstands =>
    rcases hstands.collection with ⟨col, hcol, -, hid, -⟩
    exact ⟨col, hcol, hid⟩

/-! ## Addresses -/

section Addresses

variable {slots : List (String × CollectionKey)} {flats : List FlatCollection}
  (hshapes : List.Forall₂ (Names s.HasShape) slots flats)

include hshapes

theorem exists_of_resolverOf (hc : s.resolverOf (slots.map (·.2)) number = some c) :
    ∃ e ∈ flats, e.id = number ∧ (e.name, c) ∈ slots ∧ s.HasShape c e.type e.id e.flat := by
  rw [resolverOf_eq_lookup] at hc
  have hmem := List.mem_reverse.1 (mem_of_lookup_eq_some hc)
  rcases exists_right_of_forall₂ (forall₂_known (fun _ _ _ _ => HasShape.exists_collection) hshapes)
    hmem with ⟨e, he, hid, hslot, hshape⟩
  exact ⟨e, he, hid.symm, hslot, hshape⟩

theorem exists_resolverOf (hnumbers : (flats.map (·.id)).Nodup) {e : FlatCollection}
    (he : e ∈ flats) : ∃ c, s.resolverOf (slots.map (·.2)) e.id = some c ∧ (e.name, c) ∈ slots ∧
      s.HasShape c e.type e.id e.flat := by
  have hknown := forall₂_known (fun _ _ _ _ => HasShape.exists_collection) hshapes
  have hkeys : (s.known (slots.map (·.2))).map (·.1) = flats.map (·.id) := by
    rw [← List.forall₂_eq_eq_eq, List.forall₂_map_left_iff, List.forall₂_map_right_iff]
    exact hknown.imp fun _ _ h => h.1
  rcases exists_right_of_forall₂ hknown.flip he with ⟨entry, hentry, hid, hslot, hshape⟩
  refine ⟨entry.2, ?_, hslot, hshape⟩
  rw [resolverOf_eq_lookup]
  refine lookup_eq_some_of_mem ?_ (List.mem_reverse.2 (hid ▸ hentry))
  rw [List.map_reverse, List.nodup_reverse, hkeys]
  exact hnumbers

/-- An address that locates an object leads to it. -/
theorem resolves_of_locates (h : WellFormed s) (hnumbers : (flats.map (·.id)).Nodup) {site : Site}
    (hlocates : Locates flats t id site) : ∃ c k, (site.1, c) ∈ slots ∧ s.Keeps c site.2 k ∧
      s.Resolves (s.resolverOf (slots.map (·.2))) t.name id k ∧
      ∃ o, s.objects.get? k = some o ∧ o.type = t := by
  rcases hlocates with @⟨name, _, rows, _, i, hmem, hposition, hlt⟩
  rcases exists_resolverOf hshapes hnumbers hmem with ⟨c, hc, hslot, hshape⟩
  dsimp only at hc hslot hshape
  cases hshape with
  | @owned keys origin _ hstands hlength =>
    rcases hstands with ⟨config, generation, prepared, hcol⟩
    have hi : i < keys.length := hlength ▸ hlt
    have hkey : keys[i]? = some keys[i] := List.getElem?_eq_getElem hi
    rcases h.listed c _ _ i _ hcol rfl (List.getElem?_toArray ▸ hkey) with ⟨o, ho, htype, htracking⟩
    refine ⟨c, _, hslot, ⟨o, ho, htracking⟩, ⟨ObjectId.isUntracked_of_position? hposition, ?_, ?_⟩,
      o, ho, htype⟩
    · exact typeName?_eq_some_iff.2 ⟨o, ho, congrArg DataType.name htype⟩
    · refine resolveObject_eq_ok_iff.2 ⟨c, _, i, hc, hcol, hposition, ?_⟩
      unfold objectAtPosition
      dsimp only
      rw [List.getElem?_toArray, hkey]

/-- An address that leads to an object, but to no subset collection, locates it. -/
theorem exists_locates (h : WellFormed s) {type : String}
    (havoids : s.AvoidsSubset (s.resolverOf (slots.map (·.2))) id)
    (hk : s.Resolves (s.resolverOf (slots.map (·.2))) type id k) :
    ∃ u site c, u.name = type ∧ Locates flats u id site ∧ (site.1, c) ∈ slots ∧
      s.Keeps c site.2 k ∧ ∃ o, s.objects.get? k = some o ∧ o.type = u := by
  rcases resolveObject_eq_ok_iff.1 hk.object with ⟨c, col, i, hc, hcol, hposition, hplace⟩
  have hnormal := havoids c hc col hcol
  rcases exists_of_resolverOf hshapes hc with ⟨⟨name, number, u, flat⟩, he, hid, hslot, hshape⟩
  dsimp only at hid hslot hshape
  subst hid
  cases hshape with
  | @owned keys origin rows hstands hlength =>
    rcases hstands with ⟨config, generation, prepared, hcol'⟩
    cases hcol.symm.trans hcol'
    rcases objectAtPosition_eq_ok hplace with ⟨objects, hstorage, hi⟩ | ⟨slots', hstorage, -⟩
    · cases hstorage
      rcases h.listed c _ _ i k hcol rfl hi with ⟨o, ho, htype, htracking⟩
      -- the type was checked when the object was found
      have hname : u.name = type := by
        rcases typeName?_eq_some_iff.1 hk.type with ⟨o', ho', hname⟩
        cases ho.symm.trans ho'
        exact (congrArg DataType.name htype).symm.trans hname
      have hlt : i < rows.length := by
        rw [← hlength]
        exact (List.getElem?_eq_some_iff.1 (List.getElem?_toArray ▸ hi)).1
      exact ⟨u, (name, i), c, hname, .intro he hposition hlt, hslot, ⟨o, ho, htracking⟩, o, ho, htype⟩
    · cases hstorage
  | subset hstands =>
    rcases hstands with ⟨config, generation, prepared, hcol'⟩
    cases hcol.symm.trans hcol'
    cases hnormal

/-- What is found is located, if no address that is stored leads to a subset collection. -/
theorem answered_of_findsAll (h : WellFormed s)
    (havoids : ∀ id ∈ stored.ids, id.isUntracked = false →
      s.AvoidsSubset (s.resolverOf (slots.map (·.2))) id)
    (hfinds : s.FindsAll (s.resolverOf (slots.map (·.2))) t stored) : Answered flats stored := by
  cases hfinds with
  | @owned contents htoMany htoOne =>
    refine .owned ?_ ?_
    · intro r id hid
      rcases htoMany r id hid with ⟨k, hk⟩
      have hmem : id ∈ (Stored.owned contents).ids :=
        List.mem_append_left _ (mem_flatten_of_getElem hid)
      rcases exists_locates hshapes h (havoids id hmem hk.tracked) hk
        with ⟨u, site, c, hname, hlocates, -⟩
      exact ⟨u, site, hname, hlocates⟩
    · intro r id hid
      rcases htoOne r id hid with ⟨place, ⟨huntracked, -⟩ | ⟨k, -, hk⟩⟩
      · exact .inl huntracked
      · have hmem : id ∈ (Stored.owned contents).ids :=
          List.mem_append_right _ (mem_flatten_of_getElem hid)
        rcases exists_locates hshapes h (havoids id hmem hk.tracked) hk
          with ⟨u, site, c, hname, hlocates, -⟩
        exact .inr ⟨u, site, hname, hlocates⟩
  | subset hids =>
    refine .subset ?_
    intro id hid
    rcases hids id hid with ⟨k, hk, o, ho, htype⟩
    rcases exists_locates hshapes h (havoids id hid hk.tracked) hk
      with ⟨u, site, c, -, hlocates, -, -, o', ho', htype'⟩
    cases ho.symm.trans ho'
    cases htype.symm.trans htype'
    exact ⟨site, hlocates⟩

/-- What is located is found, as numbers tell the collections apart. -/
theorem findsAll_of_answered (h : WellFormed s) (hnumbers : (flats.map (·.id)).Nodup)
    (hanswered : Answered flats stored) :
    s.FindsAll (s.resolverOf (slots.map (·.2))) t stored := by
  cases hanswered with
  | owned htoMany htoOne =>
    refine .owned ?_ ?_
    · intro r id hid
      rcases htoMany r id hid with ⟨u, site, hname, hlocates⟩
      rcases resolves_of_locates hshapes h hnumbers hlocates with ⟨c, k, -, -, hk, -⟩
      exact ⟨k, hname ▸ hk⟩
    · intro r id hid
      rcases htoOne r id hid with huntracked | ⟨u, site, hname, hlocates⟩
      · exact ⟨none, .inl ⟨huntracked, rfl⟩⟩
      · rcases resolves_of_locates hshapes h hnumbers hlocates with ⟨c, k, -, -, hk, -⟩
        exact ⟨some k, .inr ⟨k, rfl, hname ▸ hk⟩⟩
  | subset hids =>
    refine .subset ?_
    intro id hid
    rcases hids id hid with ⟨site, hlocates⟩
    rcases resolves_of_locates hshapes h hnumbers hlocates with ⟨c, k, -, -, hk, ho⟩
    exact ⟨k, hk, ho⟩

theorem findsAll_iff_answered (h : WellFormed s) (hnumbers : (flats.map (·.id)).Nodup)
    (havoids : ∀ id ∈ stored.ids, id.isUntracked = false →
      s.AvoidsSubset (s.resolverOf (slots.map (·.2))) id) :
    s.FindsAll (s.resolverOf (slots.map (·.2))) t stored ↔ Answered flats stored :=
  ⟨answered_of_findsAll hshapes h havoids, findsAll_of_answered hshapes h hnumbers⟩

end Addresses

/-! ## Frames that can be read -/

theorem FindsAll.sameNormals (hfinds : s.FindsAll resolver t stored) (h : SameNormals s s')
    (havoids : ∀ id ∈ stored.ids, id.isUntracked = false → s.AvoidsSubset resolver id) :
    s'.FindsAll resolver t stored := by
  cases hfinds with
  | @owned contents htoMany htoOne =>
    refine .owned ?_ ?_
    · intro r id hid
      rcases htoMany r id hid with ⟨k, hk⟩
      have hmem : id ∈ (Stored.owned contents).ids :=
        List.mem_append_left _ (mem_flatten_of_getElem hid)
      exact ⟨k, hk.sameNormals h (havoids id hmem hk.tracked)⟩
    · intro r id hid
      rcases htoOne r id hid with ⟨place, hunset | ⟨k, hplace, hk⟩⟩
      · exact ⟨place, .inl hunset⟩
      · have hmem : id ∈ (Stored.owned contents).ids :=
          List.mem_append_right _ (mem_flatten_of_getElem hid)
        exact ⟨place, .inr ⟨k, hplace, hk.sameNormals h (havoids id hmem hk.tracked)⟩⟩
  | subset hids =>
    refine .subset ?_
    intro id hid
    rcases hids id hid with ⟨k, hk, ho⟩
    exact ⟨k, hk.sameNormals h (havoids id hid hk.tracked), h.exists_type ho⟩

/-- Before the first of them was resolved, the collections already found what they found later. -/
theorem findsAll_of_forEach (h : WellFormed s) {slots : List (String × CollectionKey)}
    {entries : List StoredCollection} (hpends : List.Forall₂ s.PendsAs slots entries)
    (hnodup : (slots.map (·.2)).Nodup)
    (havoids : ∀ e ∈ entries, ∀ id ∈ e.stored.ids, id.isUntracked = false →
      s.AvoidsSubset resolver id)
    (hrun : forEach (setReferences resolver) (slots.map (·.2)) s = (.ok (), s')) :
    ∀ e ∈ entries, s.FindsAll resolver e.type e.stored := by
  -- on the collections that are left to resolve
  induction slots generalizing s entries with
  | nil =>
    cases hpends
    simp
  | cons slot slots ih =>
    rcases List.forall₂_cons_left_iff.1 hpends with ⟨e, entries, hhead, hrest, rfl⟩
    rcases List.nodup_cons.1 hnodup with ⟨hslot, hslots⟩
    rcases bind_eq_ok hrun with ⟨⟨⟩, s₁, hfirst, hothers⟩
    rcases hhead.collection.setReferences h hfirst with ⟨-, hwithin, hfinds⟩
    have hsame := sameNormals_setReferences h hfirst
    have hnot : ∀ d ∈ slots.map (·.2), d ∉ [slot.2] := by
      intro d hd hmem
      rw [List.mem_singleton.1 hmem] at hd
      exact hslot hd
    -- resolving the first one leaves normal collections and their objects in place
    have havoids₁ : ∀ e ∈ entries, ∀ id ∈ e.stored.ids, id.isUntracked = false →
        s₁.AvoidsSubset resolver id := by
      intro e' he' id hid htracked
      exact hsame.avoidsSubset (havoids e' (List.mem_cons_of_mem e he') id hid htracked)
    have hlater := ih (wellFormed_setReferences h hfirst)
      (forall₂_pendsAs_settlesWithin hwithin hnot hrest) hslots havoids₁ hothers
    intro e' he'
    rcases List.mem_cons.1 he' with rfl | he'
    · exact hfinds
    · exact (hlater e' he').sameNormals hsame.symm (havoids₁ e' he')

end Store

/-- The addresses that the columns of a collection's buffers hold. -/
def Buffers.storedIds (b : Buffers) : List ObjectId :=
  b.relations.flatMap fun raw => (raw.decode .objectId).toOption.getD []

namespace FrameData

/-- No address that is stored has the number of a subset collection. -/
def AvoidsSubsets (d : FrameData) : Prop :=
  ∀ entry ∈ d.collections, ∀ id ∈ entry.2.storedIds, id.isUntracked = false →
    ∀ entry' ∈ d.collections, entry'.2.subset = true → d.ids.id? entry'.1 ≠ some id.collection

instance (d : FrameData) : Decidable d.AvoidsSubsets :=
  inferInstanceAs (Decidable (∀ entry ∈ d.collections, ∀ id ∈ entry.2.storedIds, _))

end FrameData

namespace Store

variable {s s' : Store} {data : FrameData} {registry : Registry} {config : Config} {f : FrameKey}
  {entries : List StoredCollection}

theorem mem_storedIds {b : Buffers} {i : Nat} {ids : List ObjectId}
    (h : b.relationIds i = .ok ids) {id : ObjectId} (hid : id ∈ ids) : id ∈ b.storedIds := by
  rcases Buffers.relationIds_eq_ok_iff.1 h with ⟨raw, hraw, hdecode⟩
  refine List.mem_flatMap.2 ⟨raw, List.mem_of_getElem? hraw, ?_⟩
  rw [hdecode]
  exact hid

theorem mem_storedIds_of_holds {t : DataType} {b : Buffers} {stored : Stored t}
    (h : b.Holds t config stored) {id : ObjectId} (hid : id ∈ stored.ids) : id ∈ b.storedIds := by
  cases h with
  | @owned contents bodies _ hdecode =>
    rcases decodeOwned_eq_ok_iff.1 hdecode with ⟨hrelations, hmembers, hcontents, -⟩
    have hread := Contents.isRead_of_decode hcontents
    rcases List.mem_append.1 hid with hid | hid
    · rcases List.mem_flatten.1 hid with ⟨ids, hids, hid⟩
      rcases Vector.mem_iff_getElem.1 (Vector.mem_toList_iff.1 hids) with ⟨r, hr, rfl⟩
      exact mem_storedIds (hread.toMany ⟨r, hr⟩) hid
    · rcases List.mem_flatten.1 hid with ⟨ids, hids, hid⟩
      rcases Vector.mem_iff_getElem.1 (Vector.mem_toList_iff.1 hids) with ⟨r, hr, rfl⟩
      exact mem_storedIds (hread.toOne ⟨r, hr⟩) hid
  | @subset ids _ hdecode =>
    unfold decodeSubset at hdecode
    split at hdecode
    · rename_i raw hraw
      refine List.mem_flatMap.2 ⟨raw, hraw ▸ List.mem_cons_self, ?_⟩
      rw [hdecode]
      exact hid
    · cases hdecode

/-- What a frame's flat form holds is found wherever the frame is read. -/
structure IsReadable (registry : Registry) (config : Config) (data : FrameData)
    (entries : List StoredCollection) : Prop extends Fills registry config data entries where
  answered : ∀ e ∈ entries, Answered (entries.map StoredCollection.flat) e.stored

/-- Collections with distinct names have distinct numbers. -/
theorem Fills.numbers (hfills : Fills registry config data entries) (hids : data.ids.Built) :
    ((entries.map StoredCollection.flat).map (·.id)).Nodup := by
  have hnumbers : (entries.map (·.id)).Nodup := by
    refine List.Nodup.map_on ?_ hfills.names.of_map
    intro e he e' he' heq
    rcases exists_right_of_forall₂ hfills.takes.flip he with ⟨entry, -, htakes⟩
    rcases exists_right_of_forall₂ hfills.takes.flip he' with ⟨entry', -, htakes'⟩
    have hname := IdTable.name_eq_of_id? hids.wellNumbered htakes.id (heq ▸ htakes'.id)
    exact List.inj_on_of_nodup_map hfills.names he he' hname
  simpa [StoredCollection.flat, Function.comp_def] using hnumbers

theorem hasShape_of_pendsAs {slots : List (String × CollectionKey)}
    (h : List.Forall₂ s.PendsAs slots entries) :
    List.Forall₂ (Names s.HasShape) slots (entries.map StoredCollection.flat) :=
  List.forall₂_map_right_iff.2 (h.imp fun _ _ he => ⟨he.name, he.collection.hasShape⟩)

/-- What the flat form says of the numbers of subset collections holds wherever it is read. -/
theorem Fills.avoidsSubset (hfills : Fills registry config data entries)
    (havoids : data.AvoidsSubsets) {slots : List (String × CollectionKey)}
    (hshapes : List.Forall₂ (Names s.HasShape) slots (entries.map StoredCollection.flat))
    {e : StoredCollection} (he : e ∈ entries) {id : ObjectId} (hid : id ∈ e.stored.ids)
    (htracked : id.isUntracked = false) :
    s.AvoidsSubset (s.resolverOf (slots.map (·.2))) id := by
  intro c hc col hcol
  rcases exists_of_resolverOf hshapes hc with ⟨flat, hflat, hnumber, -, hshape⟩
  rcases List.mem_map.1 hflat with ⟨⟨name, number, t, stored⟩, he', rfl⟩
  rcases exists_right_of_forall₂ hfills.takes.flip he with ⟨entry, hentry, htakes⟩
  rcases exists_right_of_forall₂ hfills.takes.flip he' with ⟨entry', hentry', htakes'⟩
  have hnormal : entry'.2.subset = false := by
    rcases hsubset : entry'.2.subset
    · rfl
    · refine absurd ?_ (havoids entry hentry id (mem_storedIds_of_holds htakes.stored hid) htracked
        entry' hentry' hsubset)
      have hid' := htakes'.id
      rw [← htakes'.name] at hid'
      exact hid'.trans (congrArg some hnumber)
  have hstored := htakes'.stored
  dsimp only [StoredCollection.flat] at hshape hstored
  cases hstored with
  | owned hsubset hdecode =>
    cases hshape with
    | owned hstands _ =>
      rcases hstands.collection with ⟨col', hcol', -, -, hstorage⟩
      cases hcol.symm.trans hcol'
      rw [Collection.isSubset, hstorage]
      rfl
  | subset hsubset hdecode =>
    rw [hnormal] at hsubset
    cases hsubset

/-- A frame can be read into any store, or into none. -/
theorem readFrame_iff (h : WellFormed s) (hids : data.ids.Built) (havoids : data.AvoidsSubsets) :
    (∃ f s', readFrame data registry config s = (.ok f, s')) ↔
      ∃ entries, IsReadable registry config data entries := by
  constructor
  · rintro ⟨f, s', hread⟩
    rcases fills_of_readFrame hids hread with ⟨entries, hfills⟩
    rcases hfills.resolved h hids hread with ⟨s₁, frame, hfilled, hresolve⟩
    rw [resolver_eq_resolverOf hfilled.wellFormed hfilled.held] at hresolve
    have hshapes := hasShape_of_pendsAs hfilled.pends
    have havoids₁ := fun e he id hid htracked =>
      @Fills.avoidsSubset _ _ _ _ _ hfills havoids frame.slots hshapes e he id hid htracked
    have hfinds := findsAll_of_forEach hfilled.wellFormed hfilled.pends
      (hfilled.wellFormed.keys_nodup hfilled.held) havoids₁ hresolve
    refine ⟨entries, hfills, ?_⟩
    intro e he
    exact (findsAll_iff_answered hshapes hfilled.wellFormed (hfills.numbers hids)
      (havoids₁ e he)).1 (hfinds e he)
  · rintro ⟨entries, hreadable⟩
    refine hreadable.toFills.exists_readFrame h hids ?_
    intro s₁ frame hfilled e he
    rw [resolver_eq_resolverOf hfilled.wellFormed hfilled.held]
    have hshapes := hasShape_of_pendsAs hfilled.pends
    refine (findsAll_iff_answered hshapes hfilled.wellFormed (hreadable.numbers hids) ?_).2
      (hreadable.answered e he)
    exact fun id hid htracked => hreadable.toFills.avoidsSubset havoids hshapes he hid htracked

end Store

end EventModel
