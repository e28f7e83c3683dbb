import EventModel.Proofs.Store.Rows
import EventModel.Proofs.Store.Standing
import EventModel.Proofs.Store.Written

/-!
# Flat collections

The buffers of a collection encode the rows of its objects or, for a subset collection, the
addresses of its places. A frame that is written becomes one flat collection for each of its names.
-/

namespace EventModel

variable {t : DataType}

/-- What the buffers of a collection of type `t` encode. -/
inductive Flat (t : DataType)
  | owned (rows : List (Row t))
  | subset (ids : List ObjectId)

namespace Flat

/-- The encoded form. -/
def buffers : Flat t → Buffers
  | owned rows => Store.buffersOfRows t rows
  | subset ids => Store.buffersOfIds t ids

/-- The number of places. -/
def size : Flat t → Nat
  | owned rows => rows.length
  | subset ids => ids.length

/-- The windows of the rows tile every column. -/
def IsTiled : Flat t → Prop
  | owned rows => RowsTile rows
  | subset _ => True

/-- The address is stored in the flat form. -/
inductive Stores : Flat t → ObjectId → Prop
  | toMany {rows : List (Row t)} {row : Row t} (hrow : row ∈ rows) (r : Fin t.toMany.length)
      {id : ObjectId} (hid : id ∈ row.toMany[r]) : Stores (.owned rows) id
  | toOne {rows : List (Row t)} {row : Row t} (hrow : row ∈ rows) (r : Fin t.toOne.length) :
      Stores (.owned rows) row.toOne[r]
  | place {ids : List ObjectId} {id : ObjectId} (hid : id ∈ ids) : Stores (.subset ids) id

/-- To-one relations that are not set have the one address that stands for that. -/
def IsCanonical : Flat t → Prop
  | owned rows => ∀ r : Fin t.toOne.length, ∀ row ∈ rows, row.toOne[r].isUntracked = true →
      row.toOne[r] = .untracked
  | subset _ => True

@[simp]
theorem buffers_type (flat : Flat t) : flat.buffers.type = t.name := by
  cases flat <;> rfl

end Flat

/-- A flat collection with the name and the number that it has in a frame. -/
structure FlatCollection where
  name : String
  id : CollectionId
  type : DataType
  flat : Flat type

/-- What the flat form of a frame holds for a collection. -/
def FlatCollection.data (e : FlatCollection) : String × Buffers :=
  (e.name, e.flat.buffers)

namespace Store

variable {s s' : Store} {c : CollectionKey} {id : CollectionId}

/-- The flat form of a collection before it is encoded. -/
def flatOf (s : Store) (collection : Collection) : Except Error (Flat collection.type) :=
  match collection.storage with
  | .owned objects =>
    .owned <$> s.flattenObjects collection.type collection.origin (.zero _) 0 objects.toList
  | .subset slots => .subset <$> slots.toList.mapM s.slotId

/-- The collection stands under the number `id` and has this flat form. -/
inductive HasFlat (s : Store) (c : CollectionKey) (t : DataType) (id : CollectionId) :
    Flat t → Prop
  | owned {keys : List ObjectKey} {origin : Option (Origin t)} {rows : List (Row t)}
      (hstands : s.Stands c t id (.owned keys.toArray) origin)
      (hrows : s.FlattensAll origin (.zero t) 0 keys rows) : HasFlat s c t id (.owned rows)
  | subset {slots : List Slot} {origin : Option (Origin t)} {ids : List ObjectId}
      (hstands : s.Stands c t id (.subset slots.toArray) origin)
      (hids : List.Forall₂ (fun slot id => s.slotId slot = .ok id) slots ids) :
      HasFlat s c t id (.subset ids)

theorem flattenCollection_eq_map (col : Collection) :
    s.flattenCollection col = Flat.buffers <$> s.flatOf col := by
  unfold flattenCollection flatOf
  rcases hstorage : col.storage with objects | slots
  · dsimp only
    rcases s.flattenObjects col.type col.origin (.zero _) 0 objects.toList with e | rows
    · rfl
    · rfl
  · dsimp only
    rcases slots.toList.mapM s.slotId with e | ids
    · rfl
    · rfl

theorem hasFlat_of_flatOf {col : Collection} (hcol : s.collections.get? c = some col)
    {flat : Flat col.type} (h : s.flatOf col = .ok flat) : s.HasFlat c col.type col.id flat := by
  have hstands := stands_of_get? hcol
  unfold flatOf at h
  rcases hstorage : col.storage with objects | slots
  · rw [hstorage] at hstands
    simp only [hstorage, map_eq_ok_iff] at h
    rcases h with ⟨rows, hrows, rfl⟩
    exact .owned hstands (flattenObjects_eq_ok_iff.1 hrows)
  · rw [hstorage] at hstands
    simp only [hstorage, map_eq_ok_iff] at h
    rcases h with ⟨ids, hids, rfl⟩
    exact .subset hstands (mapM_eq_ok_iff.1 hids)

theorem hasFlat_of_flatten {b : Buffers} (h : s.flatten c = .ok b) :
    ∃ (col : Collection) (flat : Flat col.type), s.collections.get? c = some col ∧
      s.HasFlat c col.type col.id flat ∧ b = flat.buffers := by
  rcases bind_eq_ok_iff.1 h with ⟨col, hcollection, hbuffers⟩
  have hcol := collection_eq_ok_iff.1 hcollection
  rw [flattenCollection_eq_map, map_eq_ok_iff] at hbuffers
  rcases hbuffers with ⟨flat, hflat, rfl⟩
  exact ⟨col, flat, hcol, hasFlat_of_flatOf hcol hflat, rfl⟩

namespace HasFlat

variable {flat : Flat t}

/-- The collection that has a flat form, taken apart. -/
theorem flatOf (h : s.HasFlat c t id flat) : ∃ config storage generation prepared origin,
    s.collections.get? c = some ⟨t, id, config, storage, generation, prepared, origin⟩ ∧
      s.flatOf ⟨t, id, config, storage, generation, prepared, origin⟩ = .ok flat := by
  cases h with
  | owned hstands hrows =>
    rcases hstands with ⟨config, generation, prepared, hcol⟩
    refine ⟨config, _, generation, prepared, _, hcol, ?_⟩
    exact map_eq_ok_iff.2 ⟨_, flattenObjects_eq_ok_iff.2 hrows, rfl⟩
  | subset hstands hids =>
    rcases hstands with ⟨config, generation, prepared, hcol⟩
    refine ⟨config, _, generation, prepared, _, hcol, ?_⟩
    exact map_eq_ok_iff.2 ⟨_, mapM_eq_ok_iff.2 hids, rfl⟩

theorem flatten (h : s.HasFlat c t id flat) : s.flatten c = .ok flat.buffers := by
  rcases h.flatOf with ⟨config, storage, generation, prepared, origin, hcol, hflat⟩
  refine bind_eq_ok_iff.2 ⟨_, collection_eq_ok_iff.2 hcol, ?_⟩
  rw [flattenCollection_eq_map]
  exact map_eq_ok_iff.2 ⟨flat, hflat, rfl⟩

theorem isTiled (h : s.HasFlat c t id flat) : flat.IsTiled := by
  cases h with
  | owned _ hrows => exact hrows.rowsTile
  | subset _ _ => trivial

end HasFlat

/-! ## Flat frames -/

/-- The collection of a slot and a flat collection have one name, and `P` relates them. -/
structure Names (P : CollectionKey → (t : DataType) → CollectionId → Flat t → Prop)
    (slot : String × CollectionKey) (e : FlatCollection) : Prop where
  name : slot.1 = e.name
  collection : P slot.2 e.type e.id e.flat

/-- What is written for the collections of a frame are the buffers of their flat forms. -/
theorem forall₂_isWritten_iff {slots : List (String × CollectionKey)}
    {data : List (String × Buffers)} :
    List.Forall₂ s.IsWritten slots data ↔ ∃ entries,
      List.Forall₂ (Names s.HasFlat) slots entries ∧ data = entries.map FlatCollection.data := by
  constructor
  · intro hall
    induction hall with
    | nil => exact ⟨[], .nil, rfl⟩
    | @cons slot datum slots data hhead _ ih =>
      rcases ih with ⟨entries, hnames, rfl⟩
      rcases hasFlat_of_flatten hhead.2 with ⟨col, flat, -, hflat, hbuffers⟩
      refine ⟨⟨slot.1, col.id, col.type, flat⟩ :: entries, .cons ⟨rfl, hflat⟩ hnames, ?_⟩
      have hdatum : datum = (slot.1, flat.buffers) := Prod.ext hhead.1 hbuffers
      rw [hdatum]
      rfl
  · rintro ⟨entries, hnames, rfl⟩
    refine List.forall₂_map_right_iff.2 (hnames.imp ?_)
    intro slot e he
    exact ⟨he.name.symm, he.collection.flatten⟩

/-- A frame is written to the flat forms of its collections. -/
theorem writeFrame_eq_ok_iff_names (h : Reachable s) {f : FrameKey} {d : FrameData} :
    (writeFrame f s).1 = .ok d ↔
      ∃ frame entries, s.frame f = .ok frame ∧ List.Forall₂ (Names s.HasFlat) frame.slots entries ∧
        d = ⟨frame.ids, entries.map FlatCollection.data, frame.parameters⟩ := by
  rw [writeFrame_fst_eq_ok_iff h]
  constructor
  · rintro ⟨frame, hframe, hids, hparameters, hall⟩
    rcases forall₂_isWritten_iff.1 hall with ⟨entries, hnames, hdata⟩
    refine ⟨frame, entries, hframe, hnames, ?_⟩
    rw [← hids, ← hparameters, ← hdata]
  · rintro ⟨frame, entries, hframe, hnames, rfl⟩
    exact ⟨frame, hframe, rfl, rfl, forall₂_isWritten_iff.2 ⟨entries, hnames, rfl⟩⟩

end Store

end EventModel
