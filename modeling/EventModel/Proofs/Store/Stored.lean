import EventModel.Proofs.Store.Settling
import EventModel.Proofs.Store.Verified

/-!
# Stored collections

What the buffers of a collection hold is more than its rows: without verification, columns may have
elements that no window selects, and all of them are resolved. A collection that was rebuilt pends
with what was stored until its addresses are resolved. The flat form of what was stored has a row
for each record.
-/

namespace EventModel

variable {t : DataType}

/-! ## Rows of contents -/

namespace Contents

variable {c : Contents t} {record : Record t}

/-- The windows of a record lie within their columns. -/
structure Fits (c : Contents t) (record : Record t) : Prop where
  toMany : ∀ r : Fin t.toMany.length, (relationWindow record r).Fits c.toMany[r].length
  members : ∀ m : Fin t.members.length, (memberWindow record m).Fits c.members[m].length

/-- A record becomes the body of its row if its windows lie within their columns. -/
theorem body_eq_ok_iff {body : Body t} (i : Nat) :
    c.body record = .ok body ↔ c.Fits record ∧ body = (c.row i record).body := by
  unfold Contents.body
  rw [bind_eq_ok_iff]
  constructor
  · rintro ⟨bounds, hbounds, h⟩
    rcases bind_eq_ok_iff.1 h with ⟨members, hmembers, hbody⟩
    have hsegments := fun m => Window.slice_eq_ok_iff.1 (tryOfFn_apply hmembers m)
    refine ⟨⟨?_, fun m => (hsegments m).1⟩, ?_⟩
    · intro r
      exact (Window.checked_eq_ok_iff.1 (tryOfFn_apply hbounds r)).1
    · have hcolumns : members = (c.row i record).members := by
        refine Vector.ext ?_
        intro m hm
        rw [row, Vector.getElem_ofFn]
        exact (hsegments ⟨m, hm⟩).2
      rw [← Except.ok.inj hbody, hcolumns]
      rfl
  · rintro ⟨hfits, rfl⟩
    refine ⟨_, tryOfFn_of_forall fun r => Window.checked_eq_ok_iff.2 ⟨hfits.toMany r, rfl⟩, ?_⟩
    refine bind_eq_ok_iff.2 ⟨_, tryOfFn_of_forall fun m =>
      Window.slice_eq_ok_iff.2 ⟨hfits.members m, rfl⟩, rfl⟩

theorem mapM_body_eq_ok_iff {bodies : List (Body t)} :
    c.records.mapM c.body = .ok bodies ↔
      (∀ record ∈ c.records, c.Fits record) ∧ bodies = c.rows.map Row.body := by
  have hrows : c.rows.map Row.body = c.records.map fun record => (c.row 0 record).body :=
    map_rows fun _ _ => rfl
  have hpairs : ∀ records : List (Record t),
      List.Forall₂ (fun record body => body = (c.row 0 record).body) records bodies ↔
        bodies = records.map fun record => (c.row 0 record).body := by
    intro records
    rw [← List.forall₂_eq_eq_eq, List.forall₂_map_right_iff]
    exact ⟨fun h => h.flip, fun h => h.flip⟩
  simp only [mapM_eq_ok_iff, body_eq_ok_iff 0, hrows]
  rw [List.forall₂_and_left, hpairs]

theorem getElem?_rows {i : Nat} {row : Row t} (h : c.rows[i]? = some row) :
    ∃ record, c.records[i]? = some record ∧ row = c.row i record := by
  rw [rows, List.getElem?_mapIdx] at h
  rcases Option.map_eq_some_iff.1 h with ⟨record, hrecord, heq⟩
  exact ⟨record, hrecord, heq.symm⟩

/-- The row of a record has what the windows of the record select. -/
theorem Fits.slice (h : c.Fits record) (i : Nat) (r : Fin t.toMany.length) :
    (relationWindow record r).slice c.toMany[r] = .ok (c.row i record).toMany[r] := by
  refine Window.slice_eq_ok_iff.2 ⟨h.toMany r, ?_⟩
  simp [row]

/-- The row of a record has the address that stands in its place in the column. -/
theorem getElem?_toOne {i : Nat} (hrecord : c.records[i]? = some record)
    {r : Fin t.toOne.length} (hlength : c.toOne[r].length = c.records.length) :
    c.toOne[r][i]? = some (c.row i record).toOne[r] := by
  have hlt : i < c.toOne[r].length := hlength ▸ (List.getElem?_eq_some_iff.1 hrecord).1
  have hget := List.getElem?_eq_getElem hlt
  simp only [getElem_fin] at hget
  simp [row, hget]

theorem slice_contentsOfRows {rows : List (Row t)} (htiles : RowsTile rows) {row : Row t}
    (hrow : row ∈ rows) (r : Fin t.toMany.length) :
    (relationWindow row.record r).slice (contentsOfRows rows).toMany[r] = .ok row.toMany[r] := by
  have hentry : (relationWindow row.record r, row.toMany[r]) ∈ relationEntries rows r :=
    List.mem_map_of_mem hrow
  have hsliced := @Tiles.slice _ [] _ (htiles.relations r) _ hentry
  rwa [List.nil_append, columnOf_relationEntries] at hsliced

/-- The records of tiling rows have these rows again. -/
theorem row_contentsOfRows {rows : List (Row t)} (htiles : RowsTile rows) {i : Nat} {row : Row t}
    (hrow : rows[i]? = some row) : (contentsOfRows rows).row i row.record = row := by
  have hmem := List.mem_of_getElem? hrow
  have htoMany : (Vector.ofFn fun r => (relationWindow row.record r).segment
      (contentsOfRows rows).toMany[r]) = row.toMany := by
    refine Vector.ext ?_
    intro r hr
    rw [Vector.getElem_ofFn]
    exact (Window.slice_eq_ok_iff.1 (slice_contentsOfRows htiles hmem ⟨r, hr⟩)).2.symm
  have hmembers : (Vector.ofFn fun m => (memberWindow row.record m).segment
      (contentsOfRows rows).members[m]) = row.members := by
    have hbody := ((body_eq_ok_iff i).1 (Store.body_contentsOfRows htiles hmem)).2
    exact (congrArg Body.members hbody).symm
  have htoOne : (Vector.ofFn fun r => (contentsOfRows rows).toOne[r][i]?.getD .untracked) =
      row.toOne := by
    refine Vector.ext ?_
    intro r hr
    simp [contentsOfRows, hrow]
  rw [Contents.row, htoMany, hmembers, htoOne]

theorem rows_contentsOfRows {rows : List (Row t)} (htiles : RowsTile rows) :
    (contentsOfRows rows).rows = rows := by
  refine List.ext_getElem? ?_
  intro i
  rw [Contents.rows, List.getElem?_mapIdx]
  rcases hrow : rows[i]? with _ | row
  · simp [contentsOfRows, hrow]
  · rw [← row_contentsOfRows htiles hrow]
    simp [contentsOfRows, hrow]

end Contents

/-! ## Stored collections -/

/-- What the buffers of a collection of type `t` hold. -/
inductive Stored (t : DataType)
  | owned (contents : Contents t)
  | subset (ids : List ObjectId)

/-- A stored collection with the name and the number that it has in a frame. -/
structure StoredCollection where
  name : String
  id : CollectionId
  type : DataType
  stored : Stored type

/-- The flat form of what is stored. -/
def Stored.flat : Stored t → Flat t
  | .owned contents => .owned contents.rows
  | .subset ids => .subset ids

def StoredCollection.flat (e : StoredCollection) : FlatCollection :=
  ⟨e.name, e.id, e.type, e.stored.flat⟩

/-- What the buffers of a flat form hold. -/
def Flat.stored : Flat t → Stored t
  | .owned rows => .owned (contentsOfRows rows)
  | .subset ids => .subset ids

def FlatCollection.stored (e : FlatCollection) : StoredCollection :=
  ⟨e.name, e.id, e.type, e.flat.stored⟩

theorem Flat.flat_stored {flat : Flat t} (h : flat.IsTiled) : flat.stored.flat = flat := by
  cases flat with
  | owned rows => exact congrArg Flat.owned (Contents.rows_contentsOfRows h)
  | subset ids => rfl

theorem FlatCollection.flat_stored {e : FlatCollection} (h : e.flat.IsTiled) :
    e.stored.flat = e :=
  congrArg (FlatCollection.mk e.name e.id e.type) (Flat.flat_stored h)

/-- The buffers hold this. -/
inductive Buffers.Holds (b : Buffers) (t : DataType) (config : Config) : Stored t → Prop
  | owned {contents : Contents t} {bodies : List (Body t)} (hsubset : b.subset = false)
      (hdecode : Store.decodeOwned t b config = .ok (contents, bodies)) :
      Holds b t config (.owned contents)
  | subset {ids : List ObjectId} (hsubset : b.subset = true)
      (hdecode : Store.decodeSubset t b = .ok ids) : Holds b t config (.subset ids)

/-- Buffers that encode a flat form hold what it stores, whether they are verified or not. -/
theorem Flat.holds {flat : Flat t} (h : flat.IsTiled) (config : Config) :
    flat.buffers.Holds t config flat.stored := by
  cases flat with
  | owned rows => exact .owned rfl (Store.decodeOwned_buffersOfRows h config)
  | subset ids => exact .subset rfl (Store.decodeSubset_buffersOfIds ids)

namespace Store

variable {s s' : Store} {c : CollectionKey} {id : CollectionId} {stored : Stored t} {flat : Flat t}
  {resolver : Resolver}

/-! ## Collections that pend -/

/-- The collection was rebuilt from what is stored, perhaps under another number, and none of its
addresses is resolved. -/
inductive Pends (s : Store) (c : CollectionKey) (t : DataType) (id : CollectionId) :
    Stored t → Prop
  | owned {keys : List ObjectKey} {contents : Contents t} {origin : CollectionId}
      (hstands : s.Stands c t id (.owned keys.toArray)
        (some ⟨origin, .stored contents.toMany contents.toOne⟩))
      (howns : s.Owns c keys (contents.rows.map Row.body))
      (hfits : ∀ record ∈ contents.records, contents.Fits record)
      (hsingles : ∀ r : Fin t.toOne.length, contents.toOne[r].length = contents.records.length) :
      Pends s c t id (.owned contents)
  | subset {ids : List ObjectId} {origin : CollectionId} (hpending : s.IsPending c t id origin ids) :
      Pends s c t id (.subset ids)

theorem Pends.steady (h : s.Pends c t id stored) (hsteady : Steady s s' c) :
    s'.Pends c t id stored := by
  cases h with
  | owned hstands howns hfits hsingles =>
    exact .owned (hsteady.stands hstands) (hsteady.owns howns) hfits hsingles
  | subset hpending => exact .subset (hsteady.stands hpending)

theorem Pends.exists_collection (h : s.Pends c t id stored) :
    ∃ col, s.collections.get? c = some col ∧ col.id = id := by
  cases h with
  | owned hstands _ _ _ =>
    rcases hstands.collection with ⟨col, hcol, -, hid, -⟩
    exact ⟨col, hcol, hid⟩
  | subset hpending =>
    rcases Stands.collection hpending with ⟨col, hcol, -, hid, -⟩
    exact ⟨col, hcol, hid⟩

/-- The slot has the name of the stored collection, and its collection pends. -/
structure PendsAs (s : Store) (slot : String × CollectionKey) (e : StoredCollection) : Prop where
  name : slot.1 = e.name
  collection : s.Pends slot.2 e.type e.id e.stored

end Store

end EventModel
