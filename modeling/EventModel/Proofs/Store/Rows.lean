import EventModel.Proofs.Store.Flattened
import EventModel.Proofs.Store.Tiles

/-!
# The rows of a collection

A normal collection is flattened to one row for each object. The windows of the rows tile their
columns, and therefore the buffers of the rows decode, verified or not, to the same rows again.
-/

namespace EventModel

variable {t : DataType}

/-- The windows of the rows into the column of a relation, with what they select. -/
def relationEntries (rows : List (Row t)) (r : Fin t.toMany.length) :
    List (Window × List ObjectId) :=
  rows.map fun row => (Contents.relationWindow row.record r, row.toMany[r])

/-- The windows of the rows into the column of a member, with what they select. -/
def memberEntries (rows : List (Row t)) (m : Fin t.members.length) :
    List (Window × List t.element.Value) :=
  rows.map fun row => (Contents.memberWindow row.record m, row.members[m])

/-- The windows of the rows tile every column. -/
structure RowsTile (rows : List (Row t)) : Prop where
  relations : ∀ r : Fin t.toMany.length, Tiles 0 (relationEntries rows r)
  members : ∀ m : Fin t.members.length, Tiles 0 (memberEntries rows m)

theorem Extents.getElem_toMany_add (extents : Extents t) (row : Row t)
    (r : Fin t.toMany.length) :
    (extents.add row).toMany[r] = extents.toMany[r] + row.toMany[r].length := by
  simp [Extents.add]

theorem Extents.getElem_members_add (extents : Extents t) (row : Row t)
    (m : Fin t.members.length) :
    (extents.add row).members[m] = extents.members[m] + row.members[m].length := by
  simp [Extents.add]

/-- What the buffers of some rows hold. -/
def contentsOfRows (rows : List (Row t)) : Contents t where
  records := rows.map (·.record)
  toMany := Vector.ofFn fun r => rows.flatMap (·.toMany[r])
  toOne := Vector.ofFn fun r => rows.map (·.toOne[r])
  members := Vector.ofFn fun m => rows.flatMap (·.members[m])

/-- The body that a reader makes of a row. -/
def Row.body (row : Row t) : Body t where
  payload := Record.payload row.record
  toMany := .windows (Vector.ofFn (Contents.relationWindow row.record))
  toOne := Vector.replicate _ none
  members := row.members

theorem columnOf_relationEntries (rows : List (Row t)) (r : Fin t.toMany.length) :
    columnOf (relationEntries rows r) = (contentsOfRows rows).toMany[r] := by
  simp [columnOf, relationEntries, contentsOfRows, List.flatMap_map]

theorem columnOf_memberEntries (rows : List (Row t)) (m : Fin t.members.length) :
    columnOf (memberEntries rows m) = (contentsOfRows rows).members[m] := by
  simp [columnOf, memberEntries, contentsOfRows, List.flatMap_map]

/-! ## Flattening object by object -/

namespace Store

variable {s s' : Store} {origin : Option (Origin t)}

/-- Each object, from a position on, is flattened to its row. -/
inductive FlattensAll (s : Store) (origin : Option (Origin t)) :
    Extents t → Nat → List ObjectKey → List (Row t) → Prop
  | nil (extents : Extents t) (position : Nat) : FlattensAll s origin extents position [] []
  | cons {extents : Extents t} {position : Nat} {k : ObjectKey} {keys : List ObjectKey}
      {body : Body t} {row : Row t} {rows : List (Row t)}
      (hrow : s.Flattens origin extents position k body row)
      (hrest : FlattensAll s origin (extents.add row) (position + 1) keys rows) :
      FlattensAll s origin extents position (k :: keys) (row :: rows)

theorem flattenObjects_eq_ok_iff {extents : Extents t} {position : Nat} {keys : List ObjectKey}
    {rows : List (Row t)} :
    s.flattenObjects t origin extents position keys = .ok rows ↔
      s.FlattensAll origin extents position keys rows := by
  constructor
  · intro h
    -- the columns grow by each row before the next object is flattened
    induction keys generalizing extents position rows with
    | nil =>
      cases h
      exact .nil extents position
    | cons k keys ih =>
      rcases bind_eq_ok_iff.1 h with ⟨row, hrow, hrest⟩
      rcases bind_eq_ok_iff.1 hrest with ⟨tail, htail, heq⟩
      cases heq
      rcases flattens_of_flattenObject hrow with ⟨body, hbody⟩
      exact .cons hbody (ih htail)
  · intro h
    induction h with
    | nil extents position => rfl
    | cons hrow _ ih =>
      have hobject := flattenObject_of_flattens hrow
      exact bind_eq_ok_iff.2 ⟨_, hobject, bind_eq_ok_iff.2 ⟨_, ih, rfl⟩⟩

namespace FlattensAll

variable {extents : Extents t} {position : Nat} {keys : List ObjectKey} {rows : List (Row t)}

theorem length_eq (h : s.FlattensAll origin extents position keys rows) :
    keys.length = rows.length := by
  induction h with
  | nil => rfl
  | cons _ _ ih => simp [ih]

/-- Each key is flattened to the row at its position. -/
theorem getElem?_of_key (h : s.FlattensAll origin extents position keys rows) {i : Nat}
    {k : ObjectKey} (hk : keys[i]? = some k) : ∃ row extents' body, rows[i]? = some row ∧
      s.Flattens origin extents' (position + i) k body row := by
  induction h generalizing i with
  | nil => simp at hk
  | @cons extents position head keys body row rows hrow _ ih =>
    cases i with
    | zero =>
      have heq : head = k := by simpa using hk
      subst heq
      exact ⟨row, extents, body, rfl, hrow⟩
    | succ i =>
      rcases ih (by simpa using hk) with ⟨row', extents', body', hrow', hflattens⟩
      have hposition : position + (i + 1) = position + 1 + i := by omega
      refine ⟨row', extents', body', by simpa using hrow', ?_⟩
      rw [hposition]
      exact hflattens

/-- Each row was flattened from the key at its position. -/
theorem getElem?_of_row (h : s.FlattensAll origin extents position keys rows) {i : Nat}
    {row : Row t} (hrow : rows[i]? = some row) : ∃ k extents' body, keys[i]? = some k ∧
      s.Flattens origin extents' (position + i) k body row := by
  have hlt : i < keys.length := h.length_eq ▸ (List.getElem?_eq_some_iff.1 hrow).1
  have hk : keys[i]? = some keys[i] := List.getElem?_eq_getElem hlt
  rcases h.getElem?_of_key hk with ⟨row', extents', body, hrow', hflattens⟩
  cases hrow.symm.trans hrow'
  exact ⟨keys[i], extents', body, hk, hflattens⟩

theorem relationTiles (h : s.FlattensAll origin extents position keys rows)
    (r : Fin t.toMany.length) : Tiles extents.toMany[r] (relationEntries rows r) := by
  induction h with
  | nil extents _ => exact .nil _
  | @cons extents _ _ _ body row rows hrow _ ih =>
    rcases Window.bounds_of_ofExtent (hrow.relationWindows r) with ⟨hstart, hstop⟩
    exact .cons hstart hstop (extents.getElem_toMany_add row r ▸ ih)

theorem memberTiles (h : s.FlattensAll origin extents position keys rows)
    (m : Fin t.members.length) : Tiles extents.members[m] (memberEntries rows m) := by
  induction h with
  | nil extents _ => exact .nil _
  | @cons extents _ _ _ body row rows hrow _ ih =>
    have hwindow := hrow.memberWindows m
    rw [← hrow.members] at hwindow
    rcases Window.bounds_of_ofExtent hwindow with ⟨hstart, hstop⟩
    exact .cons hstart hstop (extents.getElem_members_add row m ▸ ih)

/-- The rows of a whole collection tile its columns. -/
theorem rowsTile (h : s.FlattensAll origin (.zero t) 0 keys rows) : RowsTile rows where
  relations r := by
    have htiles := h.relationTiles r
    simpa [Extents.zero] using htiles
  members m := by
    have htiles := h.memberTiles m
    simpa [Extents.zero] using htiles

end FlattensAll

/-! ## Decoding -/

theorem length_relations_buffersOfRows (rows : List (Row t)) :
    (buffersOfRows t rows).relations.length = t.relationColumns := by
  simp [buffersOfRows, DataType.relationColumns]

theorem length_members_buffersOfRows (rows : List (Row t)) :
    (buffersOfRows t rows).members.length = t.members.length := by
  simp [buffersOfRows]

theorem decodeAll_encode (records : List (Record t)) :
    Record.decodeAll t (.encode t.record records) = .ok records := by
  have hstride : (RawBytes.encode t.record records).stride = t.record.stride := rfl
  simp [Record.decodeAll, hstride]

theorem relation_buffersOfRows (rows : List (Row t)) (r : Fin t.toMany.length)
    (h : r.val < (buffersOfRows t rows).relations.length) :
    (buffersOfRows t rows).relations.get ⟨r, h⟩ =
      .encode .objectId (contentsOfRows rows).toMany[r] := by
  simp [buffersOfRows, contentsOfRows, List.getElem_append_left]

theorem single_buffersOfRows (rows : List (Row t)) (r : Fin t.toOne.length)
    (h : t.toMany.length + r.val < (buffersOfRows t rows).relations.length) :
    (buffersOfRows t rows).relations.get ⟨t.toMany.length + r, h⟩ =
      .encode .objectId (contentsOfRows rows).toOne[r] := by
  simp [buffersOfRows, contentsOfRows, List.getElem_append_right]

theorem member_buffersOfRows (rows : List (Row t)) (m : Fin t.members.length)
    (h : m.val < (buffersOfRows t rows).members.length) :
    (buffersOfRows t rows).members.get ⟨m, h⟩ =
      .encode t.element (contentsOfRows rows).members[m] := by
  simp [buffersOfRows, contentsOfRows]

theorem decode_buffersOfRows (rows : List (Row t)) :
    Contents.decode t (buffersOfRows t rows) (length_relations_buffersOfRows rows)
      (length_members_buffersOfRows rows) = .ok (contentsOfRows rows) := by
  have hrecords : Record.decodeAll t (buffersOfRows t rows).records =
      .ok (contentsOfRows rows).records := decodeAll_encode _
  refine bind_eq_ok_iff.2 ⟨_, hrecords, bind_eq_ok_iff.2 ⟨(contentsOfRows rows).toMany, ?_,
    bind_eq_ok_iff.2 ⟨(contentsOfRows rows).toOne, ?_, ?_⟩⟩⟩
  · refine tryOfFn_eq_ok_iff.2 ?_
    intro r
    rw [relation_buffersOfRows]
    exact RawBytes.decode_encode .objectId _
  · refine tryOfFn_eq_ok_iff.2 ?_
    intro r
    rw [single_buffersOfRows]
    exact RawBytes.decode_encode .objectId _
  · -- every to-one column has an address for each record
    have hlengths : ((contentsOfRows rows).toOne.toList.find?
        (·.length != (contentsOfRows rows).records.length)) = none := by
      simp [contentsOfRows]
    rw [hlengths]
    refine bind_eq_ok_iff.2 ⟨(contentsOfRows rows).members, ?_, rfl⟩
    refine tryOfFn_eq_ok_iff.2 ?_
    intro m
    rw [member_buffersOfRows]
    exact RawBytes.decode_encode t.element _

/-- Windows that tile the columns are verified. -/
theorem verify_contentsOfRows {rows : List (Row t)} (h : RowsTile rows) :
    (contentsOfRows rows).verify = .ok () := by
  have hrelations : ∀ r : Fin t.toMany.length,
      checkPartition t.name r ((contentsOfRows rows).records.map (Contents.relationWindow · r))
        (contentsOfRows rows).toMany[r].length = .ok () := by
    intro r
    have hchecked := checkPartition_of_tiles (h.relations r) t.name r
    rw [columnOf_relationEntries] at hchecked
    simpa [relationEntries, contentsOfRows, Function.comp_def] using hchecked
  have hmembers : ∀ m : Fin t.members.length,
      checkPartition t.name (t.toMany.length + m)
        ((contentsOfRows rows).records.map (Contents.memberWindow · m))
        (contentsOfRows rows).members[m].length = .ok () := by
    intro m
    have hchecked := checkPartition_of_tiles (h.members m) t.name (t.toMany.length + m)
    rw [columnOf_memberEntries] at hchecked
    simpa [memberEntries, contentsOfRows, Function.comp_def] using hchecked
  exact bind_eq_ok_iff.2 ⟨_, tryOfFn_of_forall hrelations,
    bind_eq_ok_iff.2 ⟨_, tryOfFn_of_forall hmembers, rfl⟩⟩

/-- A record of the rows becomes the body of its row. -/
theorem body_contentsOfRows {rows : List (Row t)} (h : RowsTile rows) {row : Row t}
    (hrow : row ∈ rows) : (contentsOfRows rows).body row.record = .ok row.body := by
  have hchecked : ∀ r : Fin t.toMany.length,
      (Contents.relationWindow row.record r).checked (contentsOfRows rows).toMany[r].length =
        .ok ((Contents.relationWindow row.record r).start.toNat,
          (Contents.relationWindow row.record r).stop.toNat) := by
    intro r
    have hentry : (Contents.relationWindow row.record r, row.toMany[r]) ∈ relationEntries rows r :=
      List.mem_map_of_mem hrow
    have hfits := (h.relations r).fits (Nat.le_of_eq (Nat.zero_add _)) _ hentry
    rw [columnOf_relationEntries] at hfits
    exact Window.checked_eq_ok_iff.2 ⟨hfits, rfl⟩
  have hmembers : ∀ m : Fin t.members.length,
      (Contents.memberWindow row.record m).slice (contentsOfRows rows).members[m] =
        .ok row.members[m] := by
    intro m
    have hentry : (Contents.memberWindow row.record m, row.members[m]) ∈ memberEntries rows m :=
      List.mem_map_of_mem hrow
    have hsliced := @Tiles.slice _ [] _ (h.members m) _ hentry
    rwa [List.nil_append, columnOf_memberEntries] at hsliced
  exact bind_eq_ok_iff.2 ⟨_, tryOfFn_of_forall hchecked,
    bind_eq_ok_iff.2 ⟨row.members, tryOfFn_eq_ok_iff.2 hmembers, rfl⟩⟩

/-- The buffers of tiling rows are accepted, whether they are verified or not. -/
theorem decodeOwned_buffersOfRows {rows : List (Row t)} (h : RowsTile rows) (config : Config) :
    decodeOwned t (buffersOfRows t rows) config =
      .ok (contentsOfRows rows, rows.map Row.body) := by
  have hbodies : (contentsOfRows rows).records.mapM (contentsOfRows rows).body =
      .ok (rows.map Row.body) := by
    refine mapM_eq_ok_iff.2 (List.forall₂_map_left_iff.2 (List.forall₂_map_right_iff.2 ?_))
    refine List.forall₂_same.2 ?_
    intro row hrow
    exact body_contentsOfRows h hrow
  exact decodeOwned_eq_ok_iff.2 ⟨length_relations_buffersOfRows rows,
    length_members_buffersOfRows rows, decode_buffersOfRows rows,
    fun _ => verify_contentsOfRows h, hbodies⟩

theorem decodeSubset_buffersOfIds (ids : List ObjectId) :
    decodeSubset t (buffersOfIds t ids) = .ok ids :=
  RawBytes.decode_encode .objectId ids

end Store

end EventModel
