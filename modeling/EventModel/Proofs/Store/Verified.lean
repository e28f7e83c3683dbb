import EventModel.Proofs.Column
import EventModel.Proofs.Store.Rows

/-!
# Buffers that pass verification

The windows of verified buffers tile the columns, so the buffers are those of some rows
(`exists_rows_of_decodeOwned`): each record with the segments that its windows select. Only truth
values are not written as they were read.
-/

namespace EventModel

variable {t : DataType} {b : Buffers}

/-- No payload and no member of the type holds a truth value. -/
structure DataType.IsExact (t : DataType) : Prop where
  payload : t.payload.hasBool = false
  element : t.element.hasBool = false

theorem DataType.IsExact.record (h : t.IsExact) : t.record.hasBool = false := by
  simp [DataType.record, Shape.hasBool, h.payload]

namespace Contents

variable {c : Contents t}

/-! ## Encoding -/

/-- The buffers that hold the contents. -/
def encode (c : Contents t) : Buffers where
  type := t.name
  subset := false
  records := .encode t.record c.records
  relations :=
    (Vector.ofFn fun r : Fin t.toMany.length => RawBytes.encode .objectId c.toMany[r]).toList
    ++ (Vector.ofFn fun r : Fin t.toOne.length => RawBytes.encode .objectId c.toOne[r]).toList
  members :=
    (Vector.ofFn fun m : Fin t.members.length => RawBytes.encode t.element c.members[m]).toList

theorem encode_contentsOfRows (rows : List (Row t)) :
    (contentsOfRows rows).encode = Store.buffersOfRows t rows := by
  simp [encode, contentsOfRows, Store.buffersOfRows]

theorem IsRead.encode_records (h : c.IsRead b) (hexact : t.IsExact) :
    RawBytes.encode t.record c.records = b.records := by
  have hread := h.records
  unfold Record.decodeAll at hread
  split at hread
  · rename_i hstride
    rw [← Except.ok.inj hread]
    exact RawBytes.encode_items hexact.record b.records hstride
  · cases hread

theorem encode_of_relationIds {i : Nat} {ids : List ObjectId} (h : b.relationIds i = .ok ids) :
    b.relations[i]? = some (.encode .objectId ids) := by
  rcases Buffers.relationIds_eq_ok_iff.1 h with ⟨raw, hraw, hdecode⟩
  rw [hraw, RawBytes.encode_of_decode rfl hdecode]

/-- The columns of to-many relations come before those of to-one relations. -/
theorem IsRead.encode_relations (h : c.IsRead b) : c.encode.relations = b.relations := by
  have hlength : c.encode.relations.length = b.relations.length := by
    rw [h.relationColumns]
    simp [Contents.encode, DataType.relationColumns]
  refine List.ext_getElem hlength ?_
  intro i hi hi'
  rw [← Option.some.injEq, ← List.getElem?_eq_getElem, ← List.getElem?_eq_getElem]
  have hbound : i < t.relationColumns := h.relationColumns ▸ hi'
  rw [DataType.relationColumns] at hbound
  by_cases hmany : i < t.toMany.length
  · rw [encode_of_relationIds (h.toMany ⟨i, hmany⟩)]
    simp [Contents.encode, List.getElem?_append, hmany]
  · obtain ⟨r, rfl⟩ := Nat.exists_eq_add_of_le (Nat.le_of_not_lt hmany)
    have hr : r < t.toOne.length := by omega
    rw [encode_of_relationIds (h.toOne ⟨r, hr⟩)]
    simp [Contents.encode, hr]

theorem IsRead.encode_members (h : c.IsRead b) (hexact : t.IsExact) :
    c.encode.members = b.members := by
  have hlength : c.encode.members.length = b.members.length := by
    rw [h.memberColumns]
    simp [Contents.encode]
  refine List.ext_getElem hlength ?_
  intro i hi hi'
  have hm : i < t.members.length := h.memberColumns ▸ hi'
  rcases h.members ⟨i, hm⟩ with ⟨raw, hraw, hdecode⟩
  rw [← Option.some.injEq, ← List.getElem?_eq_getElem, ← List.getElem?_eq_getElem, hraw,
    ← RawBytes.encode_of_decode hexact.element hdecode]
  simp [Contents.encode, hm]

/-- Contents without truth values are written as they were read. -/
theorem IsRead.encode (h : c.IsRead b) (hexact : t.IsExact) (htype : b.type = t.name)
    (hsubset : b.subset = false) : c.encode = b := by
  have hrecords := h.encode_records hexact
  have hrelations := h.encode_relations
  have hmembers := h.encode_members hexact
  rcases b with ⟨type, subset, records, relations, members⟩
  cases htype
  cases hsubset
  cases hrecords
  cases hrelations
  cases hmembers
  rfl

/-! ## Rows -/

/-- The flat form of the record at a position. -/
def row (c : Contents t) (position : Nat) (record : Record t) : Row t where
  record
  toMany := Vector.ofFn fun r => (relationWindow record r).segment c.toMany[r]
  members := Vector.ofFn fun m => (memberWindow record m).segment c.members[m]
  toOne := Vector.ofFn fun r => c.toOne[r][position]?.getD .untracked

/-- The flat forms of all records. -/
def rows (c : Contents t) : List (Row t) :=
  c.records.mapIdx c.row

/-- What is read off a row without its to-one relations does not depend on its position. -/
theorem map_rows {α : Type} {f : Row t → α} {g : Record t → α}
    (h : ∀ i record, f (c.row i record) = g record) : c.rows.map f = c.records.map g := by
  refine List.ext_getElem? ?_
  intro i
  rw [rows, List.getElem?_map, List.getElem?_mapIdx, List.getElem?_map, Option.map_map]
  exact congrArg (Option.map · _) (funext (h i))

theorem relationEntries_rows (c : Contents t) (r : Fin t.toMany.length) :
    relationEntries c.rows r = segmentsOf (c.records.map (relationWindow · r)) c.toMany[r] := by
  rw [relationEntries, segmentsOf, List.map_map]
  refine map_rows ?_
  intro i record
  simp [row]

theorem memberEntries_rows (c : Contents t) (m : Fin t.members.length) :
    memberEntries c.rows m = segmentsOf (c.records.map (memberWindow · m)) c.members[m] := by
  rw [memberEntries, segmentsOf, List.map_map]
  refine map_rows ?_
  intro i record
  simp [row]

/-- The windows of all columns were verified. -/
theorem verify_eq_ok_iff : c.verify = .ok () ↔
    (∀ r : Fin t.toMany.length,
      checkPartition t.name r (c.records.map (relationWindow · r)) c.toMany[r].length = .ok ()) ∧
    ∀ m : Fin t.members.length, checkPartition t.name (t.toMany.length + m)
      (c.records.map (memberWindow · m)) c.members[m].length = .ok () := by
  unfold verify
  rw [bind_eq_ok_iff]
  constructor
  · rintro ⟨relations, hrelations, h⟩
    rcases bind_eq_ok_iff.1 h with ⟨members, hmembers, -⟩
    exact ⟨tryOfFn_apply hrelations, tryOfFn_apply hmembers⟩
  · rintro ⟨hrelations, hmembers⟩
    exact ⟨_, tryOfFn_of_forall hrelations,
      bind_eq_ok_iff.2 ⟨_, tryOfFn_of_forall hmembers, rfl⟩⟩

/-- The rows of verified contents tile the columns. -/
theorem rowsTile_rows (h : c.verify = .ok ()) : RowsTile c.rows where
  relations r := by
    rw [relationEntries_rows]
    exact (tiles_of_checkPartition ((verify_eq_ok_iff.1 h).1 r)).1
  members m := by
    rw [memberEntries_rows]
    exact (tiles_of_checkPartition ((verify_eq_ok_iff.1 h).2 m)).1

/-- The rows of verified contents hold all of them. -/
theorem contentsOfRows_rows (h : c.verify = .ok ())
    (hsingles : ∀ r : Fin t.toOne.length, c.toOne[r].length = c.records.length) :
    contentsOfRows c.rows = c := by
  have hrecords : (contentsOfRows c.rows).records = c.records := by
    have hmap := @map_rows t c _ (·.record) id (fun _ _ => rfl)
    rwa [List.map_id] at hmap
  have htoMany : (contentsOfRows c.rows).toMany = c.toMany := by
    refine Vector.ext ?_
    intro r hr
    have hcolumn := (tiles_of_checkPartition ((verify_eq_ok_iff.1 h).1 ⟨r, hr⟩)).2
    rw [← relationEntries_rows, columnOf_relationEntries] at hcolumn
    exact hcolumn
  have hmembers : (contentsOfRows c.rows).members = c.members := by
    refine Vector.ext ?_
    intro m hm
    have hcolumn := (tiles_of_checkPartition ((verify_eq_ok_iff.1 h).2 ⟨m, hm⟩)).2
    rw [← memberEntries_rows, columnOf_memberEntries] at hcolumn
    exact hcolumn
  have htoOne : (contentsOfRows c.rows).toOne = c.toOne := by
    refine Vector.ext ?_
    intro r hr
    have hlength : c.toOne[r].length = c.records.length := hsingles ⟨r, hr⟩
    have hmap : (contentsOfRows c.rows).toOne[r] = c.rows.map (·.toOne[r]) := by
      simp [contentsOfRows]
    rw [hmap]
    refine List.ext_getElem (by simp [rows, hlength]) ?_
    intro i hi hi'
    simp [rows, row, hi']
  calc
    contentsOfRows c.rows
      = ⟨(contentsOfRows c.rows).records, (contentsOfRows c.rows).toMany,
          (contentsOfRows c.rows).toOne, (contentsOfRows c.rows).members⟩ := rfl
    _ = ⟨c.records, c.toMany, c.toOne, c.members⟩ := by rw [hrecords, htoMany, htoOne, hmembers]
    _ = c := rfl

end Contents

namespace Store

/-- Verified buffers of a type without truth values are those of rows that tile the columns. -/
theorem exists_rows_of_decodeOwned {config : Config} {contents : Contents t}
    {bodies : List (Body t)} (hexact : t.IsExact) (htype : b.type = t.name)
    (hsubset : b.subset = false) (hverify : config.verify = true)
    (h : decodeOwned t b config = .ok (contents, bodies)) :
    ∃ rows : List (Row t), RowsTile rows ∧ b = buffersOfRows t rows := by
  rcases decodeOwned_eq_ok_iff.1 h with ⟨hrelations, hmembers, hdecode, hverified, -⟩
  have hread := Contents.isRead_of_decode hdecode
  have hchecked := hverified hverify
  refine ⟨contents.rows, Contents.rowsTile_rows hchecked, ?_⟩
  calc
    b = contents.encode := (hread.encode hexact htype hsubset).symm
    _ = (contentsOfRows contents.rows).encode := by
      rw [Contents.contentsOfRows_rows hchecked hread.singles]
    _ = buffersOfRows t contents.rows := Contents.encode_contentsOfRows contents.rows

end Store

end EventModel
