import EventModel.Proofs.Store.Viewed
import EventModel.Proofs.Wire.Conversion

/-!
# Written frames fit in a stream

The columns of relations and members end where words of 32 bits do, because windows select from them.
So what a frame is written to fits in a stream if its collections are not larger than memory is
(`storable_of_viewFrame`).
-/

namespace EventModel

open Wire

/-- The layout of the type can be written in a stream. -/
structure DataType.Streams (t : DataType) : Prop where
  name : TextFits t.name
  record : t.stride < 2 ^ 64
  element : t.element.stride ≤ 2 ^ 32
  relations : t.relationColumns < 2 ^ 64
  members : t.members.length < 2 ^ 64

instance (t : DataType) : Decidable t.Streams :=
  decidable_of_iff (TextFits t.name ∧ t.stride < 2 ^ 64 ∧ t.element.stride ≤ 2 ^ 32 ∧
      t.relationColumns < 2 ^ 64 ∧ t.members.length < 2 ^ 64)
    ⟨fun ⟨hname, hrecord, helement, hrelations, hmembers⟩ =>
        ⟨hname, hrecord, helement, hrelations, hmembers⟩,
      fun h => ⟨h.name, h.record, h.element, h.relations, h.members⟩⟩

/-- The records and the addresses of a collection with a number of places take fewer bytes than a word
can say. -/
structure DataType.SizeFits (t : DataType) (size : Nat) : Prop where
  records : t.stride * size < 2 ^ 64
  addresses : Shape.objectId.stride * size < 2 ^ 64

/-! ## Columns -/

theorem fits_encode {shape : Shape} {xs : List shape.Value} (hstride : shape.stride < 2 ^ 64)
    (hcount : xs.length < 2 ^ 64) (hdata : shape.stride * xs.length < 2 ^ 64) :
    (ColumnBody.ofRaw (.encode shape xs)).Fits where
  stride := hstride
  count := hcount
  data := (RawBytes.encode shape xs).length_data ▸ hdata

/-- A column that windows select from fits. -/
theorem fits_column {shape : Shape} {xs : List shape.Value} (hstride : shape.stride ≤ 2 ^ 32)
    (hcount : xs.length < columnLimit) : (ColumnBody.ofRaw (.encode shape xs)).Fits := by
  have hlimit : columnLimit = 2 ^ 32 := rfl
  have hdata : shape.stride * xs.length < 2 ^ 64 := by
    calc
      shape.stride * xs.length ≤ 2 ^ 32 * xs.length := Nat.mul_le_mul_right _ hstride
      _ < 2 ^ 32 * 2 ^ 32 := Nat.mul_lt_mul_of_pos_left hcount (Nat.two_pow_pos 32)
      _ = 2 ^ 64 := rfl
  exact fits_encode (by omega) (by omega) hdata

theorem lt_of_addresses {n : Nat} (h : Shape.objectId.stride * n < 2 ^ 64) : n < 2 ^ 64 := by
  have hstride : Shape.objectId.stride * n = 12 * n := rfl
  omega

/-- A column of as many addresses as there are places fits. -/
theorem fits_addresses {ids : List ObjectId} (h : Shape.objectId.stride * ids.length < 2 ^ 64) :
    (ColumnBody.ofRaw (.encode .objectId ids)).Fits :=
  fits_encode (by decide) (lt_of_addresses h) h

/-! ## Collections -/

variable {t : DataType}

namespace RowsTile

variable {rows : List (Row t)} (h : RowsTile rows)

include h

theorem length_relation_lt (r : Fin t.toMany.length) :
    (rows.flatMap (·.toMany[r])).length < columnLimit := by
  have hlt := (h.relations r).length_lt (Nat.two_pow_pos 32)
  simpa [columnOf_relationEntries, contentsOfRows] using hlt

theorem length_member_lt (m : Fin t.members.length) :
    (rows.flatMap (·.members[m])).length < columnLimit := by
  have hlt := (h.members m).length_lt (Nat.two_pow_pos 32)
  simpa [columnOf_memberEntries, contentsOfRows] using hlt

end RowsTile

namespace Flat

/-- A flat collection that is not too large fits in a stream. -/
theorem fits_buffers {flat : Flat t} (htiled : flat.IsTiled) (ht : t.Streams)
    (hsize : t.SizeFits flat.size) {name : String} (hname : TextFits name) :
    (CollectionBody.ofBuffers name flat.buffers).Fits := by
  have haddress : Shape.objectId.stride ≤ 2 ^ 32 := by decide
  rcases hsize with ⟨hrecords, haddresses⟩
  cases flat with
  | owned rows =>
    refine ⟨hname, ht.name, ?_, ⟨?_, ?_⟩, ⟨?_, ?_⟩⟩
    · refine fits_encode ht.record ?_ ?_
      · rw [List.length_map]
        exact lt_of_addresses haddresses
      · rwa [List.length_map]
    · have hcolumns := Store.length_relations_buffersOfRows rows
      exact (List.length_map _).trans hcolumns ▸ ht.relations
    · intro column hcolumn
      rcases List.mem_map.1 hcolumn with ⟨raw, hraw, rfl⟩
      rcases List.mem_append.1 hraw with hmany | hone
      · rcases Vector.mem_ofFn.1 (Vector.mem_toList_iff.1 hmany) with ⟨r, rfl⟩
        exact fits_column haddress (htiled.length_relation_lt r)
      · rcases Vector.mem_ofFn.1 (Vector.mem_toList_iff.1 hone) with ⟨r, rfl⟩
        refine fits_addresses ?_
        rwa [List.length_map]
    · have hcolumns := Store.length_members_buffersOfRows rows
      exact (List.length_map _).trans hcolumns ▸ ht.members
    · intro column hcolumn
      rcases List.mem_map.1 hcolumn with ⟨raw, hraw, rfl⟩
      rcases Vector.mem_ofFn.1 (Vector.mem_toList_iff.1 hraw) with ⟨m, rfl⟩
      exact fits_column ht.element (htiled.length_member_lt m)
  | subset ids =>
    -- the columns of records and members are empty
    have hzero : 0 < 2 ^ 64 := Nat.two_pow_pos 64
    refine ⟨hname, ht.name, ⟨ht.record, hzero, hzero⟩, ⟨Nat.one_lt_two_pow (by decide), ?_⟩, hzero, ?_⟩
    · intro column hcolumn
      cases List.mem_singleton.1 hcolumn
      exact fits_addresses haddresses
    · exact fun column hcolumn => absurd hcolumn List.not_mem_nil

end Flat

namespace Store

variable {s : Store} {f : FrameKey} {frame : Frame} {views : List CollectionView} {d : FrameData}

theorem HasFlat.size_eq {c : CollectionKey} {id : CollectionId} {flat : Flat t}
    (h : s.HasFlat c t id flat) {col : Collection} (hcol : s.collections.get? c = some col) :
    flat.size = col.size := by
  cases h with
  | owned hstands hrows =>
    rcases hstands with ⟨config, generation, prepared, hget⟩
    cases hcol.symm.trans hget
    exact hrows.length_eq.symm
  | subset hstands hids =>
    rcases hstands with ⟨config, generation, prepared, hget⟩
    cases hcol.symm.trans hget
    exact hids.length_eq.symm

/-! ## Frames -/

/-- A collection with this view fits in a stream. -/
structure Streams (view : CollectionView) : Prop where
  name : TextFits view.name
  type : view.type.Streams
  size : view.type.SizeFits view.content.size

/-- Records and addresses of at most `k` bytes each take at most `k` bytes for each place. -/
theorem Streams.of_le {name : String} {id : CollectionId} {content : ContentView t} {k : Nat}
    (hname : TextFits name) (htype : t.Streams) (hrecord : t.stride ≤ k)
    (haddress : Shape.objectId.stride ≤ k) (hsize : k * content.size < 2 ^ 64) :
    Streams ⟨name, id, t, content⟩ where
  name := hname
  type := htype
  size := ⟨Nat.lt_of_le_of_lt (Nat.mul_le_mul_right content.size hrecord) hsize,
    Nat.lt_of_le_of_lt (Nat.mul_le_mul_right content.size haddress) hsize⟩

/-- What a frame is written to can be stored, if its view and its parameters fit in a stream. -/
theorem storable_of_viewFrame (h : Reachable s) (hframe : s.frame f = .ok frame)
    (hwrite : (writeFrame f s).1 = .ok d) (hviews : s.viewFrame frame = .ok views)
    (hids : ListFits (fun pair => TextFits pair.1) frame.ids.pairs)
    (hlength : views.length < 2 ^ 64) (hstreams : ∀ view ∈ views, Streams view)
    (hsorted : frame.parameters.IsSorted)
    (hparameters : (ParameterBody.ofParameters frame.parameters).Fits) : d.Storable := by
  rcases (writeFrame_eq_ok_iff_names h).1 hwrite with ⟨_, entries, hsame, hflats, rfl⟩
  cases hframe.symm.trans hsame
  refine ⟨h.wellFormed.ids f frame (frame_eq_ok_iff.1 hframe), hsorted, hids, ⟨?_, ?_⟩, hparameters⟩
  · have hcount : entries.length = views.length :=
      hflats.length_eq.symm.trans (length_of_mapM_eq_ok hviews).symm
    simpa [FrameBody.ofData, hcount] using hlength
  · intro body hbody
    rcases List.mem_map.1 hbody with ⟨datum, hdatum, rfl⟩
    rcases List.mem_map.1 hdatum with ⟨e, he, rfl⟩
    rcases exists_right_of_forall₂ hflats.flip he with ⟨slot, hslot, hname, hflat⟩
    rcases hflat.flatOf with ⟨config, storage, generation, prepared, origin, hcol, -⟩
    -- the view shows as many places as are written
    rcases exists_view_of_mem hviews hslot hcol with ⟨content, hcontent, hview⟩
    rcases hstreams _ hview with ⟨hfits, htype, hsize⟩
    have hsame : content.size = e.flat.size :=
      (size_of_viewContent hcontent).trans (hflat.size_eq hcol).symm
    exact e.flat.fits_buffers hflat.isTiled htype (hsame ▸ hsize) (hname ▸ hfits)

end Store

end EventModel
