import EventModel.Proofs.Store.Acceptance
import EventModel.Proofs.Store.Closed

/-!
# Sizes in memory

A column of elements without bytes can claim any number of elements. `Buffers.InMemory` says that what
buffers are decoded to is not larger than what a computer can address, and a program that runs out of
memory never gets that far. A collection that is rebuilt from such buffers has positions below 2⁶³, and
so has every collection of a frame that is read from them (`hasPositions_of_readFrame`), which is what
the coherence of a frame asks for.
-/

namespace EventModel

/-- What the buffers are decoded to takes less than 2⁶³ bytes, as all lists in memory: 24 for a record
and 16 for an address. -/
structure Buffers.InMemory (b : Buffers) : Prop where
  records : 24 * b.records.count < 2 ^ 63
  relations : ∀ raw ∈ b.relations, 16 * raw.count < 2 ^ 63

instance (b : Buffers) : Decidable b.InMemory :=
  decidable_of_iff (24 * b.records.count < 2 ^ 63 ∧ ∀ raw ∈ b.relations, 16 * raw.count < 2 ^ 63)
    ⟨fun ⟨hrecords, hrelations⟩ => ⟨hrecords, hrelations⟩, fun h => ⟨h.records, h.relations⟩⟩

theorem Buffers.InMemory.size_lt {b : Buffers} (h : b.InMemory) : b.size < 2 ^ 63 := by
  unfold Buffers.size
  split
  · rcases hhead : b.relations.head? with _ | raw
    · exact Nat.two_pow_pos 63
    · have hraw := h.relations raw (List.mem_of_mem_head? hhead)
      rw [Option.map_some, Option.getD_some]
      omega
  · have hrecords := h.records
    omega

/-- A column of 2⁶² elements without bytes is none of a program that runs. -/
example : ¬ Buffers.InMemory ⟨"Mark", false, ⟨[], 0, 2 ^ 62, by simp⟩, [], []⟩ := by decide

namespace Store

variable {s s' : Store} {t : DataType} {c : CollectionKey} {id : CollectionId} {f : FrameKey}
  {b : Buffers} {stored : Stored t} {flat : Flat t} {registry : Registry} {config : Config}
  {data : FrameData} {frame : Frame}

/-- Buffers hold as many objects as they say. -/
theorem size_of_holds (h : b.Holds t config stored) : stored.flat.size = b.size := by
  cases h with
  | @owned contents bodies hsubset hdecode =>
    rcases decodeOwned_eq_ok_iff.1 hdecode with ⟨hrelations, hmembers, hcontents, -, -⟩
    rw [Buffers.size, hsubset, if_neg Bool.false_ne_true,
      ← (Contents.isRead_of_decode hcontents).length_records]
    exact List.length_mapIdx
  | @subset ids hsubset hdecode =>
    rcases decodeSubset_eq_ok_iff.1 hdecode with ⟨raw, hraw, hids⟩
    rw [Buffers.size, if_pos hsubset, hraw]
    exact RawBytes.length_of_decode hids

theorem Pends.exists_size (h : s.Pends c t id stored) :
    ∃ col, s.collections.get? c = some col ∧ col.size = stored.flat.size := by
  cases h with
  | @owned keys contents origin hstands howns _ _ =>
    rcases hstands.collection with ⟨col, hcol, -, -, hstorage⟩
    refine ⟨col, hcol, ?_⟩
    rw [Collection.size, hstorage]
    exact howns.length.trans (List.length_map _)
  | @subset ids origin hpending =>
    rcases Stands.collection hpending with ⟨col, hcol, -, -, hstorage⟩
    refine ⟨col, hcol, ?_⟩
    rw [Collection.size, hstorage]
    exact List.length_map _

theorem Restored.exists_size {resolver : Resolver} (h : s.Restored resolver c t id flat) :
    ∃ col, s.collections.get? c = some col ∧ col.size = flat.size := by
  cases h with
  | owned hstands hlength _ =>
    rcases hstands.collection with ⟨col, hcol, -, -, hstorage⟩
    refine ⟨col, hcol, ?_⟩
    rw [Collection.size, hstorage]
    exact hlength
  | subset hstands hslots _ =>
    rcases hstands.collection with ⟨col, hcol, -, -, hstorage⟩
    refine ⟨col, hcol, ?_⟩
    rw [Collection.size, hstorage]
    exact (List.length_map _).trans hslots.length_eq.symm

/-- A collection has as many objects as the buffers say that it is rebuilt from. -/
theorem size_of_rebuild (hrun : rebuild t b id config s = (.ok c, s')) :
    ∃ col, s'.collections.get? c = some col ∧ col.size = b.size := by
  rcases exists_pends_of_rebuild hrun with ⟨stored, hholds, hpends⟩
  rcases hpends.exists_size with ⟨col, hcol, hsize⟩
  exact ⟨col, hcol, hsize.trans (size_of_holds hholds)⟩

/-- A frame that is read from buffers in memory has positions below 2⁶³. -/
theorem hasPositions_of_readFrame (h : WellFormed s) (hids : data.ids.Built)
    (hmemory : ∀ entry ∈ data.collections, entry.2.InMemory)
    (hread : readFrame data registry config s = (.ok f, s'))
    (hframe : s'.frames.get? f = some frame) : s'.HasPositions frame := by
  rcases fills_of_readFrame hids hread with ⟨entries, hfills⟩
  rcases hfills.restored h hids hread with ⟨frame', hframe', -, -, hrestored⟩
  cases hframe.symm.trans hframe'
  intro slot hslot col hcol
  rcases exists_right_of_forall₂ hrestored hslot with ⟨_, hmem, hnames⟩
  rcases List.mem_map.1 hmem with ⟨e, he, rfl⟩
  rcases exists_right_of_forall₂ hfills.takes.flip he with ⟨entry, hentry, htakes⟩
  rcases hnames.collection.exists_size with ⟨col', hcol', hsize⟩
  cases hcol.symm.trans hcol'
  calc
    col.size = e.stored.flat.size := hsize
    _ = entry.2.size := size_of_holds htakes.stored
    _ ≤ 2 ^ 63 := Nat.le_of_lt (hmemory entry hentry).size_lt

end Store

end EventModel
