import EventModel.Proofs.Number.Binary
import EventModel.Proofs.Parameters
import EventModel.Proofs.Results
import EventModel.Proofs.Wire.Reader

/-!
# The body of a frame is read back

A body fits if its sizes are words of 64 bits, which is what heads can hold. A body that fits is
read back from its bytes, but that signalling NaNs of single precision come back quiet, because they
are written as numbers of double precision.
-/

namespace EventModel.Wire

variable {α β : Type} {bound : Nat}

/-! ## Sizes -/

/-- The length of a text is a word. -/
def TextFits (s : String) : Prop :=
  (utf8 s).length < 2 ^ 64

/-- The length of a list is a word, and each of its items fits. -/
def ListFits (P : α → Prop) (items : List α) : Prop :=
  items.length < 2 ^ 64 ∧ ∀ x ∈ items, P x

/-- The entries of one kind of parameters. -/
def EntriesFit (P : α → Prop) (entries : List (String × List α)) : Prop :=
  ListFits (fun entry => TextFits entry.1 ∧ ListFits P entry.2) entries

structure ColumnBody.Fits (c : ColumnBody) : Prop where
  stride : c.stride < 2 ^ 64
  count : c.count < 2 ^ 64
  data : c.data.length < 2 ^ 64

structure CollectionBody.Fits (c : CollectionBody) : Prop where
  name : TextFits c.name
  type : TextFits c.type
  records : c.records.Fits
  relations : ListFits ColumnBody.Fits c.relations
  members : ListFits ColumnBody.Fits c.members

structure ParameterBody.Fits (p : ParameterBody) : Prop where
  ints : EntriesFit (fun _ => True) p.ints
  floats : EntriesFit (fun _ => True) p.floats
  doubles : EntriesFit (fun _ => True) p.doubles
  strings : EntriesFit TextFits p.strings

structure FrameBody.Fits (b : FrameBody) : Prop where
  ids : ListFits (fun pair => TextFits pair.1) b.ids
  collections : ListFits CollectionBody.Fits b.collections
  parameters : b.parameters.Fits

instance (s : String) : Decidable (TextFits s) :=
  inferInstanceAs (Decidable (_ < _))

instance {P : α → Prop} [DecidablePred P] (items : List α) : Decidable (ListFits P items) :=
  inferInstanceAs (Decidable (_ ∧ _))

instance {P : α → Prop} [DecidablePred P] (entries : List (String × List α)) :
    Decidable (EntriesFit P entries) :=
  inferInstanceAs (Decidable (ListFits _ entries))

instance : DecidablePred ColumnBody.Fits := fun c =>
  decidable_of_iff (c.stride < 2 ^ 64 ∧ c.count < 2 ^ 64 ∧ c.data.length < 2 ^ 64)
    ⟨fun ⟨hstride, hcount, hdata⟩ => ⟨hstride, hcount, hdata⟩,
      fun h => ⟨h.stride, h.count, h.data⟩⟩

instance : DecidablePred CollectionBody.Fits := fun c =>
  decidable_of_iff (TextFits c.name ∧ TextFits c.type ∧ c.records.Fits ∧
      ListFits ColumnBody.Fits c.relations ∧ ListFits ColumnBody.Fits c.members)
    ⟨fun ⟨hname, htype, hrecords, hrelations, hmembers⟩ =>
        ⟨hname, htype, hrecords, hrelations, hmembers⟩,
      fun h => ⟨h.name, h.type, h.records, h.relations, h.members⟩⟩

instance (p : ParameterBody) : Decidable p.Fits :=
  decidable_of_iff (EntriesFit (fun _ => True) p.ints ∧ EntriesFit (fun _ => True) p.floats ∧
      EntriesFit (fun _ => True) p.doubles ∧ EntriesFit TextFits p.strings)
    ⟨fun ⟨hints, hfloats, hdoubles, hstrings⟩ => ⟨hints, hfloats, hdoubles, hstrings⟩,
      fun h => ⟨h.ints, h.floats, h.doubles, h.strings⟩⟩

instance (b : FrameBody) : Decidable b.Fits :=
  decidable_of_iff (ListFits (fun pair => TextFits pair.1) b.ids ∧
      ListFits CollectionBody.Fits b.collections ∧ b.parameters.Fits)
    ⟨fun ⟨hids, hcollections, hparameters⟩ => ⟨hids, hcollections, hparameters⟩,
      fun h => ⟨h.ids, h.collections, h.parameters⟩⟩

/-! ## Columns and collections -/

theorem reads_readOnce {r : Reader α} {enc : Bytes} {x : α} (hread : Reads r enc x) :
    Reads (readOnce none r) enc (some x) :=
  hread.bind_nil (.pure (some x))

theorem reads_readColumnBody (hbound : 0 < bound) (depth : Nat) {c : ColumnBody} (hc : c.Fits) :
    Reads (readColumnBody bound depth) c.encode c := by
  have hstride := reads_readOnce (reads_readSize hbound hc.stride)
  have hcount := reads_readOnce (reads_readSize hbound hc.count)
  have hdata := reads_readOnce (reads_readColumn hbound hc.data)
  refine Reads.bind_nil (x := ⟨some c.stride, some c.count, some c.data⟩)
    (reads_readMap hbound (by simp) ?fields) ?last
  case fields =>
    apply ReadsFields.cons (by decide)
    · rw [if_pos rfl]
      exact hstride.bind_nil (.pure _)
    apply ReadsFields.cons (by decide)
    · rw [if_neg (by simp), if_pos rfl]
      exact hcount.bind_nil (.pure _)
    apply ReadsFields.cons (by decide)
    · rw [if_neg (by simp), if_neg (by simp), if_pos rfl]
      exact hdata.bind_nil (.pure _)
    exact .nil _
  case last => exact .pure c

theorem reads_readColumnBodies (hbound : 0 < bound) (depth : Nat) {columns : List ColumnBody}
    (hcolumns : ListFits ColumnBody.Fits columns) :
    Reads (readList bound (readColumnBody bound depth)) (encodeList ColumnBody.encode columns)
      columns :=
  reads_readSequence hbound _ hcolumns.1 fun c hc =>
    reads_readColumnBody hbound depth (hcolumns.2 c hc)

theorem reads_readCollectionBody (hbound : 0 < bound) (depth : Nat) {c : CollectionBody}
    (hc : c.Fits) : Reads (readCollectionBody bound depth) c.encode c := by
  have hname := reads_readOnce (reads_readString hbound hc.name)
  have htype := reads_readOnce (reads_readString hbound hc.type)
  have hsubset := reads_readOnce (reads_readBool hbound c.subset)
  have hrecords := reads_readOnce (reads_readColumnBody hbound (depth - 1) hc.records)
  have hrelations := reads_readOnce (reads_readColumnBodies hbound (depth - 2) hc.relations)
  have hmembers := reads_readOnce (reads_readColumnBodies hbound (depth - 2) hc.members)
  refine Reads.bind_nil (x := ⟨some c.name, some c.type, some c.subset, some c.records,
    some c.relations, some c.members⟩) (reads_readMap hbound (by simp) ?fields) ?last
  case fields =>
    -- each key is found past the keys that stand before it
    apply ReadsFields.cons (by decide)
    · rw [if_pos rfl]
      exact hname.bind_nil (.pure _)
    apply ReadsFields.cons (by decide)
    · rw [if_neg (by simp), if_pos rfl]
      exact htype.bind_nil (.pure _)
    apply ReadsFields.cons (by decide)
    · rw [if_neg (by simp), if_neg (by simp), if_pos rfl]
      exact hsubset.bind_nil (.pure _)
    apply ReadsFields.cons (by decide)
    · rw [if_neg (by simp), if_neg (by simp), if_neg (by simp), if_pos rfl]
      exact hrecords.bind_nil (.pure _)
    apply ReadsFields.cons (by decide)
    · rw [if_neg (by simp), if_neg (by simp), if_neg (by simp), if_neg (by simp), if_pos rfl]
      exact hrelations.bind_nil (.pure _)
    apply ReadsFields.cons (by decide)
    · rw [if_neg (by simp), if_neg (by simp), if_neg (by simp), if_neg (by simp),
        if_neg (by simp), if_pos rfl]
      exact hmembers.bind_nil (.pure _)
    exact .nil _
  case last => exact .pure c

/-! ## Parameters -/

/-- The entries of one kind are read as the values that `f` makes of the written ones. -/
theorem reads_readEntriesOf (hbound : 0 < bound) {value : Reader β} {enc : α → Bytes} {f : α → β}
    {P : α → Prop} (ofByte : UInt8 → Option β) {entries : List (String × List α)}
    (hentries : EntriesFit P entries) (hvalue : ∀ x, P x → Reads value (enc x) (f x)) :
    Reads (readEntriesOf bound value ofByte) (encodeEntries enc entries)
      (entries.map fun entry => (entry.1, entry.2.map f)) := by
  refine reads_readSequence_map hbound _ hentries.1 ?_
  intro entry hentry
  have hkey : TextFits entry.1 := (hentries.2 entry hentry).1
  have hvalues : ListFits P entry.2 := (hentries.2 entry hentry).2
  have hlist : Reads (readSequence bound value ofByte) (encodeList enc entry.2) (entry.2.map f) :=
    reads_readSequence_map hbound ofByte hvalues.1 fun x hx => hvalue x (hvalues.2 x hx)
  exact reads_readPair hbound (reads_readString hbound hkey) hlist

theorem map_entries_id (entries : List (String × List α)) :
    (entries.map fun entry => (entry.1, entry.2.map fun x => x)) = entries := by
  simp

/-- The parameters as they are read back: numbers of single precision are quiet. -/
def ParameterBody.quiet (p : ParameterBody) : ParameterBody :=
  { p with floats := p.floats.map fun entry => (entry.1, entry.2.map Binary32.quiet) }

theorem reads_readParameterBody (hbound : 0 < bound) (depth : Nat) {p : ParameterBody}
    (hp : p.Fits) : Reads (readParameterBody bound depth) p.encode p.quiet := by
  have hints := reads_readEntriesOf hbound (fun b => some (Int32.ofNat b.toNat)) hp.ints
    fun n _ => reads_readInt32 hbound n
  have hfloats := reads_readEntriesOf hbound (fun b => some (Binary32.ofNat b.toNat)) hp.floats
    fun x _ => (reads_readDouble hbound x.widen).map Binary64.narrow
  have hdoubles := reads_readEntriesOf hbound (fun b => some (Binary64.ofNat b.toNat)) hp.doubles
    fun x _ => reads_readDouble hbound x
  have hstrings := reads_readEntriesOf hbound (fun _ => none) hp.strings
    fun s hs => reads_readString hbound hs
  have hquiet : (p.floats.map fun entry => (entry.1, entry.2.map fun x => x.widen.narrow)) =
      p.quiet.floats := by
    simp [ParameterBody.quiet, Binary32.narrow_widen]
  rw [map_entries_id] at hints hdoubles hstrings
  rw [hquiet] at hfloats
  refine Reads.bind_nil (x := ⟨some p.ints, some p.quiet.floats, some p.doubles, some p.strings⟩)
    (reads_readMap hbound (by simp) ?fields) ?last
  case fields =>
    apply ReadsFields.cons (by decide)
    · rw [if_pos rfl]
      exact (reads_readOnce hints).bind_nil (.pure _)
    apply ReadsFields.cons (by decide)
    · rw [if_neg (by simp), if_pos rfl]
      exact (reads_readOnce hfloats).bind_nil (.pure _)
    apply ReadsFields.cons (by decide)
    · rw [if_neg (by simp), if_neg (by simp), if_pos rfl]
      exact (reads_readOnce hdoubles).bind_nil (.pure _)
    apply ReadsFields.cons (by decide)
    · rw [if_neg (by simp), if_neg (by simp), if_neg (by simp), if_pos rfl]
      exact (reads_readOnce hstrings).bind_nil (.pure _)
    exact .nil _
  case last => exact .pure p.quiet

/-! ## Frames -/

/-- The body as it is read back. -/
def FrameBody.quiet (b : FrameBody) : FrameBody :=
  { b with parameters := b.parameters.quiet }

theorem reads_readIds (hbound : 0 < bound) {ids : List (String × CollectionId)}
    (hids : ListFits (fun pair => TextFits pair.1) ids) :
    Reads (readList bound (readPair bound (readString bound) (CollectionId.mk <$> readUInt32 bound)))
      (encodeList (encodePair encodeText fun id : CollectionId => encodeNat id.val.toNat) ids)
      ids := by
  refine reads_readSequence hbound _ hids.1 ?_
  intro pair hpair
  have hname : Reads (readString bound) (encodeText pair.1) pair.1 :=
    reads_readString hbound (hids.2 pair hpair)
  have hid : Reads (CollectionId.mk <$> readUInt32 bound) (encodeNat pair.2.val.toNat) pair.2 :=
    (reads_readUInt32 hbound pair.2.val).map CollectionId.mk
  exact reads_readPair hbound hname hid

/-- A body that fits is read from its bytes, whatever follows them. -/
theorem reads_readFrameBody (hbound : 0 < bound) {b : FrameBody} (hb : b.Fits) :
    Reads (readFrameBody bound) b.encode b.quiet := by
  have hids := reads_readOnce (reads_readIds hbound hb.ids)
  have hcollections := reads_readOnce (reads_readSequence hbound (fun _ => none) hb.collections.1
    fun c hc => reads_readCollectionBody hbound (depthLimit - 3) (hb.collections.2 c hc))
  have hparameters :=
    reads_readOnce (reads_readParameterBody hbound (depthLimit - 2) hb.parameters)
  refine Reads.bind_nil (x := ⟨some b.ids, some b.collections, some b.parameters.quiet⟩)
    (reads_readMap hbound (by simp) ?fields) ?last
  case fields =>
    apply ReadsFields.cons (by decide)
    · rw [if_pos rfl]
      exact hids.bind_nil (.pure _)
    apply ReadsFields.cons (by decide)
    · rw [if_neg (by simp), if_pos rfl]
      exact hcollections.bind_nil (.pure _)
    apply ReadsFields.cons (by decide)
    · rw [if_neg (by simp), if_neg (by simp), if_pos rfl]
      exact hparameters.bind_nil (.pure _)
    exact .nil _
  case last => exact .pure b.quiet

end EventModel.Wire
