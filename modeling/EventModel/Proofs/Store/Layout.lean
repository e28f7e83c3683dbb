import EventModel.Proofs.Store.Stored

/-!
# The layout of buffers

Buffers of a normal collection have the layout of a type if the numbers of their columns, the bytes
per element and the numbers of elements are those that the type asks for. Then they hold contents
(`fitsLayout_iff`), and what is left to check are the windows of the records: each of them must lie
in its column, and under verification the windows into a column must cover it (`Covers`). The
decoder accepts just that (`decodeOwned_iff`), and all that it ever reports is that buffers are
corrupt (`failsAsCorrupt_decodeOwned`).
-/

namespace EventModel

/-! ## Windows that cover a column -/

/-- In their order the windows lead from an element of a column to its end: the first starts there,
each one starts where the one before it stops, and the last one stops at the end. -/
structure Covers (start : Nat) (windows : List Window) (len : Nat) : Prop where
  first : ∀ w, windows[0]? = some w → w.start.toNat = start
  next : ∀ (i : Nat) w w', windows[i]? = some w → windows[i + 1]? = some w' → w'.start = w.stop
  ordered : ∀ w ∈ windows, w.start ≤ w.stop
  last : (windows.getLast?.map (·.stop.toNat)).getD start = len

theorem covers_nil {start len : Nat} : Covers start [] len ↔ start = len := by
  constructor
  · intro h
    exact h.last
  · intro h
    exact ⟨by simp, by simp, by simp, h⟩

theorem covers_cons {start len : Nat} {w : Window} {rest : List Window} :
    Covers start (w :: rest) len ↔
      w.start.toNat = start ∧ w.start ≤ w.stop ∧ Covers w.stop.toNat rest len := by
  -- the last window of the longer list is the last one of the rest, if there is one
  have hlast : ((w :: rest).getLast?.map (·.stop.toNat)).getD start =
      (rest.getLast?.map (·.stop.toNat)).getD w.stop.toNat := by
    rw [List.getLast?_cons]
    rcases rest.getLast? with _ | w' <;> rfl
  constructor
  · intro h
    refine ⟨h.first w rfl, h.ordered w List.mem_cons_self, ?_, ?_, ?_, hlast ▸ h.last⟩
    · intro w' hw'
      rw [h.next 0 w w' rfl hw']
    · intro i w' w'' hw' hw''
      exact h.next (i + 1) w' w'' hw' hw''
    · exact fun w' hw' => h.ordered w' (List.mem_cons_of_mem w hw')
  · rintro ⟨hstart, hordered, h⟩
    refine ⟨?_, ?_, ?_, hlast.trans h.last⟩
    · intro w' hw'
      cases hw'
      exact hstart
    · intro i w' w'' hw' hw''
      cases i with
      | zero =>
        cases hw'
        exact UInt32.toNat_inj.1 (h.first w'' hw'')
      | succ i => exact h.next i w' w'' hw' hw''
    · exact List.forall_mem_cons.2 ⟨hordered, h.ordered⟩

/-- The verification of a reader accepts the windows that cover a column. -/
theorem checkPartition_go_eq_ok_iff {type : String} {column position start len : Nat}
    {windows : List Window} :
    checkPartition.go type column len position start windows = .ok () ↔
      Covers start windows len := by
  induction windows generalizing position start with
  | nil =>
    rw [covers_nil, checkPartition.go]
    split <;> simp_all
  | cons w rest ih =>
    rw [covers_cons, checkPartition.go]
    by_cases hnext : w.start.toNat = start ∧ w.start ≤ w.stop
    · rw [if_pos hnext, ih, ← and_assoc, and_iff_right hnext]
    · rw [if_neg hnext, ← and_assoc]
      constructor
      · intro h
        cases h
      · exact fun h => absurd h.1 hnext

theorem checkPartition_eq_ok_iff {type : String} {column len : Nat} {windows : List Window} :
    checkPartition type column windows len = .ok () ↔ Covers 0 windows len :=
  checkPartition_go_eq_ok_iff

theorem Covers.le {start len : Nat} {windows : List Window} (h : Covers start windows len) :
    start ≤ len := by
  induction windows generalizing start with
  | nil => exact Nat.le_of_eq (covers_nil.1 h)
  | cons w rest ih =>
    rcases covers_cons.1 h with ⟨rfl, hordered, hrest⟩
    exact Nat.le_trans (UInt32.le_iff_toNat_le.1 hordered) (ih hrest)

/-- Windows that cover a column lie in it. -/
theorem Covers.fits {start len : Nat} {windows : List Window} (h : Covers start windows len) :
    ∀ w ∈ windows, w.Fits len := by
  induction windows generalizing start with
  | nil => simp
  | cons w rest ih =>
    rcases covers_cons.1 h with ⟨-, hordered, hrest⟩
    exact List.forall_mem_cons.2 ⟨⟨UInt32.le_iff_toNat_le.1 hordered, hrest.le⟩, ih hrest⟩

/-! ## The layout of a type -/

variable {t : DataType} {b : Buffers}

/-- The columns that records have windows into: first those of the to-many relations, then those of
the members. -/
def Buffers.windowed (b : Buffers) (t : DataType) : List RawBytes :=
  b.relations.take t.toMany.length ++ b.members

/-- The columns are those of a type: a record has the bytes of a payload and of its windows, an
address has twelve, and to-one columns have an address for each record. -/
structure Buffers.FitsLayout (b : Buffers) (t : DataType) : Prop where
  relations : b.relations.length = t.toMany.length + t.toOne.length
  members : b.members.length = t.members.length
  recordStride : b.records.stride = t.payload.stride + t.windows * 8
  relationStride : ∀ raw ∈ b.relations, raw.stride = 12
  memberStride : ∀ raw ∈ b.members, raw.stride = t.element.stride
  singles : ∀ raw ∈ b.relations.drop t.toMany.length, raw.count = b.records.count

/-- The windows of the records into each column cover it if they are verified, and lie in it in any
case. -/
def Buffers.WindowsFit (b : Buffers) (t : DataType) (verify : Bool) (records : List (Record t)) :
    Prop :=
  ∀ (j : Fin t.windows) raw, (b.windowed t)[j.val]? = some raw →
    if verify then Covers 0 (records.map fun record => record.windows.get j) raw.count
    else ∀ record ∈ records, (record.windows.get j).Fits raw.count

/-- A column of addresses has the stride of addresses and as many of them as it says. -/
theorem Buffers.length_of_relationIds {i : Nat} {ids : List ObjectId} {raw : RawBytes}
    (hids : b.relationIds i = .ok ids) (hraw : b.relations[i]? = some raw) :
    raw.stride = 12 ∧ ids.length = raw.count := by
  rcases Buffers.relationIds_eq_ok_iff.1 hids with ⟨raw', hraw', hdecode⟩
  cases hraw.symm.trans hraw'
  exact ⟨(RawBytes.decode_eq_ok_iff.1 hdecode).1, RawBytes.length_of_decode hdecode⟩

namespace Contents

variable {c : Contents t}

/-- The decoder finds the contents that the columns hold. -/
theorem IsRead.decode (h : c.IsRead b) :
    Contents.decode t b h.relationColumns h.memberColumns = .ok c := by
  have hcolumn : ∀ {i ids} (hi : i < b.relations.length), b.relationIds i = .ok ids →
      (b.relations.get ⟨i, hi⟩).decode .objectId = .ok ids := by
    intro i ids hi hids
    rcases Buffers.relationIds_eq_ok_iff.1 hids with ⟨raw, hraw, hdecode⟩
    rw [List.getElem?_eq_getElem hi] at hraw
    cases hraw
    exact hdecode
  have hmembers : ∀ (m : Fin t.members.length) (hm : m.val < b.members.length),
      (b.members.get ⟨m, hm⟩).decode t.element = .ok c.members[m] := by
    intro m hm
    rcases h.members m with ⟨raw, hraw, hdecode⟩
    rw [List.getElem?_eq_getElem hm] at hraw
    cases hraw
    exact hdecode
  have hsingles : c.toOne.toList.find? (·.length != c.records.length) = none := by
    refine List.find?_eq_none.2 ?_
    intro ids hids
    rcases List.getElem_of_mem hids with ⟨r, hr, rfl⟩
    simpa using h.singles ⟨r, by simpa using hr⟩
  refine bind_eq_ok_iff.2 ⟨c.records, h.records, ?_⟩
  refine bind_eq_ok_iff.2 ⟨c.toMany, tryOfFn_eq_ok_iff.2 fun r => hcolumn _ (h.toMany r), ?_⟩
  refine bind_eq_ok_iff.2 ⟨c.toOne, tryOfFn_eq_ok_iff.2 fun r => hcolumn _ (h.toOne r), ?_⟩
  rw [hsingles]
  exact bind_eq_ok_iff.2 ⟨c.members, tryOfFn_eq_ok_iff.2 fun m => hmembers m _, rfl⟩

theorem IsRead.length_records (h : c.IsRead b) : c.records.length = b.records.count :=
  RawBytes.length_of_decode (Record.decodeAll_eq_ok_iff.1 h.records)

/-- Buffers of which contents are read have the layout of the type. -/
theorem IsRead.fitsLayout (h : c.IsRead b) : b.FitsLayout t where
  relations := h.relationColumns
  members := h.memberColumns
  recordStride :=
    (RawBytes.decode_eq_ok_iff.1 (Record.decodeAll_eq_ok_iff.1 h.records)).1.trans t.stride_eq
  relationStride raw hraw := by
    rcases List.getElem?_of_mem hraw with ⟨i, hi⟩
    have hlt : i < t.toMany.length + t.toOne.length := by
      rw [← DataType.relationColumns, ← h.relationColumns]
      exact (List.getElem?_eq_some_iff.1 hi).1
    by_cases hmany : i < t.toMany.length
    · exact (Buffers.length_of_relationIds (h.toMany ⟨i, hmany⟩) hi).1
    · obtain ⟨r, rfl⟩ := Nat.exists_eq_add_of_le (Nat.le_of_not_lt hmany)
      exact (Buffers.length_of_relationIds (h.toOne ⟨r, by omega⟩) hi).1
  memberStride raw hraw := by
    rcases List.getElem?_of_mem hraw with ⟨m, hm⟩
    have hlt : m < t.members.length := by
      rw [← h.memberColumns]
      exact (List.getElem?_eq_some_iff.1 hm).1
    rcases h.members ⟨m, hlt⟩ with ⟨raw', hraw', hdecode⟩
    cases hm.symm.trans hraw'
    exact (RawBytes.decode_eq_ok_iff.1 hdecode).1
  singles raw hraw := by
    rcases List.getElem?_of_mem hraw with ⟨r, hr⟩
    rw [List.getElem?_drop] at hr
    have hlt : t.toMany.length + r < t.toMany.length + t.toOne.length := by
      rw [← DataType.relationColumns, ← h.relationColumns]
      exact (List.getElem?_eq_some_iff.1 hr).1
    have hone := h.toOne ⟨r, by omega⟩
    rw [← (Buffers.length_of_relationIds hone hr).2, ← h.length_records]
    exact h.singles ⟨r, by omega⟩

/-- What holds of the windows into each column and of its length holds for relations and members. -/
theorem IsRead.forall_windowed (h : c.IsRead b) {P : (Record t → Window) → Nat → Prop} :
    (∀ (j : Fin t.windows) raw, (b.windowed t)[j.val]? = some raw →
      P (fun record => record.windows.get j) raw.count) ↔
    (∀ r : Fin t.toMany.length, P (relationWindow · r) c.toMany[r].length) ∧
      ∀ m : Fin t.members.length, P (memberWindow · m) c.members[m].length := by
  -- the first columns are those of the to-many relations, the others those of the members
  have htotal : t.windows = t.toMany.length + t.members.length := rfl
  have hlength : (b.relations.take t.toMany.length).length = t.toMany.length := by
    rw [List.length_take, h.relationColumns, DataType.relationColumns]
    omega
  have hrelation : ∀ r : Fin t.toMany.length, (b.windowed t)[r.val]? = b.relations[r.val]? := by
    intro r
    rw [Buffers.windowed, List.getElem?_append_left (hlength.symm ▸ r.isLt),
      List.getElem?_take_of_lt r.isLt]
  have hmember : ∀ m, (b.windowed t)[t.toMany.length + m]? = b.members[m]? := by
    intro m
    rw [Buffers.windowed, List.getElem?_append_right (by omega), hlength, Nat.add_sub_cancel_left]
  constructor
  · intro hwindows
    constructor
    · intro r
      rcases Buffers.relationIds_eq_ok_iff.1 (h.toMany r) with ⟨raw, hraw, hdecode⟩
      rw [RawBytes.length_of_decode hdecode]
      exact hwindows ⟨r, by omega⟩ raw ((hrelation r).trans hraw)
    · intro m
      rcases h.members m with ⟨raw, hraw, hdecode⟩
      rw [RawBytes.length_of_decode hdecode]
      exact hwindows ⟨t.toMany.length + m, by omega⟩ raw ((hmember m).trans hraw)
  · rintro ⟨hrelations, hmembers⟩ ⟨j, hj⟩ raw hraw
    by_cases hmany : j < t.toMany.length
    · rw [hrelation ⟨j, hmany⟩] at hraw
      have hwindows := hrelations ⟨j, hmany⟩
      rwa [(Buffers.length_of_relationIds (h.toMany ⟨j, hmany⟩) hraw).2] at hwindows
    · obtain ⟨m, rfl⟩ := Nat.exists_eq_add_of_le (Nat.le_of_not_lt hmany)
      have hm : m < t.members.length := by omega
      rw [hmember] at hraw
      rcases h.members ⟨m, hm⟩ with ⟨raw', hraw', hdecode⟩
      cases hraw.symm.trans hraw'
      have hwindows := hmembers ⟨m, hm⟩
      rwa [RawBytes.length_of_decode hdecode] at hwindows

/-- The windows of contents that are read fit if they are verified and lie in their columns. -/
theorem IsRead.windowsFit_iff (h : c.IsRead b) {verify : Bool} :
    b.WindowsFit t verify c.records ↔
      (verify = true → c.verify = .ok ()) ∧ ∀ record ∈ c.records, c.Fits record := by
  rcases verify
  · have hwindows := @forall_windowed t b c h
      fun window len => ∀ record ∈ c.records, (window record).Fits len
    refine Iff.trans hwindows ?_
    constructor
    · rintro ⟨hrelations, hmembers⟩
      refine ⟨by simp, ?_⟩
      intro record hrecord
      exact ⟨fun r => hrelations r record hrecord, fun m => hmembers m record hrecord⟩
    · rintro ⟨-, hfits⟩
      exact ⟨fun r record hrecord => (hfits record hrecord).toMany r,
        fun m record hrecord => (hfits record hrecord).members m⟩
  · have hwindows := @forall_windowed t b c h
      fun window len => Covers 0 (c.records.map window) len
    refine Iff.trans hwindows ?_
    -- windows that cover their columns lie in them, so verification leaves nothing else to check
    simp only [verify_eq_ok_iff, checkPartition_eq_ok_iff, forall_const]
    constructor
    · rintro ⟨hrelations, hmembers⟩
      refine ⟨⟨hrelations, hmembers⟩, ?_⟩
      intro record hrecord
      exact ⟨fun r => (hrelations r).fits _ (List.mem_map_of_mem hrecord),
        fun m => (hmembers m).fits _ (List.mem_map_of_mem hrecord)⟩
    · exact And.left

end Contents

/-- Buffers have the layout of a type exactly if contents are read of them. -/
theorem fitsLayout_iff : b.FitsLayout t ↔ ∃ c : Contents t, c.IsRead b := by
  constructor
  · intro h
    have hrelation : ∀ i, i < t.toMany.length + t.toOne.length →
        ∃ ids, b.relationIds i = .ok ids := by
      intro i hi
      have hlt : i < b.relations.length := h.relations ▸ hi
      have hget := List.getElem?_eq_getElem hlt
      have hstride := h.relationStride _ (List.getElem_mem hlt)
      rcases RawBytes.exists_decode_iff.2 (show _ = Shape.objectId.stride from hstride)
        with ⟨ids, hids⟩
      exact ⟨ids, Buffers.relationIds_eq_ok_iff.2 ⟨_, hget, hids⟩⟩
    have hmember : ∀ m : Fin t.members.length, ∃ column raw, b.members[m.val]? = some raw ∧
        raw.decode t.element = .ok column := by
      intro m
      have hlt : m.val < b.members.length := by
        rw [h.members]
        exact m.isLt
      rcases RawBytes.exists_decode_iff.2 (h.memberStride _ (List.getElem_mem hlt))
        with ⟨column, hcolumn⟩
      exact ⟨column, _, List.getElem?_eq_getElem hlt, hcolumn⟩
    -- each column is decoded on its own; only the to-one columns depend on the records
    obtain ⟨records, hrecords⟩ := RawBytes.exists_decode_iff.2
      (show b.records.stride = t.record.stride from h.recordStride.trans t.stride_eq.symm)
    choose toMany htoMany using fun r : Fin t.toMany.length => hrelation r (by omega)
    choose toOne htoOne using fun r : Fin t.toOne.length =>
      hrelation (t.toMany.length + r) (by omega)
    choose members hmembers using hmember
    refine ⟨⟨records, .ofFn toMany, .ofFn toOne, .ofFn members⟩, h.relations, h.members,
      Record.decodeAll_eq_ok_iff.2 hrecords, by simpa using htoMany, by simpa using htoOne,
      by simpa using hmembers, ?singles⟩
    case singles =>
      intro r
      rcases Buffers.relationIds_eq_ok_iff.1 (htoOne r) with ⟨raw, hraw, hdecode⟩
      have hmem : raw ∈ b.relations.drop t.toMany.length := by
        refine List.mem_of_getElem? (i := r.val) ?_
        rw [List.getElem?_drop, hraw]
      have hsingles := h.singles raw hmem
      rw [← RawBytes.length_of_decode hdecode, ← RawBytes.length_of_decode hrecords] at hsingles
      simpa using hsingles
  · rintro ⟨c, hread⟩
    exact hread.fitsLayout

/-! ## What the decoder accepts -/

namespace Store

variable {config : Config}

/-- Buffers of a normal collection are decoded exactly if they have the layout of the type and the
windows of their records fit. -/
theorem decodeOwned_iff : (∃ contents bodies, decodeOwned t b config = .ok (contents, bodies)) ↔
    b.FitsLayout t ∧ ∀ records, Record.decodeAll t b.records = .ok records →
      b.WindowsFit t config.verify records := by
  constructor
  · rintro ⟨contents, bodies, hdecode⟩
    rcases decodeOwned_eq_ok_iff.1 hdecode with ⟨hrelations, hmembers, hcontents, hverified, hbodies⟩
    have hread := Contents.isRead_of_decode hcontents
    refine ⟨hread.fitsLayout, ?_⟩
    intro records hrecords
    cases hrecords.symm.trans hread.records
    exact hread.windowsFit_iff.2 ⟨hverified, (Contents.mapM_body_eq_ok_iff.1 hbodies).1⟩
  · rintro ⟨hlayout, hwindows⟩
    rcases fitsLayout_iff.1 hlayout with ⟨contents, hread⟩
    rcases hread.windowsFit_iff.1 (hwindows _ hread.records) with ⟨hverified, hfits⟩
    exact ⟨contents, _, decodeOwned_eq_ok_iff.2 ⟨hread.relationColumns, hread.memberColumns,
      hread.decode, hverified, Contents.mapM_body_eq_ok_iff.2 ⟨hfits, rfl⟩⟩⟩

end Store

/-! ## What the decoder reports -/

/-- The computation fails only because buffers are corrupt. -/
def FailsAsCorrupt {α : Type} (x : Except Error α) : Prop :=
  ∀ e, x = .error e → ∃ reason, e = .corruptBuffer reason

section Failures

variable {α β : Type}

theorem failsAsCorrupt_ok (a : α) : FailsAsCorrupt (.ok a) := by
  rintro e ⟨⟩

theorem failsAsCorrupt_error (reason : String) :
    FailsAsCorrupt (.error (.corruptBuffer reason) : Except Error α) := by
  rintro e ⟨⟩
  exact ⟨reason, rfl⟩

theorem FailsAsCorrupt.bind {x : Except Error α} {f : α → Except Error β} (h : FailsAsCorrupt x)
    (hf : ∀ a, FailsAsCorrupt (f a)) : FailsAsCorrupt (x >>= f) := by
  intro e he
  rcases bind_eq_error_iff.1 he with hx | ⟨a, -, hfa⟩
  · exact h e hx
  · exact hf a e hfa

theorem failsAsCorrupt_tryOfFn {n : Nat} {f : Fin n → Except Error α}
    (h : ∀ i, FailsAsCorrupt (f i)) : FailsAsCorrupt (tryOfFn f) := by
  intro e he
  rcases exists_of_tryOfFn_eq_error he with ⟨i, hi⟩
  exact h i e hi

theorem failsAsCorrupt_mapM {f : α → Except Error β} (h : ∀ x, FailsAsCorrupt (f x))
    (xs : List α) : FailsAsCorrupt (xs.mapM f) := by
  intro e he
  rcases exists_of_mapM_eq_error he with ⟨x, -, hx⟩
  exact h x e hx

end Failures

theorem RawBytes.failsAsCorrupt_decode (s : Shape) (raw : RawBytes) :
    FailsAsCorrupt (raw.decode s) := by
  unfold RawBytes.decode
  split
  · exact failsAsCorrupt_ok _
  · exact failsAsCorrupt_error _

theorem Record.failsAsCorrupt_decodeAll (t : DataType) (raw : RawBytes) :
    FailsAsCorrupt (Record.decodeAll t raw) := by
  unfold Record.decodeAll
  split
  · exact failsAsCorrupt_ok _
  · exact failsAsCorrupt_error _

theorem Window.failsAsCorrupt_checked (w : Window) (len : Nat) :
    FailsAsCorrupt (w.checked len) := by
  unfold Window.checked
  dsimp only
  split
  · exact failsAsCorrupt_error _
  · exact failsAsCorrupt_ok _

theorem failsAsCorrupt_checkPartition_go (type : String) (column len position start : Nat)
    (windows : List Window) :
    FailsAsCorrupt (checkPartition.go type column len position start windows) := by
  induction windows generalizing position start with
  | nil =>
    unfold checkPartition.go
    split
    · exact failsAsCorrupt_ok _
    · exact failsAsCorrupt_error _
  | cons w rest ih =>
    unfold checkPartition.go
    split
    · exact ih _ _
    · exact failsAsCorrupt_error _

theorem Contents.failsAsCorrupt_decode (hrelations : b.relations.length = t.relationColumns)
    (hmembers : b.members.length = t.members.length) :
    FailsAsCorrupt (Contents.decode t b hrelations hmembers) := by
  refine (Record.failsAsCorrupt_decodeAll t b.records).bind fun _ => ?_
  refine (failsAsCorrupt_tryOfFn fun _ => RawBytes.failsAsCorrupt_decode _ _).bind fun _ => ?_
  refine (failsAsCorrupt_tryOfFn fun _ => RawBytes.failsAsCorrupt_decode _ _).bind fun _ => ?_
  split
  · exact failsAsCorrupt_error _
  · exact (failsAsCorrupt_tryOfFn fun _ => RawBytes.failsAsCorrupt_decode _ _).bind
      fun _ => failsAsCorrupt_ok _

theorem Contents.failsAsCorrupt_verify (c : Contents t) : FailsAsCorrupt c.verify :=
  (failsAsCorrupt_tryOfFn fun _ => failsAsCorrupt_checkPartition_go _ _ _ _ _ _).bind fun _ =>
    (failsAsCorrupt_tryOfFn fun _ => failsAsCorrupt_checkPartition_go _ _ _ _ _ _).bind fun _ =>
      failsAsCorrupt_ok _

theorem Contents.failsAsCorrupt_body (c : Contents t) (record : Record t) :
    FailsAsCorrupt (c.body record) :=
  (failsAsCorrupt_tryOfFn fun _ => Window.failsAsCorrupt_checked _ _).bind fun _ =>
    (failsAsCorrupt_tryOfFn fun _ =>
      (Window.failsAsCorrupt_checked _ _).bind fun _ => failsAsCorrupt_ok _).bind fun _ =>
        failsAsCorrupt_ok _

theorem Store.failsAsCorrupt_decodeOwned (t : DataType) (b : Buffers) (config : Config) :
    FailsAsCorrupt (decodeOwned t b config) := by
  unfold decodeOwned
  split
  · split
    · refine (Contents.failsAsCorrupt_decode _ _).bind fun contents => ?_
      have hbodies : FailsAsCorrupt (do
          let bodies ← contents.records.mapM contents.body
          return (contents, bodies)) :=
        (failsAsCorrupt_mapM contents.failsAsCorrupt_body _).bind fun _ => failsAsCorrupt_ok _
      split
      · exact contents.failsAsCorrupt_verify.bind fun _ => hbodies
      · exact hbodies
    · exact failsAsCorrupt_error _
  · exact failsAsCorrupt_error _

theorem Store.failsAsCorrupt_decodeSubset (t : DataType) (b : Buffers) :
    FailsAsCorrupt (decodeSubset t b) := by
  unfold decodeSubset
  split
  · exact RawBytes.failsAsCorrupt_decode _ _
  · exact failsAsCorrupt_error _

end EventModel
