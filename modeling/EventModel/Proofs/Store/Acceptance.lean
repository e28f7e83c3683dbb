import EventModel.Proofs.Store.Filled
import EventModel.Proofs.Store.Layout
import EventModel.Proofs.Store.Waiting
import EventModel.Proofs.Store.WrittenBack

/-!
# Accepted buffers

Which buffers a collection is rebuilt from, and what it is rebuilt to. Buffers of a normal collection
are accepted exactly if they have the layout of the type and the windows of their records fit
(`rebuild_iff`). Of the buffers of a subset collection only the type and the addresses are looked at:
records and members that such buffers hold besides are dropped (`rebuild_subset_iff`).
-/

namespace EventModel

variable {t : DataType} {b : Buffers}

/-- Buffers of a normal collection that are accepted for a type, with verification or without. -/
structure Buffers.IsAccepted (b : Buffers) (t : DataType) (verify : Bool) : Prop where
  type : b.type = t.name
  layout : b.FitsLayout t
  windows : ∀ records, Record.decodeAll t b.records = .ok records →
    b.WindowsFit t verify records

theorem Buffers.expectType_eq_ok_iff : b.expectType t = .ok () ↔ b.type = t.name := by
  unfold Buffers.expectType
  by_cases htype : b.type = t.name
  · simp [htype]
  · simp [htype]

namespace Store

variable {s s' s₁ : Store} {c : CollectionKey} {k : ObjectKey} {i : Nat} {number : CollectionId}
  {config : Config}

/-! ## Refusal -/

/-- A rebuild fails for a foreign type or for corrupt buffers, and then it changes nothing. -/
theorem rebuild_eq_error {e : Error} (hrun : rebuild t b number config s = (.error e, s')) :
    s' = s ∧ (b.type ≠ t.name ∧ e = .typeMismatch t.name b.type ∨
      b.type = t.name ∧ ∃ reason, e = .corruptBuffer reason) := by
  rw [rebuild, bind_apply, ask_apply] at hrun
  by_cases htype : b.type = t.name
  · rw [Buffers.expectType_eq_ok_iff.2 htype] at hrun
    dsimp only at hrun
    by_cases hsubset : b.subset = true
    · rw [if_pos hsubset, bind_apply, ask_apply] at hrun
      rcases hids : decodeSubset t b with e' | ids <;> rw [hids] at hrun
      · cases hrun
        exact ⟨rfl, .inr ⟨htype, failsAsCorrupt_decodeSubset t b e hids⟩⟩
      · cases hrun
    · rw [if_neg hsubset, bind_apply, ask_apply] at hrun
      rcases hdecode : decodeOwned t b config with e' | ⟨contents, bodies⟩ <;> rw [hdecode] at hrun
      · cases hrun
        exact ⟨rfl, .inr ⟨htype, failsAsCorrupt_decodeOwned t b config e hdecode⟩⟩
      · cases hrun
  · rw [Buffers.expectType, if_neg htype] at hrun
    cases hrun
    exact ⟨rfl, .inl ⟨htype, rfl⟩⟩

/-! ## Normal collections -/

/-- The object at a position of a rebuilt collection is that of a record: it has the address of the
position, the payload of the record and, of each member column, what the window of the record
selects. -/
structure IsObjectOf (s : Store) (c : CollectionKey) (number : CollectionId) (b : Buffers) (i : Nat)
    (record : Record t) (k : ObjectKey) : Prop where
  listed : s.ListsAt c i k
  address : s.idOf (some k) = .ok (.ofPosition i number)
  payload : s.payload t (some k) = .ok record.payload
  members : ∀ m : Fin t.members.length, ∃ raw column, b.members[m.val]? = some raw ∧
    raw.decode t.element = .ok column ∧
    s.members t (some k) m = .ok ((Contents.memberWindow record m).segment column)

/-- The collection has an object for each record, in the order of the records. -/
structure IsBuiltFrom (s : Store) (c : CollectionKey) (t : DataType) (number : CollectionId)
    (b : Buffers) : Prop where
  size : ∃ col, s.collections.get? c = some col ∧ col.size = b.records.count
  objects : ∀ records, Record.decodeAll t b.records = .ok records →
    ∀ i record, records[i]? = some record → ∃ k, s.IsObjectOf c number b i record k

theorem exists_rebuild_iff (hsubset : b.subset = false) :
    (∃ c s', rebuild t b number config s = (.ok c, s')) ↔ b.IsAccepted t config.verify := by
  constructor
  · rintro ⟨c, s', hrun⟩
    rcases rebuild_cases t b number config s
      with ⟨e, herror⟩ | ⟨htype, ⟨ids, htrue, -⟩ | ⟨contents, bodies, -, hdecode⟩⟩
    · cases hrun.symm.trans herror
    · cases hsubset.symm.trans htrue
    · rcases decodeOwned_iff.1 ⟨contents, bodies, hdecode⟩ with ⟨hlayout, hwindows⟩
      exact ⟨Buffers.expectType_eq_ok_iff.1 htype, hlayout, hwindows⟩
  · rintro ⟨htype, hlayout, hwindows⟩
    rcases decodeOwned_iff.2 ⟨hlayout, hwindows⟩ with ⟨contents, bodies, hdecode⟩
    exact ⟨_, _, rebuild_apply_owned (Buffers.expectType_eq_ok_iff.2 htype) hsubset hdecode⟩

theorem isBuiltFrom_of_rebuild (hsubset : b.subset = false)
    (hrun : rebuild t b number config s = (.ok c, s')) : s'.IsBuiltFrom c t number b := by
  rcases exists_owns_of_rebuild hsubset hrun with ⟨contents, keys, hread, hstands, howns⟩
  have hlength : keys.length = contents.records.length := by
    rw [howns.length, List.length_map, Contents.rows, List.length_mapIdx]
  refine ⟨?_, ?_⟩
  · rcases hstands.collection with ⟨col, hcol, -, -, hstorage⟩
    refine ⟨col, hcol, ?_⟩
    rw [Collection.size, hstorage, ← hread.length_records, ← hlength]
    simp [Storage.size]
  · intro records hrecords i record hrecord
    cases hrecords.symm.trans hread.records
    have hlt : i < keys.length := hlength ▸ (List.getElem?_eq_some_iff.1 hrecord).1
    have hkey : keys[i]? = some keys[i] := List.getElem?_eq_getElem hlt
    have hrow : (contents.rows.map Row.body)[i]? = some (contents.row i record).body := by
      rw [List.getElem?_map, Contents.rows, List.getElem?_mapIdx, hrecord]
      rfl
    have ho := howns.objects i _ _ hkey hrow
    have hbody := body_eq_ok_iff.2 ⟨_, ho, by simp⟩
    rcases hstands with ⟨config', generation, prepared, hcol⟩
    refine ⟨keys[i], ⟨_, _, hcol, rfl, ?_⟩, idOf_of_owned ho rfl hcol, payload_eq_ok hbody, ?_⟩
    · rw [List.getElem?_toArray]
      exact hkey
    · intro m
      rcases hread.members m with ⟨raw, hraw, hdecode⟩
      refine ⟨raw, _, hraw, hdecode, (members_eq_ok hbody m).trans ?_⟩
      simp [Row.body, Contents.row]

/-! ### Without verification -/

theorem addOwned_modifyCollection {d : CollectionKey} (f : Collection → Collection)
    (position : Nat) (bodies : List (Body t)) (s : Store) :
    addOwned c position bodies (s.modifyCollection d f) =
      (addOwned c position bodies s).modifyCollection d f := by
  induction bodies generalizing position s with
  | nil => rfl
  | cons body rest ih =>
    rw [addOwned, addOwned]
    exact ih (position + 1) { s with objects := s.objects.insert ⟨t, .owned c position, body⟩ }

/-- The configuration is all that a rebuilt collection keeps of how it was read. -/
theorem withFounded_rebuiltOwned (config config' : Config) (contents : Contents t)
    (bodies : List (Body t)) :
    s.withFounded (rebuiltOwned config' number s.objects.next bodies.length contents) bodies =
      (s.withFounded (rebuiltOwned config number s.objects.next bodies.length contents)
        bodies).modifyCollection s.collections.next fun col => { col with config := config' } := by
  unfold withFounded
  rw [← addOwned_modifyCollection]
  refine congrArg _ ?_
  rw [modifyCollection]
  dsimp only
  rw [Arena.modify_insert_next]

/-- Buffers that pass verification are read without it to the same objects and columns. -/
theorem rebuild_of_verified {config' : Config} (hsubset : b.subset = false)
    (hunverified : config'.verify = false) (hrun : rebuild t b number config s = (.ok c, s')) :
    rebuild t b number config' s =
      (.ok c, s'.modifyCollection c fun col => { col with config := config' }) := by
  have htype := ((exists_rebuild_iff hsubset).1 ⟨c, s', hrun⟩).type
  rcases exists_contents_of_rebuild hsubset hrun with ⟨contents, -, hdecode, rfl, rfl⟩
  rcases decodeOwned_eq_ok_iff.1 hdecode with ⟨hrelations, hmembers, hcontents, -, hbodies⟩
  -- verification only looks at the contents: what is decoded and built is the same without it
  have hdecode' : decodeOwned t b config' = .ok (contents, contents.rows.map Row.body) :=
    decodeOwned_eq_ok_iff.2 ⟨hrelations, hmembers, hcontents, by simp [hunverified], hbodies⟩
  rw [rebuild_apply_owned (Buffers.expectType_eq_ok_iff.2 htype) hsubset hdecode',
    withFounded_rebuiltOwned config]

/-- Buffers of a normal collection are accepted exactly if they have the layout of the type and the
windows of their records fit, and refused as foreign or corrupt otherwise. The collection has an
object for each record, and verification makes no difference to what is built. -/
theorem rebuild_iff (number : CollectionId) (config : Config) (s : Store)
    (hsubset : b.subset = false) :
    ((∃ c s', rebuild t b number config s = (.ok c, s')) ↔ b.IsAccepted t config.verify) ∧
    (∀ e s', rebuild t b number config s = (.error e, s') →
      s' = s ∧ (b.type ≠ t.name ∧ e = .typeMismatch t.name b.type ∨
        b.type = t.name ∧ ∃ reason, e = .corruptBuffer reason)) ∧
    ∀ c s', rebuild t b number config s = (.ok c, s') →
      s'.IsBuiltFrom c t number b ∧
      ∀ config', config'.verify = false → rebuild t b number config' s =
        (.ok c, s'.modifyCollection c fun col => { col with config := config' }) := by
  refine ⟨exists_rebuild_iff hsubset, fun e s' => rebuild_eq_error, ?_⟩
  intro c s' hrun
  exact ⟨isBuiltFrom_of_rebuild hsubset hrun,
    fun config' hunverified => rebuild_of_verified hsubset hunverified hrun⟩

/-- The mesh with a to-many column of which no window selects the second address. -/
def gapBuffers : Buffers :=
  { meshBuffers with
    records := .encode meshType.record
      [((5 : UInt8), #v[⟨0, 1⟩, ⟨0, 2⟩]), ((6 : UInt8), #v[⟨2, 3⟩, ⟨2, 3⟩])] }

theorem rebuild_iff_meshBuffers :
    meshBuffers.IsAccepted meshType true ∧ meshStore.IsBuiltFrom 0 meshType ⟨7⟩ meshBuffers ∧
      gapBuffers.IsAccepted meshType false ∧ ¬ gapBuffers.IsAccepted meshType true := by
  rcases rebuild_iff (t := meshType) (b := meshBuffers) ⟨7⟩ {} .empty rfl with ⟨hiff, -, hbuilt⟩
  have hgap : (rebuild meshType gapBuffers ⟨7⟩ { verify := false } .empty).1 = .ok 0 := by
    decide +kernel
  have hgapRefused : (rebuild meshType gapBuffers ⟨7⟩ {} .empty).1.isOk = false := by
    decide +kernel
  refine ⟨hiff.1 ⟨0, meshStore, rebuild_meshBuffers⟩, (hbuilt 0 meshStore rebuild_meshBuffers).1,
    ?_, ?_⟩
  · exact (rebuild_iff ⟨7⟩ { verify := false } .empty rfl).1.1 ⟨0, _, Prod.ext hgap rfl⟩
  · intro haccepted
    rcases (rebuild_iff ⟨7⟩ {} .empty rfl).1.2 haccepted with ⟨c, s', hgapRun⟩
    rw [hgapRun] at hgapRefused
    cases hgapRefused

/-! ## Subset collections -/

theorem decodeSubset_eq_ok_iff {ids : List ObjectId} :
    decodeSubset t b = .ok ids ↔ ∃ raw, b.relations = [raw] ∧ raw.decode .objectId = .ok ids := by
  unfold decodeSubset
  rcases b.relations with _ | ⟨raw, _ | ⟨other, rest⟩⟩
  · simp
  · simp
  · simp

theorem exists_rebuild_subset_iff (hsubset : b.subset = true) :
    (∃ c s', rebuild t b number config s = (.ok c, s')) ↔
      b.type = t.name ∧ ∃ raw, b.relations = [raw] ∧ raw.stride = 12 := by
  constructor
  · rintro ⟨c, s', hrun⟩
    have htype := (holds_of_rebuild hrun).1
    rcases exists_ids_of_rebuild hsubset hrun with ⟨ids, hids, -, -⟩
    rcases decodeSubset_eq_ok_iff.1 hids with ⟨raw, hraw, hdecode⟩
    exact ⟨Buffers.expectType_eq_ok_iff.1 htype, raw, hraw,
      (RawBytes.decode_eq_ok_iff.1 hdecode).1⟩
  · rintro ⟨htype, raw, hraw, hstride⟩
    rcases RawBytes.exists_decode_iff.2 (show _ = Shape.objectId.stride from hstride)
      with ⟨ids, hids⟩
    exact ⟨_, _, rebuild_apply_subset (Buffers.expectType_eq_ok_iff.2 htype) hsubset
      (decodeSubset_eq_ok_iff.2 ⟨raw, hraw, hids⟩)⟩

/-- A subset collection to which nothing was added is written with the addresses it was read with,
and with nothing else. -/
theorem flatten_of_rebuild_subset (h : Reachable s) (hsubset : b.subset = true)
    (hrun : rebuild t b number config s = (.ok c, s₁)) (steps : Steps s₁ s')
    (hwaits : s'.IsWaiting c)
    (hsize : ∀ col, s'.collections.get? c = some col → col.size = b.size) :
    s'.flatten c = .ok { b with records := .empty t.stride, members := [] } := by
  have hlasts := (lasts_of_rebuild h hrun steps hwaits).2
  have htype := Buffers.expectType_eq_ok_iff.1 (holds_of_rebuild hrun).1
  rcases exists_ids_of_rebuild hsubset hrun with ⟨ids, hids, rfl, rfl⟩
  rcases decodeSubset_eq_ok_iff.1 hids with ⟨raw, hraw, hdecode⟩
  have hstands := @stands_withFounded s (rebuiltSubset t config number ids) []
  rcases hlasts.stands hstands with ⟨number', storage, hstands', hgrows⟩
  rcases hgrows with ⟨added, hold, -⟩ | ⟨added, hold, rfl⟩
  · cases hold
  · cases hold
    -- there is one place for each address, so none was added
    have hnone : added = [] := by
      rcases hstands'.collection with ⟨col, hcol, -, -, hstorage⟩
      have htotal := hsize col hcol
      rw [Collection.size, hstorage, Buffers.size, if_pos hsubset, hraw] at htotal
      have hcount := RawBytes.length_of_decode hdecode
      simp [Storage.size, hcount] at htotal
      exact htotal
    rw [hnone, List.map_nil, List.append_nil] at hstands'
    have hflat : s'.HasFlat s.collections.next t number' (.subset ids) :=
      .subset hstands' (List.forall₂_map_left_iff.2 (List.forall₂_same.2 fun _ _ => rfl))
    rw [hflat.flatten]
    refine congrArg Except.ok ?_
    calc
      (Flat.subset ids : Flat t).buffers
        = ⟨t.name, true, .empty t.stride, [.encode .objectId ids], []⟩ := rfl
      _ = ⟨b.type, b.subset, .empty t.stride, b.relations, []⟩ := by
        rw [htype, hsubset, hraw, RawBytes.encode_of_decode rfl hdecode]

/-- Of the buffers of a subset collection the type and the addresses decide whether they are accepted
and what is written before resolution, so that they are written back as they were read exactly if
they have no members and an empty column of records. -/
theorem rebuild_subset_iff (h : Reachable s) (number : CollectionId) (config : Config)
    (hsubset : b.subset = true) :
    ((∃ c s', rebuild t b number config s = (.ok c, s')) ↔
      b.type = t.name ∧ ∃ raw, b.relations = [raw] ∧ raw.stride = 12) ∧
    (∀ e s', rebuild t b number config s = (.error e, s') →
      s' = s ∧ (b.type ≠ t.name ∧ e = .typeMismatch t.name b.type ∨
        b.type = t.name ∧ ∃ reason, e = .corruptBuffer reason)) ∧
    ∀ c s₁ s', rebuild t b number config s = (.ok c, s₁) → Steps s₁ s' → s'.IsWaiting c →
      (∀ col, s'.collections.get? c = some col → col.size = b.size) →
      s'.flatten c = .ok { b with records := .empty t.stride, members := [] } ∧
      (s'.flatten c = .ok b ↔ b.records = .empty t.stride ∧ b.members = []) := by
  refine ⟨exists_rebuild_subset_iff hsubset, fun e s' => rebuild_eq_error, ?_⟩
  intro c s₁ s' hrun steps hwaits hsize
  have hflatten := flatten_of_rebuild_subset h hsubset hrun steps hwaits hsize
  refine ⟨hflatten, ?_⟩
  rw [hflatten, Except.ok.injEq]
  rcases b with ⟨type, subset, records, relations, members⟩
  simp only [Buffers.mk.injEq, true_and]
  exact and_congr eq_comm eq_comm

/-- Buffers of a subset collection with one address, and with a record and a member besides. -/
def strayBuffers : Buffers where
  type := "Mesh"
  subset := true
  records := .encode meshType.record [((5 : UInt8), #v[⟨0, 1⟩, ⟨0, 1⟩])]
  relations := [.encode .objectId [⟨0, ⟨7⟩⟩]]
  members := [.encode .unit [()]]

/-- The store with the subset collection that was rebuilt. -/
def strayStore : Store :=
  (rebuild meshType strayBuffers ⟨8⟩ {} .empty).2

theorem rebuild_subset_iff_strayBuffers :
    strayStore.flatten 0 =
        .ok { strayBuffers with records := .empty meshType.stride, members := [] } ∧
      strayStore.flatten 0 ≠ .ok strayBuffers := by
  have hkey : (rebuild meshType strayBuffers ⟨8⟩ {} .empty).1 = .ok 0 := by decide +kernel
  have hrun : rebuild meshType strayBuffers ⟨8⟩ {} .empty = (.ok 0, strayStore) := by
    rw [strayStore, ← hkey, Prod.eta]
  have hwaits : strayStore.IsWaiting 0 := by decide +kernel
  have hsize : ∀ col, strayStore.collections.get? 0 = some col → col.size = strayBuffers.size := by
    have hone : (strayStore.collections.get? 0).map (·.size) = some strayBuffers.size := by
      decide +kernel
    intro col hcol
    rw [hcol] at hone
    exact Option.some.inj hone
  rcases (rebuild_subset_iff .empty ⟨8⟩ {} rfl).2.2 0 strayStore strayStore hrun .refl
    hwaits hsize with ⟨hflatten, hexact⟩
  refine ⟨hflatten, ?_⟩
  intro hsame
  cases (hexact.1 hsame).2

end Store

end EventModel
