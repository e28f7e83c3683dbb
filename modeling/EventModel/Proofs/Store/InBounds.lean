import EventModel.Proofs.Store.Exact
import EventModel.Proofs.Store.Waiting
import EventModel.Proofs.Store.WrittenBack

/-!
# Accesses within bounds

The windows of a rebuilt object are compared with the columns once, when the collection is rebuilt.
The columns are replaced and left behind by resolution, by edits of their objects and by emptying the
collection, and yet no access of a reachable store ever leaves the column, the list or the array that
it is made to (`inBounds_of_reachable`). No accessor reports corrupt buffers, an index is refused only
if the type has no relation or member of that index, and a to-many relation that can be read has the
length that was known before.
-/

namespace EventModel

/-- The error of an access with an index below `n` or not: it never comes from a buffer, and the index
is refused only if it is out of range. -/
structure WithinBounds (index n : Nat) (e : Error) : Prop where
  uncorrupted : ∀ reason, e ≠ .corruptBuffer reason
  refused : ∀ i size, e = .indexOutOfRange i size → n ≤ index

theorem withinBounds_unavailable (index n : Nat) : WithinBounds index n .unavailable :=
  ⟨nofun, nofun⟩

theorem withinBounds_typeMismatch (index n : Nat) (expected found : String) :
    WithinBounds index n (.typeMismatch expected found) :=
  ⟨nofun, nofun⟩

namespace Store

variable {s s' : Store} {P : Error → Prop} {t : DataType} {c : CollectionKey} {k : ObjectKey}
  {body : Body t} {target : Option ObjectKey} {index n relation : Nat}

/-! ## Questions -/

theorem checkIndex_withinBounds (index n : Nat) :
    FailsOnly (WithinBounds index n) (checkIndex index n) := by
  unfold checkIndex
  split
  · exact .of_ok _
  · rename_i hindex
    refine .of_error ⟨?_, fun _ _ _ => Nat.le_of_not_lt hindex⟩
    rintro reason ⟨⟩

theorem bodyOf_withinBounds (t : DataType) (target : Option ObjectKey) :
    FailsOnly (WithinBounds index n) (s.bodyOf t target) := by
  intro e he
  rcases bodyOf_eq_error he with rfl | ⟨k, o, -, -, -, rfl⟩
  · exact withinBounds_unavailable index n
  · exact withinBounds_typeMismatch index n _ _

/-- A window never leaves the column that it selects from. -/
theorem links_withinBounds (h : WellFormed s) (hbody : s.body t k = .ok body)
    (r : Fin t.toMany.length) : FailsOnly (WithinBounds index n) (s.links k body r) := by
  unfold links
  rcases hmany : body.toMany with lists | windows
  · exact .of_ok _
  · rcases exists_columns h hbody hmany
      with ⟨-, -, -, ⟨id, ⟨many, one⟩ | many⟩, -, -, -, horigin, hfits⟩
    · simp only [horigin]
      exact .of_error ⟨nofun, nofun⟩
    -- the columns may have been replaced since, but by ones of the same lengths
    · have hslice := Window.slice_eq_ok_iff.2 ⟨hfits r, rfl⟩
      simp only [horigin]
      change FailsOnly _ (windows[r].slice many[r])
      rw [hslice]
      exact .of_ok _

theorem related_withinBounds (h : WellFormed s) :
    FailsOnly (WithinBounds relation t.toMany.length) (s.related t target relation) := by
  refine (checkIndex_withinBounds _ _).bind fun r _ => ?_
  refine (bodyOf_withinBounds t target).bind fun own hown => ?_
  exact (links_withinBounds h (bodyOf_eq_ok hown).2 r).bind fun ks _ => .of_ok _

theorem expectType_withinBounds (t : DataType) (target : Option ObjectKey) :
    FailsOnly (WithinBounds index n) (s.expectType t target) := by
  rcases target with _ | k
  · exact .of_error (withinBounds_unavailable index n)
  · refine FailsOnly.bind ?_ fun o _ => ?_
    · intro e he
      rw [object_eq_error he]
      exact withinBounds_unavailable index n
    · split
      · exact .of_ok _
      · exact .of_error (withinBounds_typeMismatch index n _ _)

theorem relatedAs_withinBounds (h : WellFormed s) (u : DataType) :
    FailsOnly (WithinBounds relation t.toMany.length) (s.relatedAs t u target relation) :=
  (related_withinBounds h).bind fun _ _ => .mapM fun place _ => expectType_withinBounds u place

theorem relatedSize_withinBounds :
    FailsOnly (WithinBounds relation t.toMany.length) (s.relatedSize t target relation) := by
  refine (checkIndex_withinBounds _ _).bind fun r _ => ?_
  refine (bodyOf_withinBounds t target).bind fun own _ => ?_
  rcases own with ⟨k, payload, lists | windows, toOne, members⟩
  · exact .of_ok _
  · exact .of_ok _

theorem single_withinBounds :
    FailsOnly (WithinBounds relation t.toOne.length) (s.single t target relation) := by
  refine (checkIndex_withinBounds _ _).bind fun r _ => ?_
  refine (bodyOf_withinBounds t target).bind fun own _ => ?_
  dsimp only
  rcases own.2.toOne[r] with _ | k
  · exact .of_ok _
  · exact .of_ok _

theorem members_withinBounds :
    FailsOnly (WithinBounds index t.members.length) (s.members t target index) :=
  (checkIndex_withinBounds _ _).bind fun _ _ =>
    (bodyOf_withinBounds t target).bind fun _ _ => .of_ok _

/-! ## Changes -/

theorem checkTarget_withinBounds (expected : String) :
    FailsOnly (WithinBounds index n) (s.checkTarget target expected) := by
  intro e he
  rcases checkTarget_eq_error he with rfl | ⟨found, rfl⟩
  · exact withinBounds_unavailable index n
  · exact withinBounds_typeMismatch index n _ _

theorem ownLists_withinBounds (h : WellFormed s) (hbody : s.body t k = .ok body) :
    FailsOnly (WithinBounds index n) (s.ownLists k body) := by
  unfold ownLists
  split
  · exact .of_ok _
  · exact .tryOfFn fun r => links_withinBounds h hbody r

/-- An edit fails like the question that it asks first, or like the computation of the new body. -/
theorem edit_failsOnly {handle : MutableHandle t}
    {f : Store → ObjectKey → Body t → Except Error (Body t)}
    (hbody : FailsOnly P (s.bodyOf t (s.target handle.toReference)))
    (hf : ∀ k body, s.body t k = .ok body → FailsOnly P (f s k body)) :
    FailsOnly P (edit handle f s).1 := by
  unfold edit
  rcases hown : s.bodyOf t (s.target handle.toReference) with e | ⟨k, body⟩
  · exact .of_error (hbody e hown)
  · dsimp only
    rcases hchanged : f s k body with e | changed
    · exact .of_error (hf k body (bodyOf_eq_ok hown).2 e hchanged)
    · exact .of_ok ()

theorem addRelated_withinBounds (h : WellFormed s) (handle : MutableHandle t) (relation : Nat)
    (target : Reference) :
    FailsOnly (WithinBounds relation t.toMany.length) (addRelated handle relation target s).1 := by
  rw [addRelated]
  refine ask_bind_failsOnly (checkIndex_withinBounds _ _) fun r _ => ?_
  rw [get_bind_apply, get_bind_apply]
  refine ask_bind_failsOnly (checkTarget_withinBounds _) fun k _ => ?_
  refine edit_failsOnly (bodyOf_withinBounds t _) fun own body hbody => ?_
  exact (ownLists_withinBounds h hbody).bind fun lists _ => .of_ok _

theorem clearRelated_withinBounds (h : WellFormed s) (handle : MutableHandle t) (relation : Nat) :
    FailsOnly (WithinBounds relation t.toMany.length) (clearRelated handle relation s).1 := by
  rw [clearRelated]
  refine ask_bind_failsOnly (checkIndex_withinBounds _ _) fun r _ => ?_
  refine edit_failsOnly (bodyOf_withinBounds t _) fun own body hbody => ?_
  exact (ownLists_withinBounds h hbody).bind fun lists _ => .of_ok _

theorem setSingle_withinBounds (handle : MutableHandle t) (relation : Nat) (target : Reference) :
    FailsOnly (WithinBounds relation t.toOne.length) (setSingle handle relation target s).1 := by
  rcases hindex : checkIndex relation t.toOne.length with e | r
  · rw [setSingle, bind_apply, ask_apply, hindex]
    exact .of_error (checkIndex_withinBounds _ _ e hindex)
  · have hedit : ∀ place, FailsOnly (WithinBounds relation t.toOne.length)
        (edit handle (fun _ _ body => .ok { body with toOne := setAt body.toOne r place }) s).1 :=
      fun place => edit_failsOnly (bodyOf_withinBounds t _) fun _ _ _ => .of_ok _
    rcases htarget : s.target target with _ | k
    · rw [setSingle_apply_of_none hindex htarget]
      exact hedit none
    · rw [setSingle_apply_of_some hindex htarget]
      rcases hcheck : s.checkTarget (some k) (t.toOne.get r).target with e | k'
      · exact .of_error (checkTarget_withinBounds _ e hcheck)
      · exact hedit (some k')

/-! ## Flattening -/

/-- The error with which a collection is not flattened: no index is out of range, and a buffer is
blamed only if a column would be too long for positions of 32 bits. -/
structure FlatWithinBounds (s : Store) (c : CollectionKey) (e : Error) : Prop where
  accepted : ∀ i size, e ≠ .indexOutOfRange i size
  overlong : ∀ reason, e = .corruptBuffer reason → ∃ col, s.collections.get? c = some col ∧
    s.Overlong (.zero col.type) col.storage.objects

theorem flatWithinBounds_unavailable : s.FlatWithinBounds c .unavailable :=
  ⟨nofun, nofun⟩

theorem flatten_withinBounds (h : WellFormed s) (c : CollectionKey) :
    FailsOnly (s.FlatWithinBounds c) (s.flatten c) := by
  intro e he
  rcases bind_eq_error_iff.1 he with hcollection | ⟨col, hcollection, hflat⟩
  · rw [collection_eq_error hcollection]
    exact flatWithinBounds_unavailable
  · have hcol := collection_eq_ok_iff.1 hcollection
    unfold flattenCollection at hflat
    rcases hstorage : col.storage with objects | slots
    · rw [hstorage] at hflat
      rcases bind_eq_error_iff.1 hflat with hrows | ⟨rows, -, hfalse⟩
      · have hkeys : ∀ k ∈ objects.toList, ∃ (i : Nat) (body : Body col.type),
            s.ListsAt c i k ∧ s.body col.type k = .ok body := by
          intro k hk
          rcases List.mem_iff_getElem?.1 hk with ⟨i, hi⟩
          rcases h.exists_body hcol hstorage hi with ⟨body, hlisted⟩
          exact ⟨i, body, hlisted⟩
        rcases flattenObjects_eq_error h hkeys hrows with rfl | ⟨_, _, rfl⟩ | ⟨⟨_, rfl⟩, hlong⟩
        · exact flatWithinBounds_unavailable
        · exact ⟨nofun, nofun⟩
        · refine ⟨nofun, fun _ _ => ⟨col, hcol, ?_⟩⟩
          rwa [hstorage]
      · cases hfalse
    · rw [hstorage] at hflat
      rcases bind_eq_error_iff.1 hflat with hids | ⟨ids, -, hfalse⟩
      · rcases exists_of_mapM_eq_error hids with ⟨id | k, -, hslot⟩
        · cases hslot
        · rcases havailable : s.available (some k) with e' | o
          · rw [slotId, idOf, havailable] at hslot
            cases hslot
            rw [available_eq_error havailable]
            exact flatWithinBounds_unavailable
          · rw [slotId, idOf, havailable] at hslot
            cases hslot
      · cases hfalse

/-! ## Lengths -/

/-- A relation that can be read has the length that was known before. -/
theorem relatedSize_of_related {places : List (Option ObjectKey)}
    (h : s.related t target relation = .ok places) :
    s.relatedSize t target relation = .ok places.length := by
  rcases bind_eq_ok_iff.1 h with ⟨r, hindex, h⟩
  rcases bind_eq_ok_iff.1 h with ⟨⟨k, body⟩, hbody, h⟩
  rcases bind_eq_ok_iff.1 h with ⟨ks, hlinks, hplaces⟩
  have hlength : places.length = ks.length := by
    rw [← Except.ok.inj hplaces, List.length_map]
  rw [hlength, ← count_of_links hlinks]
  refine bind_eq_ok_iff.2 ⟨r, hindex, bind_eq_ok_iff.2 ⟨⟨k, body⟩, hbody, ?_⟩⟩
  rcases body with ⟨payload, lists | windows, toOne, members⟩
  · rfl
  · rfl

/-! ## Addresses that wait -/

/-- A rebuilt object has a stored address for each of its to-one relations as long as its collection
waits for resolution. -/
def HasAddresses (s : Store) : Prop :=
  ∀ c col, s.collections.get? c = some col → ∀ id toMany toOne,
    col.origin = some ⟨id, .stored toMany toOne⟩ →
      ∀ i k (windows : Vector Window col.type.toMany.length), s.HasWindows c i k windows →
        ∀ r : Fin col.type.toOne.length, i < toOne[r].length

/-- A collection that was not known before a change was founded by it. -/
theorem Change.eq_withFounded {kind : ChangeKind} {col : Collection} (change : Change s kind s')
    (hcol : s'.collections.get? c = some col) (hc : s.collections.next ≤ c) :
    c = s.collections.next ∧ ∃ bodies, s.Founds col bodies ∧ s' = s.withFounded col bodies := by
  have hnext := Arena.lt_next_of_get? hcol
  cases change
  case found col' bodies hprepared horigin hfounds =>
    rw [withFounded_collections] at hcol
    rcases Arena.get?_insert_eq_some hcol with hold | ⟨rfl, rfl⟩
    · exact absurd (Arena.lt_next_of_get? hold) (Nat.not_lt.2 hc)
    · exact ⟨rfl, bodies, hfounds, rfl⟩
  all_goals
    refine absurd hnext (Nat.not_lt.2 ?_)
    simpa [withNewObject, withoutTarget, withReset, withAdopted, assignAllSingles_collections] using hc

/-- A collection is founded with a stored address for each of its objects. -/
theorem hasAddresses_withFounded (h : WellFormed s) {col : Collection}
    {bodies : List (Body col.type)} (hfounds : s.Founds col bodies) {id : CollectionId}
    {toMany : Vector (List ObjectId) col.type.toMany.length}
    {toOne : Vector (List ObjectId) col.type.toOne.length}
    (horigin : col.origin = some ⟨id, .stored toMany toOne⟩) {i : Nat}
    {windows : Vector Window col.type.toMany.length}
    (hwindows : (s.withFounded col bodies).HasWindows s.collections.next i k windows)
    (r : Fin col.type.toOne.length) : i < toOne[r].length := by
  rcases hwindows with ⟨body, ho, -⟩
  rcases addOwned_get?_eq_some ho with hold | ⟨j, hj, -, heq⟩
  -- nothing belonged to the collection before it was there
  · rcases h.owner k _ _ i hold rfl with ⟨col', -, hcol', -⟩
    exact absurd (Arena.lt_next_of_get? hcol') (Nat.lt_irrefl _)
  · cases heq
    cases hfounds with
    | subset => exact absurd hj (Nat.not_lt_zero j)
    | owned bodies _ _ hsingles =>
      rw [hsingles id toMany toOne horigin r, Nat.zero_add]
      exact hj

theorem HasAddresses.change {kind : ChangeKind} (h : WellFormed s) (haddresses : s.HasAddresses)
    (change : Change s kind s') : s'.HasAddresses := by
  intro c col hcol id toMany toOne horigin i k windows hwindows r
  by_cases hc : c < s.collections.next
  -- as long as it waits, a collection keeps its columns and the windows of its objects
  · have hwaits : s'.IsWaiting c := ⟨col, hcol, isUnresolved_of_stored horigin⟩
    rcases (change.hasWaited h hc).lasts hwaits with ⟨⟨old, hold, -⟩, hlasts⟩
    rcases hlasts.stands (stands_of_get? hold) with ⟨number, storage, hstands, -⟩
    rcases hstands with ⟨config, generation, prepared, hcol'⟩
    cases hcol.symm.trans hcol'
    exact haddresses c old hold id toMany toOne horigin i k windows
      ((hlasts.windows i k windows).1 hwindows) r
  · rcases change.eq_withFounded hcol (Nat.le_of_not_lt hc) with ⟨rfl, bodies, hfounds, rfl⟩
    exact hasAddresses_withFounded h hfounds horigin hwindows r

theorem Reachable.hasAddresses (h : Reachable s) : s.HasAddresses := by
  refine h.induct ?_ fun _ _ _ hwell haddresses change => haddresses.change hwell change
  intro c col hcol
  simp [Store.empty, Arena.get?] at hcol

/-! ## Every access -/

/-- What is asked of the objects of a store, or done to their relations, stays within its bounds. -/
structure InBounds (s : Store) : Prop where
  related : ∀ t target relation,
    FailsOnly (WithinBounds relation t.toMany.length) (s.related t target relation)
  relatedAs : ∀ t u target relation,
    FailsOnly (WithinBounds relation t.toMany.length) (s.relatedAs t u target relation)
  relatedSize : ∀ t target relation,
    FailsOnly (WithinBounds relation t.toMany.length) (s.relatedSize t target relation)
  single : ∀ t target relation,
    FailsOnly (WithinBounds relation t.toOne.length) (s.single t target relation)
  members : ∀ t target member,
    FailsOnly (WithinBounds member t.members.length) (s.members t target member)
  addRelated : ∀ (t : DataType) (handle : MutableHandle t) relation target,
    FailsOnly (WithinBounds relation t.toMany.length) (addRelated handle relation target s).1
  clearRelated : ∀ (t : DataType) (handle : MutableHandle t) relation,
    FailsOnly (WithinBounds relation t.toMany.length) (clearRelated handle relation s).1
  setSingle : ∀ (t : DataType) (handle : MutableHandle t) relation target,
    FailsOnly (WithinBounds relation t.toOne.length) (setSingle handle relation target s).1
  flatten : ∀ c, FailsOnly (s.FlatWithinBounds c) (s.flatten c)
  lengths : ∀ t target relation places, s.related t target relation = .ok places →
    s.relatedSize t target relation = .ok places.length
  /-- The windows of an object that was not released fit the columns of its owner. -/
  windows : ∀ k o windows, s.objects.get? k = some o → o.body.toMany = .windows windows →
    o.tracking = .released ∨ s.WindowsFit o windows
  /-- The position of a rebuilt object is one of the addresses that wait for resolution. -/
  addresses : s.HasAddresses

/-- No access leaves its bounds, in whatever way the store was reached. -/
theorem inBounds_of_reachable (h : Reachable s) : InBounds s where
  related _ _ _ := related_withinBounds h.wellFormed
  relatedAs _ u _ _ := relatedAs_withinBounds h.wellFormed u
  relatedSize _ _ _ := relatedSize_withinBounds
  single _ _ _ := single_withinBounds
  members _ _ _ := members_withinBounds
  addRelated _ := addRelated_withinBounds h.wellFormed
  clearRelated _ := clearRelated_withinBounds h.wellFormed
  setSingle _ := setSingle_withinBounds
  flatten := flatten_withinBounds h.wellFormed
  lengths _ _ _ _ := relatedSize_of_related
  windows := h.wellFormed.windows
  addresses := h.hasAddresses

/-- The mesh with windows that overlap and leave elements out. -/
def unevenBuffers : Buffers :=
  { meshBuffers with
    records := .encode meshType.record
      [((5 : UInt8), #v[⟨1, 3⟩, ⟨0, 2⟩]), ((6 : UInt8), #v[⟨2, 3⟩, ⟨1, 2⟩])] }

/-- The uneven mesh waits for resolution, and a third object has joined it. -/
def unevenStore : Store :=
  (create meshType 0 (9 : UInt8)
    (rebuild meshType unevenBuffers ⟨7⟩ { verify := false } .empty).2).2

theorem inBounds_unevenStore :
    InBounds unevenStore ∧
      unevenStore.related meshType (some 0) 0 = .error (.unresolvedReferences "Mesh" ⟨7⟩) ∧
      unevenStore.relatedSize meshType (some 0) 0 = .ok 2 ∧
      (unevenStore.flatten 0).isOk = true ∧
      (setReferences meshResolver 0 unevenStore).2.related meshType (some 0) 0 =
        .ok [some 1, some 0] := by
  have hrebuilt : Reachable (rebuild meshType unevenBuffers ⟨7⟩ { verify := false } .empty).2 :=
    Reachable.empty.step (.rebuild meshType unevenBuffers ⟨7⟩ { verify := false })
  have hcreated : Reachable unevenStore :=
    hrebuilt.step (.create meshType 0 (9 : UInt8) (by decide +kernel))
  exact ⟨inBounds_of_reachable hcreated, by decide +kernel⟩

end Store
end EventModel
