import EventModel.Proofs.Store.Filled
import EventModel.Proofs.Store.Verified

/-!
# Collections that are written as they were read

A collection that was rebuilt from verified buffers is flattened to these buffers again
(`flatten_of_rebuild`): before resolution from the stored addresses, and after resolution from the
links that the resolver found for them. Both ways give the same rows, and windows that tile the
columns are the windows that flattening computes.
-/

namespace EventModel

theorem Window.ofExtent_of_bounds {w : Window} {start count : Nat} (hstart : w.start.toNat = start)
    (hstop : w.stop.toNat = start + count) : Window.ofExtent start count = .ok w := by
  have hlimit : w.stop.toNat < columnLimit := w.stop.toNat_lt
  rw [hstop] at hlimit
  refine Window.ofExtent_eq_ok_iff.2 ⟨hlimit, ?_⟩
  rw [← hstop, ← hstart, UInt32.ofNat_toNat, UInt32.ofNat_toNat]

/-- An address that is a position is the address of that position. -/
theorem ObjectId.ofPosition_of_position? {id : ObjectId} {i : Nat} (h : id.position? = some i) :
    ObjectId.ofPosition i id.collection = id := by
  unfold ObjectId.position? at h
  split at h
  · cases h
  · rename_i hnonneg
    cases h
    have hlt := id.index.toInt_lt
    have hposition : id.index.toInt.toNat < 2 ^ 63 := by omega
    have hindex : Int64.ofNat id.index.toInt.toNat = id.index := by
      refine Int64.toInt_inj.1 ?_
      rw [Int64.toInt_ofNat_of_lt hposition]
      omega
    rw [ObjectId.ofPosition, if_pos hposition, hindex]

namespace Store

variable {s s' s₁ s₂ : Store} {t : DataType} {c : CollectionKey} {id : CollectionId}
  {b : Buffers} {resolver : Resolver}

/-! ## Rows that are written -/

section Rows

variable {origin : Option (Origin t)} {extents : Extents t} {position : Nat}
  {keys : List ObjectKey} {rows : List (Row t)}

/-- The object has the parts of a row, wherever the windows of the row lie. -/
structure Writes (s : Store) (origin : Option (Origin t)) (position : Nat) (k : ObjectKey)
    (body : Body t) (row : Row t) : Prop where
  read : s.body t k = .ok body
  payload : Record.payload row.record = body.payload
  members : row.members = body.members
  toMany : ∀ r : Fin t.toMany.length, s.relatedIds k body r = .ok row.toMany[r]
  tracked : ∀ r : Fin t.toMany.length, ∀ id ∈ row.toMany[r], id.isUntracked = false
  toOne : ∀ r : Fin t.toOne.length, s.singleId origin position body r = .ok row.toOne[r]

/-- Rows that tile the columns are written with the windows that they have. -/
theorem flattensAll_of_writes
    (hrelations : ∀ r : Fin t.toMany.length, Tiles extents.toMany[r] (relationEntries rows r))
    (hmembers : ∀ m : Fin t.members.length, Tiles extents.members[m] (memberEntries rows m))
    (hlength : keys.length = rows.length)
    (hobjects : ∀ (i : Nat) k row, keys[i]? = some k → rows[i]? = some row →
      ∃ body, s.Writes origin (position + i) k body row) :
    s.FlattensAll origin extents position keys rows := by
  -- on the rows that are left; each window starts where the extents are
  induction rows generalizing extents position keys with
  | nil =>
    rw [List.eq_nil_of_length_eq_zero hlength]
    exact .nil extents position
  | cons row rows ih =>
    rcases List.exists_cons_of_length_eq_add_one hlength with ⟨k, keys, rfl⟩
    rcases hobjects 0 k row rfl rfl with ⟨body, hbody⟩
    have hmembersEq := hbody.members
    refine .cons ⟨hbody.read, hbody.payload, hbody.members, hbody.toMany, hbody.tracked, ?_, ?_,
      hbody.toOne⟩ (ih ?_ ?_ (Nat.succ.inj hlength) ?_)
    · intro r
      cases hrelations r with
      | cons hstart hstop _ => exact Window.ofExtent_of_bounds hstart hstop
    · intro m
      rw [← hmembersEq]
      cases hmembers m with
      | cons hstart hstop _ => exact Window.ofExtent_of_bounds hstart hstop
    · intro r
      cases hrelations r with
      | cons _ _ hrest =>
        rw [extents.getElem_toMany_add]
        exact hrest
    · intro m
      cases hmembers m with
      | cons _ _ hrest =>
        rw [extents.getElem_members_add]
        exact hrest
    · intro i k' row' hk' hrow'
      have hposition : position + 1 + i = position + (i + 1) := by omega
      rw [hposition]
      exact hobjects (i + 1) k' row' hk' hrow'

theorem flattensAll_of_rowsTile (htiles : RowsTile rows) (hlength : keys.length = rows.length)
    (hobjects : ∀ (i : Nat) k row, keys[i]? = some k → rows[i]? = some row →
      ∃ body, s.Writes origin i k body row) :
    s.FlattensAll origin (.zero t) 0 keys rows := by
  refine flattensAll_of_writes ?_ ?_ hlength ?_
  · intro r
    simpa [Extents.zero] using htiles.relations r
  · intro m
    simpa [Extents.zero] using htiles.members m
  · intro i k row hk hrow
    rw [Nat.zero_add]
    exact hobjects i k row hk hrow

end Rows

/-! ## Before resolution -/

/-- A collection that waits is flattened from the addresses that it keeps. -/
theorem Waits.hasFlat {rows : List (Row t)} (hwaits : s.Waits c t id (.owned rows))
    (htracked : ∀ r : Fin t.toMany.length, ∀ row ∈ rows, ∀ id ∈ row.toMany[r],
      id.isUntracked = false) : s.HasFlat c t id (.owned rows) := by
  cases hwaits with
  | @owned keys _ origin hstands howns htiles =>
    refine .owned hstands (flattensAll_of_rowsTile htiles
      (howns.length.trans (List.length_map _)) ?_)
    intro i k row hk hrow
    have hmem := List.mem_of_getElem? hrow
    have hbody : (rows.map Row.body)[i]? = some row.body := by
      rw [List.getElem?_map, hrow]
      rfl
    have hobject := howns.objects i k row.body hk hbody
    have horigin := hstands.originOf hobject
    refine ⟨row.body, body_eq_ok_iff.2 ⟨_, hobject, by simp⟩, rfl, rfl, ?_, ?_, ?_⟩
    · intro r
      have hwindow : (Vector.ofFn (Contents.relationWindow row.record))[r] =
          Contents.relationWindow row.record r := by simp
      refine bind_eq_ok_iff.2 ⟨_, horigin, ?_⟩
      dsimp only
      rw [hwindow]
      exact Contents.slice_contentsOfRows htiles hmem r
    · intro r id' hid'
      exact htracked r row hmem id' hid'
    · intro r
      have hplace : row.body.toOne[r] = none := by simp [Row.body]
      have hstored : (contentsOfRows rows).toOne[r][i]? = some row.toOne[r] := by
        simp [contentsOfRows, hrow]
      simp only [singleId, hplace, waitingId, hstored]
      rfl

/-! ## After resolution -/

/-- The resolver finds normal collections only, each under its own number. -/
def FindsNormal (s : Store) (resolver : Resolver) : Prop :=
  ∀ number d, resolver number = some d →
    ∃ col, s.collections.get? d = some col ∧ col.id = number ∧ col.isSubset = false

/-- The link that a resolver found for an address is stored as this address. -/
theorem FindsNormal.linkId (hfinds : s.FindsNormal resolver) (h : WellFormed s) {type : String}
    {id : ObjectId} {k : ObjectKey} (hk : s.Resolves resolver type id k) : s.linkId k = .ok id := by
  rcases resolveObject_eq_ok_iff.1 hk.object with ⟨d, col, i, hresolver, hcol, hposition, hplace⟩
  rcases hfinds id.collection d hresolver with ⟨col', hcol', hnumber, hnormal⟩
  obtain rfl : col = col' := Option.some.inj (hcol.symm.trans hcol')
  rcases owned_of_objectAtPosition h hcol hnormal hplace with ⟨o, ho, htracking⟩
  rw [linkId_of_owned ho htracking, addressOf_of_owned htracking hcol, hnumber,
    ObjectId.ofPosition_of_position? hposition]

/-- A collection that was resolved is flattened from its links, if every link has the address that
it was resolved from. -/
theorem Restored.hasFlat_of_stores {flat : Flat t} (hrestored : s.Restored resolver c t id flat)
    (htiled : flat.IsTiled) (hcanonical : flat.IsCanonical)
    (hback : ∀ a, flat.Stores a → ∀ type k, s.Resolves resolver type a k → s.linkId k = .ok a) :
    s.HasFlat c t id flat := by
  cases hrestored with
  | owned hstands hlength hobjects =>
    refine .owned hstands (flattensAll_of_rowsTile htiled hlength ?_)
    intro i k row hk hrow
    have hmem := List.mem_of_getElem? hrow
    rcases hobjects i k row hk hrow with ⟨body, hobject, hrestores⟩
    refine ⟨body, body_eq_ok_iff.2 ⟨_, hobject, by simp⟩, hrestores.payload.symm,
      hrestores.members.symm, ?_, ?_, ?_⟩
    · intro r
      rcases hrestores.toMany r with ⟨ks, hks, hresolves⟩
      rw [relatedIds_of_links hks, mapM_eq_ok_iff]
      have hstored := (List.forall₂_and_left row.toMany[r] ks).2
        ⟨fun a ha => Flat.Stores.toMany hmem r ha, hresolves⟩
      exact hstored.flip.imp fun _ a hk => hback a hk.1 _ _ hk.2
    · intro r id' hid'
      rcases hrestores.toMany r with ⟨ks, -, hresolves⟩
      rcases exists_right_of_forall₂ hresolves hid' with ⟨k', -, hk'⟩
      exact hk'.tracked
    · intro r
      rcases hrestores.toOne r with ⟨huntracked, hplace⟩ | ⟨k', hplace, hk'⟩
      · simp only [singleId, hplace, waitingId]
        -- an address that is untracked is not restored, and is written in its canonical form
        exact congrArg Except.ok (hcanonical r row hmem huntracked).symm
      · exact (singleId_eq_ok_of_some hplace).2 ⟨hback _ (.toOne hmem r) _ _ hk', hk'.tracked⟩
  | @subset ids ks origin hstands hslots hother =>
    refine .subset hstands (List.forall₂_map_left_iff.2 ?_)
    have hstored : List.Forall₂ (fun a k => (Flat.subset ids : Flat t).Stores a ∧
        s.ResolvesSlot resolver t a k) ids ks :=
      (List.forall₂_and_left ids ks).2 ⟨fun a ha => .place ha, hslots⟩
    exact hstored.flip.imp fun _ a hk => linkId_eq_ok (hback a hk.1 _ _ hk.2.1)

/-- A normal collection that was resolved to normal collections is flattened from its links. -/
theorem Restored.hasFlat {rows : List (Row t)} (h : WellFormed s)
    (hrestored : s.Restored resolver c t id (.owned rows)) (htiles : RowsTile rows)
    (hfinds : s.FindsNormal resolver)
    (hcanonical : ∀ r : Fin t.toOne.length, ∀ row ∈ rows, row.toOne[r].isUntracked = true →
      row.toOne[r] = .untracked) : s.HasFlat c t id (.owned rows) :=
  hrestored.hasFlat_of_stores htiles hcanonical fun _ _ _ _ hk => hfinds.linkId h hk

/-- Resolution leaves the collections that the resolver finds normal and under their numbers. -/
theorem FindsNormal.settlesWithin (hfinds : s.FindsNormal resolver)
    (hwithin : SettlesWithin s s' [c]) {objects : Array ObjectKey} {origin : Option (Origin t)}
    (hstands : s'.Stands c t id (.owned objects) origin) : s'.FindsNormal resolver := by
  intro number d hd
  rcases hfinds number d hd with ⟨col, hcol, hnumber, hnormal⟩
  by_cases hdc : d = c
  · subst hdc
    rcases hwithin.settles.numbers d col hcol with ⟨col', hcol', hid⟩
    rcases hstands.collection with ⟨col'', hcol'', -, -, hstorage⟩
    obtain rfl : col' = col'' := Option.some.inj (hcol'.symm.trans hcol'')
    refine ⟨col', hcol', hid.trans hnumber, ?_⟩
    rw [Collection.isSubset, hstorage]
    rfl
  · rcases (hwithin.steady d col (by simpa using hdc) hcol).collection
      with ⟨col₁, col', hcol₁, hcol', heq⟩
    obtain rfl : col = col₁ := Option.some.inj (hcol.symm.trans hcol₁)
    refine ⟨col', hcol', ?_, ?_⟩
    · rw [heq, hnumber]
    · rw [heq]
      exact hnormal

/-! ## What was read is written back -/

/-- The collection holds the same objects and columns in both stores. Its number may have changed,
and so may the buffers that were prepared for it. -/
structure SameContents (s s' : Store) (c : CollectionKey) : Prop where
  collection : ∀ {t id storage} {origin : Option (Origin t)}, s.Stands c t id storage origin →
    ∃ id', s'.Stands c t id' storage origin
  objects : ∀ k o i, s.objects.get? k = some o → o.tracking = .owned c i →
    s'.objects.get? k = some o

theorem SameContents.refl (s : Store) (c : CollectionKey) : SameContents s s c :=
  ⟨fun hstands => ⟨_, hstands⟩, fun _ _ _ ho _ => ho⟩

theorem Waits.sameContents {flat : Flat t} (hwaits : s.Waits c t id flat)
    (hsame : SameContents s s' c) : ∃ id', s'.Waits c t id' flat := by
  cases hwaits with
  | owned hstands howns htiles =>
    rcases hsame.collection hstands with ⟨id', hstands'⟩
    refine ⟨id', .owned hstands' ⟨howns.length, ?_⟩ htiles⟩
    intro i k body hk hbody
    exact hsame.objects k _ i (howns.objects i k body hk hbody) rfl
  | subset hpending =>
    rcases hsame.collection hpending with ⟨id', hstands'⟩
    exact ⟨id', .subset hstands'⟩

/-- Verified buffers are rebuilt to a collection that waits with their rows. -/
theorem exists_waits_of_rebuild {config : Config} (hexact : t.IsExact) (hsubset : b.subset = false)
    (hverify : config.verify = true) (hrun : rebuild t b id config s = (.ok c, s')) :
    ∃ rows : List (Row t), b = buffersOfRows t rows ∧ RowsTile rows ∧
      s'.Waits c t id (.owned rows) := by
  rcases rebuild_cases t b id config s with ⟨e, herror⟩ | ⟨htype, hbuffers⟩
  · rw [herror] at hrun
    cases hrun
  · rcases hbuffers with ⟨ids, hsubset', -⟩ | ⟨contents, bodies, -, hdecode⟩
    · rw [hsubset] at hsubset'
      cases hsubset'
    · have hname : b.type = t.name := by
        unfold Buffers.expectType at htype
        split at htype
        · assumption
        · cases htype
      rcases exists_rows_of_decodeOwned hexact hname hsubset hverify hdecode with ⟨rows, htiles, rfl⟩
      have htiled : (Flat.owned rows).IsTiled := htiles
      have hholds : (buffersOfRows t rows).Holds t config (Flat.owned rows).stored :=
        Flat.holds htiled config
      rcases exists_rebuild htype hholds id s with ⟨s'', hrun', hpends, -, -⟩
      cases hrun'.symm.trans hrun
      exact ⟨rows, rfl, htiles, Pends.waits hpends htiled⟩

/-- A collection that was rebuilt from verified buffers is flattened to these buffers as long as it
waits for resolution, and again once it was resolved: even if it got another number meanwhile, and
whatever happened to other collections. Its to-many relations hold no untracked address, the
resolver finds normal collections under their numbers, and an unset to-one relation has the one
address that stands for that. -/
theorem flatten_of_rebuild {config : Config} (hexact : t.IsExact) (hsubset : b.subset = false)
    (hverify : config.verify = true) (hrun : rebuild t b id config s = (.ok c, s₁))
    (htracked : ∀ r : Fin t.toMany.length, ∀ ids, b.relationIds r = .ok ids →
      ∀ id ∈ ids, id.isUntracked = false)
    (hreachable : Reachable s₂) (hsame : SameContents s₁ s₂ c) :
    s₂.flatten c = .ok b ∧
      ((∀ r : Fin t.toOne.length, ∀ ids, b.relationIds (t.toMany.length + r) = .ok ids →
          ∀ id ∈ ids, id.isUntracked = true → id = .untracked) →
        ∀ resolver s', s₂.FindsNormal resolver → setReferences resolver c s₂ = (.ok (), s') →
          s'.flatten c = .ok b) := by
  rcases exists_waits_of_rebuild hexact hsubset hverify hrun with ⟨rows, rfl, htiles, hwaits⟩
  rcases hwaits.sameContents hsame with ⟨number, hwaits₂⟩
  have hread := Contents.isRead_of_decode (decode_buffersOfRows rows)
  refine ⟨(hwaits₂.hasFlat ?_).flatten, ?_⟩
  · intro r row hrow id hid
    refine htracked r _ (hread.toMany r) id ?_
    simpa [contentsOfRows] using ⟨row, hrow, hid⟩
  · intro hcanonical resolver s' hfinds hresolve
    have hwell := hreachable.wellFormed
    rcases hwaits₂.setReferences hwell hresolve with ⟨hrestored, hwithin⟩
    have hfinds' : s'.FindsNormal resolver := by
      cases hrestored with
      | owned hstands _ _ => exact hfinds.settlesWithin hwithin hstands
    refine (hrestored.hasFlat (wellFormed_setReferences hwell hresolve) htiles hfinds' ?_).flatten
    intro r row hrow huntracked
    refine hcanonical r _ (hread.toOne r) _ ?_ huntracked
    simpa [contentsOfRows] using ⟨row, hrow, rfl⟩

/-- Objects with links of both kinds and members without bytes. -/
def meshType : DataType where
  name := "Mesh"
  payload := .u8
  element := .unit
  toMany := [⟨"near", "Mesh"⟩]
  toOne := [⟨"up", "Mesh"⟩]
  members := ["marks"]

/-- Two objects that lead to themselves and to each other; only the second one has marks, and its
to-one relation is not set. -/
def meshBuffers : Buffers where
  type := "Mesh"
  subset := false
  records := .encode meshType.record
    [((5 : UInt8), #v[⟨0, 2⟩, ⟨0, 0⟩]), ((6 : UInt8), #v[⟨2, 3⟩, ⟨0, 3⟩])]
  relations := [.encode .objectId [⟨0, ⟨7⟩⟩, ⟨1, ⟨7⟩⟩, ⟨0, ⟨7⟩⟩],
    .encode .objectId [⟨0, ⟨7⟩⟩, .untracked]]
  members := [.encode .unit [(), (), ()]]

/-- The store with the collection that was rebuilt. -/
def meshStore : Store :=
  (rebuild meshType meshBuffers ⟨7⟩ {} .empty).2

theorem rebuild_meshBuffers :
    rebuild meshType meshBuffers ⟨7⟩ {} .empty = (.ok 0, meshStore) := by
  have hkey : (rebuild meshType meshBuffers ⟨7⟩ {} .empty).1 = .ok 0 := by decide +kernel
  rw [meshStore, ← hkey, Prod.eta]

theorem reachable_meshStore : Reachable meshStore :=
  Reachable.empty.step (.rebuild meshType meshBuffers ⟨7⟩ {})

/-- Finds the collection that was rebuilt. -/
def meshResolver : Resolver := fun number =>
  if number = ⟨7⟩ then some 0 else none

theorem flatten_of_rebuild_meshStore :
    meshStore.flatten 0 = .ok meshBuffers ∧
      (setReferences meshResolver 0 meshStore).2.flatten 0 = .ok meshBuffers := by
  have hkey : (rebuild meshType meshBuffers ⟨7⟩ {} .empty).1 = .ok 0 := by decide +kernel
  have hrun : rebuild meshType meshBuffers ⟨7⟩ {} .empty = (.ok 0, meshStore) := by
    rw [meshStore, ← hkey, Prod.eta]
  have hmany : meshBuffers.relationIds 0 = .ok [⟨0, ⟨7⟩⟩, ⟨1, ⟨7⟩⟩, ⟨0, ⟨7⟩⟩] := by decide +kernel
  have hone : meshBuffers.relationIds 1 = .ok [⟨0, ⟨7⟩⟩, .untracked] := by decide +kernel
  have htracked : ∀ r : Fin meshType.toMany.length, ∀ ids, meshBuffers.relationIds r = .ok ids →
      ∀ id ∈ ids, id.isUntracked = false := by
    intro r ids hids
    obtain rfl := @Subsingleton.elim (Fin 1) _ r 0
    cases hids.symm.trans hmany
    decide
  have hcanonical : ∀ r : Fin meshType.toOne.length, ∀ ids,
      meshBuffers.relationIds (meshType.toMany.length + r) = .ok ids →
        ∀ id ∈ ids, id.isUntracked = true → id = .untracked := by
    intro r ids hids
    obtain rfl := @Subsingleton.elim (Fin 1) _ r 0
    cases hids.symm.trans hone
    decide
  have hreachable : Reachable meshStore := Reachable.empty.step (.rebuild meshType _ _ {})
  have hfinds : meshStore.FindsNormal meshResolver := by
    intro number d hd
    unfold meshResolver at hd
    split at hd
    · rename_i hnumber
      cases hd
      have hcol : (meshStore.collections.get? 0).map (fun col => (col.id, col.isSubset)) =
          some (⟨7⟩, false) := by decide +kernel
      rcases Option.map_eq_some_iff.1 hcol with ⟨col, hget, heq⟩
      rcases Prod.ext_iff.1 heq with ⟨hid, hnormal⟩
      exact ⟨col, hget, hid.trans hnumber.symm, hnormal⟩
    · cases hd
  have hresolved : (setReferences meshResolver 0 meshStore).1 = .ok () := by decide +kernel
  have hresolve : setReferences meshResolver 0 meshStore =
      (.ok (), (setReferences meshResolver 0 meshStore).2) := by
    rw [← hresolved, Prod.eta]
  have hboth := flatten_of_rebuild ⟨by decide, by decide⟩ rfl rfl hrun htracked hreachable
    (.refl meshStore 0)
  exact ⟨hboth.1, hboth.2 hcanonical meshResolver _ hfinds hresolve⟩

end Store

end EventModel
