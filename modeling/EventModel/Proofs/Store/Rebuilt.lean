import EventModel.Proofs.Results
import EventModel.Proofs.Store.Change

/-!
# What a collection is rebuilt to

`rebuild` either fails and changes nothing or adds one collection under the next key, together with
an object for each record.
-/

namespace EventModel

theorem Window.checked_eq_ok_iff {w : Window} {n : Nat} {bounds : Nat × Nat} :
    w.checked n = .ok bounds ↔ w.Fits n ∧ bounds = (w.start.toNat, w.stop.toNat) := by
  unfold Window.checked Window.Fits
  dsimp only
  split
  · constructor
    · intro h
      cases h
    · rintro ⟨hfits, -⟩
      omega
  · rw [Except.ok.injEq, eq_comm]
    constructor
    · intro h
      exact ⟨by omega, h⟩
    · exact And.right

variable {t : DataType} {b : Buffers}

theorem Buffers.relationIds_eq_ok_iff {i : Nat} {ids : List ObjectId} :
    b.relationIds i = .ok ids ↔
      ∃ raw, b.relations[i]? = some raw ∧ raw.decode .objectId = .ok ids := by
  unfold Buffers.relationIds
  rcases b.relations[i]? with _ | raw
  · simp
  · simp

namespace Contents

variable {c : Contents t}

/-- The columns of the buffers hold the contents, with an address for each record in every to-one
column. -/
structure IsRead (b : Buffers) (c : Contents t) : Prop where
  relationColumns : b.relations.length = t.relationColumns
  memberColumns : b.members.length = t.members.length
  records : Record.decodeAll t b.records = .ok c.records
  toMany : ∀ r : Fin t.toMany.length, b.relationIds r = .ok c.toMany[r]
  toOne : ∀ r : Fin t.toOne.length, b.relationIds (t.toMany.length + r) = .ok c.toOne[r]
  members : ∀ m : Fin t.members.length,
    ∃ raw, b.members[m.val]? = some raw ∧ raw.decode t.element = .ok c.members[m]
  singles : ∀ r : Fin t.toOne.length, c.toOne[r].length = c.records.length

theorem isRead_of_decode {hrelations : b.relations.length = t.relationColumns}
    {hmembers : b.members.length = t.members.length}
    (h : Contents.decode t b hrelations hmembers = .ok c) : c.IsRead b := by
  rcases bind_eq_ok_iff.1 h with ⟨records, hrecords, h⟩
  rcases bind_eq_ok_iff.1 h with ⟨toMany, htoMany, h⟩
  rcases bind_eq_ok_iff.1 h with ⟨toOne, htoOne, h⟩
  split at h
  · cases h
  · rename_i hsingles
    rcases bind_eq_ok_iff.1 h with ⟨members, hmembers', h⟩
    cases h
    refine ⟨hrelations, hmembers, hrecords, ?toMany, ?toOne, ?members, ?singles⟩
    case toMany =>
      intro r
      exact Buffers.relationIds_eq_ok_iff.2 ⟨_, List.getElem?_eq_getElem _, tryOfFn_apply htoMany r⟩
    case toOne =>
      intro r
      exact Buffers.relationIds_eq_ok_iff.2 ⟨_, List.getElem?_eq_getElem _, tryOfFn_apply htoOne r⟩
    case members =>
      intro m
      exact ⟨_, List.getElem?_eq_getElem _, tryOfFn_apply hmembers' m⟩
    -- contents with another number of addresses were refused
    case singles =>
      intro r
      have hlength := List.find?_eq_none.1 hsingles toOne[r] (by simp)
      simpa using hlength

/-- A body that was read has windows into the columns it was read with, and no links. -/
theorem body_isRebuilt {r : Record t} {body : Body t}
    (h : c.body r = .ok body) : body.IsRebuilt (.stored c.toMany c.toOne) := by
  obtain ⟨bounds, hbounds, h⟩ := bind_eq_ok_iff.1 h
  obtain ⟨members, -, h⟩ := bind_eq_ok_iff.1 h
  cases h
  refine ⟨⟨_, rfl, fun i => ?_⟩, rfl⟩
  obtain ⟨hfits, -⟩ := Window.checked_eq_ok_iff.1 (tryOfFn_apply hbounds i)
  simpa [Columns.length] using hfits

end Contents

namespace Store

variable {s : Store} {id : CollectionId} {config : Config}

/-- The checks that the buffers of a normal collection pass. -/
theorem decodeOwned_eq_ok_iff {contents : Contents t} {bodies : List (Body t)} :
    decodeOwned t b config = .ok (contents, bodies) ↔
      ∃ (hrelations : b.relations.length = t.relationColumns)
        (hmembers : b.members.length = t.members.length),
        Contents.decode t b hrelations hmembers = .ok contents ∧
        (config.verify = true → contents.verify = .ok ()) ∧
        contents.records.mapM contents.body = .ok bodies := by
  unfold decodeOwned
  by_cases hrelations : b.relations.length = t.relationColumns
  · by_cases hmembers : b.members.length = t.members.length
    · simp only [hrelations, hmembers, ↓reduceDIte, exists_true_left]
      rw [bind_eq_ok_iff]
      constructor
      · rintro ⟨contents', hcontents, h⟩
        have hpair : ∀ {x : Except Error (Contents t × List (Body t))},
            x = (contents'.records.mapM contents'.body >>= fun bodies =>
              pure (contents', bodies)) → x = .ok (contents, bodies) →
            contents' = contents ∧ contents'.records.mapM contents'.body = .ok bodies := by
          rintro x rfl h
          obtain ⟨bodies', hbodies, h⟩ := bind_eq_ok_iff.1 h
          cases h
          exact ⟨rfl, hbodies⟩
        -- windows are verified only if the configuration asks for it
        rcases hverify : config.verify
        · rw [hverify] at h
          obtain ⟨rfl, hbodies⟩ := hpair rfl h
          exact ⟨hcontents, by simp, hbodies⟩
        · rw [hverify] at h
          obtain ⟨⟨⟩, hverified, h⟩ := bind_eq_ok_iff.1 h
          obtain ⟨rfl, hbodies⟩ := hpair rfl h
          exact ⟨hcontents, fun _ => hverified, hbodies⟩
      · rintro ⟨hcontents, hverified, hbodies⟩
        refine ⟨contents, hcontents, ?_⟩
        rcases hverify : config.verify
        · simp only [Bool.false_eq_true, ↓reduceIte]
          exact bind_eq_ok_iff.2 ⟨bodies, hbodies, rfl⟩
        · simp only [↓reduceIte]
          exact bind_eq_ok_iff.2 ⟨(), hverified hverify, bind_eq_ok_iff.2 ⟨bodies, hbodies, rfl⟩⟩
    · simp [hrelations, hmembers]
  · simp [hrelations]

/-- A collection as it is when it was rebuilt: it keeps the columns and waits for resolution. -/
abbrev rebuilt (t : DataType) (config : Config) (id : CollectionId) (storage : Storage)
    (columns : Columns t) : Collection :=
  { type := t
    id
    config
    storage
    generation := 0
    prepared := none
    origin := some ⟨id, columns⟩ }

/-- The rebuilt form of a subset collection. -/
abbrev rebuiltSubset (t : DataType) (config : Config) (id : CollectionId) (ids : List ObjectId) :
    Collection :=
  rebuilt t config id (.subset (ids.map Slot.pending).toArray)
    (.stored (Vector.replicate _ []) (Vector.replicate _ []))

/-- The rebuilt form of a normal collection of `n` objects with the keys from `first` on. -/
abbrev rebuiltOwned (config : Config) (id : CollectionId) (first n : Nat) (contents : Contents t) :
    Collection :=
  rebuilt t config id (.owned ((List.range n).map (first + ·)).toArray)
    (.stored contents.toMany contents.toOne)

theorem rebuild_apply_subset {ids : List ObjectId} (htype : b.expectType t = .ok ())
    (hsubset : b.subset = true) (hids : decodeSubset t b = .ok ids) :
    rebuild t b id config s =
      (.ok s.collections.next, s.withFounded (rebuiltSubset t config id ids) []) := by
  rw [rebuild, bind_apply, ask_apply, htype]
  dsimp only
  rw [if_pos hsubset, bind_apply, ask_apply, hids, hsubset]
  rfl

theorem rebuild_apply_owned {contents : Contents t} {bodies : List (Body t)}
    (htype : b.expectType t = .ok ()) (hsubset : b.subset = false)
    (hdecode : decodeOwned t b config = .ok (contents, bodies)) :
    rebuild t b id config s = (.ok s.collections.next,
      s.withFounded (rebuiltOwned config id s.objects.next bodies.length contents) bodies) := by
  rw [rebuild, bind_apply, ask_apply, htype]
  dsimp only
  rw [hsubset, if_neg Bool.false_ne_true, bind_apply, ask_apply, hdecode]
  rfl

/-- A rebuild fails and changes nothing, or its buffers pass every check. -/
theorem rebuild_cases (t : DataType) (b : Buffers) (id : CollectionId) (config : Config)
    (s : Store) :
    (∃ e, rebuild t b id config s = (.error e, s)) ∨
    b.expectType t = .ok () ∧
      ((∃ ids, b.subset = true ∧ decodeSubset t b = .ok ids) ∨
        ∃ contents bodies, b.subset = false ∧
          decodeOwned t b config = .ok (contents, bodies)) := by
  rw [rebuild, bind_apply, ask_apply]
  rcases b.expectType t with e | ⟨⟩
  · exact .inl ⟨e, rfl⟩
  · dsimp only
    rcases hsubset : b.subset
    · rw [if_neg Bool.false_ne_true, bind_apply, ask_apply]
      rcases decodeOwned t b config with e | ⟨contents, bodies⟩
      · exact .inl ⟨e, rfl⟩
      · exact .inr ⟨rfl, .inr ⟨contents, bodies, rfl, rfl⟩⟩
    · rw [if_pos rfl, bind_apply, ask_apply]
      rcases decodeSubset t b with e | ids
      · exact .inl ⟨e, rfl⟩
      · exact .inr ⟨rfl, .inl ⟨ids, rfl, rfl⟩⟩

theorem founds_rebuiltSubset (ids : List ObjectId) :
    s.Founds (rebuiltSubset t config id ids) [] :=
  .subset ids rfl

theorem founds_rebuiltOwned {contents : Contents t} {bodies : List (Body t)}
    (hdecode : decodeOwned t b config = .ok (contents, bodies)) :
    s.Founds (rebuiltOwned config id s.objects.next bodies.length contents) bodies := by
  obtain ⟨hrelations, hmembers, hcontents, -, hbodies⟩ := decodeOwned_eq_ok_iff.1 hdecode
  refine @Founds.owned s (rebuiltOwned config id s.objects.next bodies.length contents) bodies rfl
    (fun body hbody => ⟨⟨id, .stored contents.toMany contents.toOne⟩, rfl, ?_⟩) ?_
  · obtain ⟨record, -, hrecord⟩ := exists_of_mapM_eq_ok hbodies hbody
    exact Contents.body_isRebuilt hrecord
  · rintro id' toMany toOne ⟨⟩ r
    rw [(Contents.isRead_of_decode hcontents).singles r, length_of_mapM_eq_ok hbodies]

end Store
end EventModel
