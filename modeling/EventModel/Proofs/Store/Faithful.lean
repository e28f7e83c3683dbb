import EventModel.Proofs.Store.Target

/-!
# Faithful frames

A frame is faithful if its numbers lead every stored address back to the object that the address
was stored for. Every link of a faithful frame leads to the counterpart of its target when the
frame is read back, and a frame that is not faithful has a link that does not.
-/

namespace EventModel.Store

variable {s s' : Store} {frame frame' : Frame} {entries : List FlatCollection}

/-- Both places are empty, or they have counterparts. -/
inductive Corresponds (s s' : Store) (frame frame' : Frame) :
    Option ObjectKey → Option ObjectKey → Prop
  | empty : Corresponds s s' frame frame' none none
  | counterparts {k k' : ObjectKey} (h : Counterpart s s' frame frame' k k') :
      Corresponds s s' frame frame' (some k) (some k')

/-- The link leads to the object at a position of a collection of the frame. -/
def LeadsTo (s : Store) (frame : Frame) (name : String) (path : LinkPath) (name' : String)
    (i : Nat) : Prop :=
  ∃ k, s.targetIn frame name path = some k ∧ s.objectIn frame name' i = some k

theorem targetIn_toMany (name : String) (i r p : Nat) :
    s.targetIn frame name (.toMany i r p) =
      (s.objectIn frame name i).bind (s.relatedAt · r p) := rfl

theorem targetIn_toOne (name : String) (i r : Nat) :
    s.targetIn frame name (.toOne i r) = (s.objectIn frame name i).bind (s.singleAt · r) := rfl

theorem targetIn_place {name : String} {c : CollectionKey} {col : Collection}
    (hname : frame.collection? name = some c) (hcol : s.collections.get? c = some col) (i : Nat) :
    s.targetIn frame name (.place i) = if col.isSubset then s.objectIn frame name i else none := by
  unfold targetIn objectIn collectionIn
  rw [hname, Option.bind_some, hcol]
  rfl

theorem Corresponds.bind {x x' : Option ObjectKey} (h : Corresponds s s' frame frame' x x')
    {g g' : ObjectKey → Option ObjectKey}
    (hg : ∀ k k', Counterpart s s' frame frame' k k' →
      Corresponds s s' frame frame' (g k) (g' k')) :
    Corresponds s s' frame frame' (x.bind g) (x'.bind g') := by
  cases h with
  | empty => exact .empty
  | counterparts hk => exact hg _ _ hk

theorem Corresponds.exists_left {x : Option ObjectKey} {k' : ObjectKey}
    (h : Corresponds s s' frame frame' x (some k')) :
    ∃ k, x = some k ∧ Counterpart s s' frame frame' k k' := by
  cases h with
  | counterparts hk => exact ⟨_, rfl, hk⟩

theorem Corresponds.exists_right {x' : Option ObjectKey} {k : ObjectKey}
    (h : Corresponds s s' frame frame' (some k) x') :
    ∃ k', x' = some k' ∧ Counterpart s s' frame frame' k k' := by
  cases h with
  | counterparts hk => exact ⟨_, rfl, hk⟩

/-- The collections of a pair have one type and one mode. -/
theorem Pairs.exists_collections {e : FlatCollection} {c c' : CollectionKey}
    (hpairs : Pairs s s' frame frame' e c c') : ∃ col col', s.collections.get? c = some col ∧
      s'.collections.get? c' = some col' ∧ col'.type = col.type ∧
        col'.isSubset = col.isSubset := by
  rcases hpairs with ⟨-, -, hflat, hrestored⟩
  rcases e with ⟨name, number, t, flat⟩
  dsimp only at hflat hrestored
  cases hflat with
  | owned hstands hrows =>
    rcases hstands with ⟨config, generation, prepared, hcol⟩
    cases hrestored with
    | owned hstands' hlength hobjects =>
      rcases hstands' with ⟨config', generation', prepared', hcol'⟩
      exact ⟨_, _, hcol, hcol', rfl, rfl⟩
  | subset hstands hids =>
    rcases hstands with ⟨config, generation, prepared, hcol⟩
    cases hrestored with
    | subset hstands' hslots hother =>
      rcases hstands' with ⟨config', generation', prepared', hcol'⟩
      exact ⟨_, _, hcol, hcol', rfl, rfl⟩

/-! ## Places -/

theorem toOption_objectAtPosition (col : Collection) (i : Nat) :
    (objectAtPosition col i).toOption = ((places col)[i]?).join := by
  unfold objectAtPosition places
  rcases col.storage with objects | slots
  · dsimp only
    rw [List.getElem?_map, Array.getElem?_toList]
    rcases objects[i]? with _ | k
    · rfl
    · rfl
  · dsimp only
    rw [List.getElem?_map, Array.getElem?_toList]
    rcases slots[i]? with _ | id | k
    · rfl
    · rfl
    · rfl

theorem eq_ok_of_toOption {ε α : Type} {x : Except ε α} {a : α} (h : x.toOption = some a) :
    x = .ok a := by
  rcases x with e | b
  · cases h
  · exact congrArg Except.ok (Option.some.inj h)

theorem objectIn_eq_places {name : String} {c : CollectionKey} {col : Collection}
    (hname : frame.collection? name = some c) (hcol : s.collections.get? c = some col) (i : Nat) :
    s.objectIn frame name i = ((places col)[i]?).join := by
  unfold objectIn collectionIn
  rw [hname, Option.bind_some, hcol, Option.bind_some, toOption_objectAtPosition]

theorem join_getElem?_map_some (ks : List ObjectKey) (i : Nat) :
    ((ks.map some)[i]?).join = ks[i]? := by
  rw [List.getElem?_map]
  cases ks[i]? <;> rfl

theorem getElem?_none_of_length_eq {α β : Type} {xs : List α} {ys : List β} {i : Nat}
    (h : xs.length = ys.length) (hnone : xs[i]? = none) : ys[i]? = none := by
  rw [List.getElem?_eq_none_iff] at hnone ⊢
  rwa [← h]

section Places

variable {t : DataType} {id : CollectionId} {config : Config} {generation : Nat}
  {prepared : Option Prepared} {origin : Option (Origin t)} (ks : List ObjectKey)

theorem places_owned : places ⟨t, id, config, .owned ks.toArray, generation, prepared, origin⟩ =
    ks.map some := rfl

theorem places_linked : places ⟨t, id, config, .subset (ks.map Slot.linked).toArray, generation,
    prepared, origin⟩ = ks.map some := by
  unfold places
  dsimp only
  rw [List.map_map]
  rfl

end Places

section Restored

variable {t : DataType} {c : CollectionKey} {id : CollectionId} {origin : Option (Origin t)}
  {resolver : Resolver} {name : String} {k : ObjectKey} {row : Row t} {body : Body t}

theorem Stands.objectIn_owned {keys : List ObjectKey}
    (h : s.Stands c t id (.owned keys.toArray) origin) (hname : frame.collection? name = some c)
    (i : Nat) : s.objectIn frame name i = keys[i]? := by
  rcases h with ⟨config, generation, prepared, hcol⟩
  rw [objectIn_eq_places hname hcol, places_owned, join_getElem?_map_some]

theorem Stands.objectIn_linked {ks : List ObjectKey}
    (h : s.Stands c t id (.subset (ks.map Slot.linked).toArray) origin)
    (hname : frame.collection? name = some c) (i : Nat) : s.objectIn frame name i = ks[i]? := by
  rcases h with ⟨config, generation, prepared, hcol⟩
  rw [objectIn_eq_places hname hcol, places_linked, join_getElem?_map_some]

theorem Stands.targetIn_place_of_subset {slots : Array Slot}
    (h : s.Stands c t id (.subset slots) origin) (hname : frame.collection? name = some c)
    (i : Nat) : s.targetIn frame name (.place i) = s.objectIn frame name i := by
  rcases h with ⟨config, generation, prepared, hcol⟩
  exact targetIn_place hname hcol i

/-- A restored to-many relation leads to what the addresses of the row lead to. -/
theorem Restores.exists_relatedAt (hrestores : s.Restores resolver k row body) (h : WellFormed s)
    (hbody : s.body t k = .ok body) {r p : Nat} {address : ObjectId} (hr : r < t.toMany.length)
    (haddress : row.toMany[r][p]? = some address) :
    ∃ k', s.relatedAt k r p = some k' ∧ s.resolveObject resolver address = .ok k' := by
  rcases hrestores.toMany ⟨r, hr⟩ with ⟨ks, hks, hresolves⟩
  rcases getElem?_of_forall₂ hresolves haddress with ⟨k', hposition, hk'⟩
  refine ⟨k', ?_, hk'.object⟩
  exact (relatedAt_eq_some_iff hbody).2 ⟨hr, ks, hks, hposition, hk'.existsObject h⟩

/-- A restored to-one relation leads to what the address of the row leads to. -/
theorem Restores.exists_singleAt (hrestores : s.Restores resolver k row body) (h : WellFormed s)
    (hbody : s.body t k = .ok body) {r : Nat} (hr : r < t.toOne.length)
    (htracked : row.toOne[r].isUntracked = false) :
    ∃ k', s.singleAt k r = some k' ∧ s.resolveObject resolver row.toOne[r] = .ok k' := by
  rcases hrestores.toOne ⟨r, hr⟩ with ⟨huntracked, -⟩ | ⟨k', hplace, hk'⟩
  · cases htracked.symm.trans huntracked
  · refine ⟨k', ?_, hk'.object⟩
    exact (singleAt_eq_some_iff hbody).2 ⟨hr, hplace, hk'.existsObject h⟩

/-- A link of a restored collection leads to what the address in its flat form leads to. -/
theorem Restored.exists_targetIn {flat : Flat t} (hrestored : s.Restored resolver c t id flat)
    (h : WellFormed s) (hname : frame.collection? name = some c) {path : LinkPath}
    {address : ObjectId} (haddress : flat.address? path = some address) :
    ∃ k, s.targetIn frame name path = some k ∧ s.resolveObject resolver address = .ok k := by
  cases hrestored with
  | @owned keys rows origin many hstands hlength hobjects =>
    -- the object of each row is found at the position of the row
    have hobject : ∀ i row, rows[i]? = some row → ∃ k body,
        s.objectIn frame name i = some k ∧ s.body t k = .ok body ∧
          s.Restores resolver k row body := by
      intro i row hrow
      have hlt : i < keys.length := hlength ▸ (List.getElem?_eq_some_iff.1 hrow).1
      have hkey : keys[i]? = some keys[i] := List.getElem?_eq_getElem hlt
      rcases hobjects i _ row hkey hrow with ⟨body, hbody, hrestores⟩
      exact ⟨keys[i], body, (hstands.objectIn_owned hname i).trans hkey,
        body_eq_ok_iff.2 ⟨_, hbody, by simp⟩, hrestores⟩
    cases path with
    | toMany i r p =>
      rcases Option.bind_eq_some_iff.1 haddress with ⟨row, hrow, hid⟩
      rcases Option.dite_none_right_eq_some.1 hid with ⟨hr, hid⟩
      rcases hobject i row hrow with ⟨k, body, hk, hbody, hrestores⟩
      rw [targetIn_toMany, hk]
      exact hrestores.exists_relatedAt h hbody hr hid
    | toOne i r =>
      rcases Option.bind_eq_some_iff.1 haddress with ⟨row, hrow, hid⟩
      rcases Option.dite_none_right_eq_some.1 hid with ⟨hr, hid⟩
      rcases Option.filter_eq_some_iff.1 hid with ⟨⟨⟩, htracked⟩
      rcases hobject i row hrow with ⟨k, body, hk, hbody, hrestores⟩
      rw [targetIn_toOne, hk]
      exact hrestores.exists_singleAt h hbody hr (by simpa using htracked)
    | place i => cases haddress
  -- only the places of a subset collection have addresses of their own
  | @subset ids ks origin hstands hslots hother =>
    cases path with
    | toMany i r p => cases haddress
    | toOne i r => cases haddress
    | place i =>
      rcases getElem?_of_forall₂ hslots haddress with ⟨k, hk, hresolves, -⟩
      rw [hstands.targetIn_place_of_subset hname, hstands.objectIn_linked hname]
      exact ⟨k, hk, hresolves.object⟩

end Restored

namespace Mirrors

/-! ## Objects -/

/-- What is restored for an address is what the address leads to. -/
theorem exists_targetIn (h : Mirrors s s' frame frame' entries) {name : String} {path : LinkPath}
    {id : ObjectId} (haddress : s.addressIn frame name path = some id) :
    ∃ k', s'.targetIn frame' name path = some k' ∧
      s'.resolveObject frame'.resolver id = .ok k' := by
  rcases h.name_cases name with ⟨hnone, -⟩ | ⟨c, c', hname, hname', e, -, hpairs⟩
  · rw [addressIn, collectionIn, hnone] at haddress
    cases haddress
  · rw [hpairs.addressIn_eq hname] at haddress
    exact hpairs.restored.exists_targetIn h.wellFormed' hname' haddress

/-- A link corresponds to its mirror, if addresses are stored for both or for none. -/
theorem corresponds_of_address (h : Mirrors s s' frame frame' entries)
    (hfaithful : s.IsFaithful frame) {name : String} {path : LinkPath}
    (hstored : ∀ k, s.targetIn frame name path = some k →
      ∃ id, s.addressIn frame name path = some id ∧ s.idOf (some k) = .ok id)
    (hnone : s.addressIn frame name path = none → s'.targetIn frame' name path = none) :
    Corresponds s s' frame frame' (s.targetIn frame name path) (s'.targetIn frame' name path) := by
  -- the address, if there is one, leads to both ends of the pair
  rcases haddress : s.addressIn frame name path with _ | id
  · have hempty : s.targetIn frame name path = none := by
      rcases htarget : s.targetIn frame name path with _ | k
      · rfl
      · rcases hstored k htarget with ⟨id, hid, -⟩
        cases haddress.symm.trans hid
    rw [hempty, hnone haddress]
    exact .empty
  · rcases hfaithful name path id haddress with ⟨k, htarget, hresolves⟩
    rcases hstored k htarget with ⟨id', hid', hidOf⟩
    cases haddress.symm.trans hid'
    rcases h.exists_targetIn haddress with ⟨k', htarget', hresolves'⟩
    rw [htarget, htarget']
    exact .counterparts (h.counterpart_of_resolves hidOf hresolves hresolves')

theorem objectIn_corresponds (h : Mirrors s s' frame frame' entries)
    (hfaithful : s.IsFaithful frame) (name : String) (i : Nat) :
    Corresponds s s' frame frame' (s.objectIn frame name i) (s'.objectIn frame' name i) := by
  rcases h.name_cases name with ⟨hnone, hnone'⟩ | ⟨c, c', hname, hname', e, -, hpairs⟩
  · unfold objectIn collectionIn
    rw [hnone, hnone']
    exact .empty
  · have haddress := hpairs.addressIn_eq hname (.place i)
    have hcopy := hpairs
    rcases hpairs with ⟨-, -, hflat, hrestored⟩
    rcases e with ⟨m, number, t, flat⟩
    dsimp only at hflat hrestored haddress
    cases hflat with
    | @owned keys origin rows hstands hrows =>
      cases hrestored with
      | @owned keys' _ _ _ hstands' hlength hobjects =>
        rw [hstands.objectIn_owned hname, hstands'.objectIn_owned hname']
        -- as many objects were rebuilt as there are rows
        have hlengths : keys.length = keys'.length := hrows.length_eq.trans hlength.symm
        rcases hk : keys[i]? with _ | k
        · rw [getElem?_none_of_length_eq hlengths hk]
          exact .empty
        · have hlt : i < keys'.length := hlengths ▸ (List.getElem?_eq_some_iff.1 hk).1
          have hk' : keys'[i]? = some keys'[i] := List.getElem?_eq_getElem hlt
          have hrow : i < rows.length := hlength ▸ hlt
          rcases hobjects i _ _ hk' (List.getElem?_eq_getElem hrow) with ⟨body', hbody', -⟩
          rcases hstands with ⟨config, generation, prepared, hcol⟩
          rcases h.wellFormed.listed c _ keys.toArray i k hcol rfl (by simpa using hk)
            with ⟨o, ho, -, htracking⟩
          rw [hk']
          exact .counterparts ⟨_, c, c', i, hcopy, ⟨o, ho, htracking⟩, ⟨_, hbody', rfl⟩⟩
    | @subset slots origin ids hstands hids =>
      cases hrestored with
      | @subset _ ks _ hstands' hslots hother =>
        -- a place of a subset collection is a link, and its address is stored
        rw [← hstands.targetIn_place_of_subset hname, ← hstands'.targetIn_place_of_subset hname']
        refine h.corresponds_of_address hfaithful ?_ ?_
        · intro k hk
          rw [hstands.targetIn_place_of_subset hname] at hk
          rcases hstands with ⟨config, generation, prepared, hcol⟩
          rw [objectIn_eq_places hname hcol, ← toOption_objectAtPosition] at hk
          have hslot := getElem?_of_objectAtPosition_subset (eq_ok_of_toOption hk)
          rw [haddress]
          exact getElem?_of_forall₂ hids hslot
        · intro hnone
          rw [haddress] at hnone
          rw [hstands'.targetIn_place_of_subset hname', hstands'.objectIn_linked hname']
          exact getElem?_none_of_length_eq hslots.length_eq hnone

/-! ## Relations -/

theorem addressIn_eq (h : Mirrors s s' frame frame' entries) {e : FlatCollection}
    {c c' : CollectionKey} (hpairs : Pairs s s' frame frame' e c c') (path : LinkPath) :
    s.addressIn frame e.name path = e.flat.address? path := by
  rcases h.held with ⟨f, hframe⟩
  exact hpairs.addressIn_eq
    (collection?_of_mem h.wellFormed hframe hpairs.slot) path

/-- The to-many relations of counterparts lead to counterparts. -/
theorem relatedAt_corresponds (h : Mirrors s s' frame frame' entries)
    (hfaithful : s.IsFaithful frame) {k k' : ObjectKey} (hk : Counterpart s s' frame frame' k k')
    (r p : Nat) : Corresponds s s' frame frame' (s.relatedAt k r p) (s'.relatedAt k' r p) := by
  rcases hk with ⟨e, c, c', i, hpairs, hkeeps, hkeeps'⟩
  rcases hpairs.exists_row h.wellFormed h.wellFormed' hkeeps hkeeps'
    with ⟨rows, row, origin, extents, body, body', hflat, hrow, hflattens, hbody', hrestores⟩
  have htarget : s.targetIn frame e.name (.toMany i r p) = s.relatedAt k r p := by
    rw [targetIn_toMany, objectIn_of_keeps h.wellFormed h.held hpairs.slot hkeeps]
    rfl
  have htarget' : s'.targetIn frame' e.name (.toMany i r p) = s'.relatedAt k' r p := by
    rw [targetIn_toMany, objectIn_of_keeps h.wellFormed' h.held' hpairs.slot' hkeeps']
    rfl
  have haddress : s.addressIn frame e.name (.toMany i r p) =
      if hr : r < e.type.toMany.length then row.toMany[r][p]? else none := by
    rw [h.addressIn_eq hpairs, hflat, Flat.address?, hrow]
    rfl
  -- the row of the object holds the addresses of its relations
  rw [← htarget, ← htarget']
  refine h.corresponds_of_address hfaithful ?_ ?_
  · intro k₁ hk₁
    rw [htarget] at hk₁
    rcases (relatedAt_eq_some_iff hflattens.read).1 hk₁ with ⟨hr, ks, hks, hposition, -⟩
    have hids := hflattens.toMany ⟨r, hr⟩
    rw [relatedIds_of_links hks, mapM_eq_ok_iff] at hids
    rcases getElem?_of_forall₂ hids hposition with ⟨id, hid, hlink⟩
    rw [haddress, dif_pos hr]
    exact ⟨id, hid, linkId_eq_ok hlink⟩
  · intro hnone
    rw [htarget']
    rcases hplace : s'.relatedAt k' r p with _ | k₁'
    · rfl
    · rcases (relatedAt_eq_some_iff hbody').1 hplace with ⟨hr, ks, hks, hposition, -⟩
      rcases hrestores.toMany ⟨r, hr⟩ with ⟨ks', hks', hresolves⟩
      cases hks.symm.trans hks'
      rcases getElem?_of_forall₂ hresolves.flip hposition with ⟨id, hid, -⟩
      rw [haddress, dif_pos hr] at hnone
      cases hnone.symm.trans hid

/-- The to-one relations of counterparts lead to counterparts. -/
theorem singleAt_corresponds (h : Mirrors s s' frame frame' entries)
    (hfaithful : s.IsFaithful frame) {k k' : ObjectKey} (hk : Counterpart s s' frame frame' k k')
    (r : Nat) : Corresponds s s' frame frame' (s.singleAt k r) (s'.singleAt k' r) := by
  rcases hk with ⟨e, c, c', i, hpairs, hkeeps, hkeeps'⟩
  rcases hpairs.exists_row h.wellFormed h.wellFormed' hkeeps hkeeps'
    with ⟨rows, row, origin, extents, body, body', hflat, hrow, hflattens, hbody', hrestores⟩
  have htarget : s.targetIn frame e.name (.toOne i r) = s.singleAt k r := by
    rw [targetIn_toOne, objectIn_of_keeps h.wellFormed h.held hpairs.slot hkeeps]
    rfl
  have htarget' : s'.targetIn frame' e.name (.toOne i r) = s'.singleAt k' r := by
    rw [targetIn_toOne, objectIn_of_keeps h.wellFormed' h.held' hpairs.slot' hkeeps']
    rfl
  have haddress : s.addressIn frame e.name (.toOne i r) =
      if hr : r < e.type.toOne.length then (some row.toOne[r]).filter (!·.isUntracked)
        else none := by
    rw [h.addressIn_eq hpairs, hflat, Flat.address?, hrow]
    rfl
  rw [← htarget, ← htarget']
  refine h.corresponds_of_address hfaithful ?_ ?_
  · intro k₁ hk₁
    rw [htarget] at hk₁
    rcases (singleAt_eq_some_iff hflattens.read).1 hk₁ with ⟨hr, hplace, -⟩
    have hsome : body.toOne[(⟨r, hr⟩ : Fin e.type.toOne.length)] = some k₁ := hplace
    rcases (singleId_eq_ok_of_some hsome).1 (hflattens.toOne ⟨r, hr⟩) with ⟨hlink, htracked⟩
    rw [haddress, dif_pos hr]
    refine ⟨row.toOne[r], ?_, linkId_eq_ok hlink⟩
    exact Option.filter_eq_some_iff.2 ⟨rfl, by simpa using htracked⟩
  · intro hnone
    rw [htarget']
    rcases hplace : s'.singleAt k' r with _ | k₁'
    · rfl
    · rcases (singleAt_eq_some_iff hbody').1 hplace with ⟨hr, hsome, -⟩
      rw [haddress, dif_pos hr] at hnone
      rcases hrestores.toOne ⟨r, hr⟩ with ⟨-, hempty⟩ | ⟨k₂, -, hk₂⟩
      -- the address in the row is either untracked, and then nothing is restored, or found
      · cases hsome.symm.trans hempty
      · have htracked : row.toOne[r].isUntracked = false := hk₂.tracked
        rw [Option.filter_some, htracked] at hnone
        cases hnone

/-! ## Links -/

/-- Every link of a faithful frame corresponds to the link of its mirror. -/
theorem targetIn_corresponds (h : Mirrors s s' frame frame' entries)
    (hfaithful : s.IsFaithful frame) (name : String) (path : LinkPath) :
    Corresponds s s' frame frame' (s.targetIn frame name path) (s'.targetIn frame' name path) := by
  cases path with
  | toMany i r p =>
    rw [targetIn_toMany, targetIn_toMany]
    refine (h.objectIn_corresponds hfaithful name i).bind ?_
    intro k k' hk
    exact h.relatedAt_corresponds hfaithful hk r p
  | toOne i r =>
    rw [targetIn_toOne, targetIn_toOne]
    refine (h.objectIn_corresponds hfaithful name i).bind ?_
    intro k k' hk
    exact h.singleAt_corresponds hfaithful hk r
  | place i =>
    have hobjects := h.objectIn_corresponds hfaithful name i
    rcases h.name_cases name with ⟨hnone, hnone'⟩ | ⟨c, c', hname, hname', e, -, hpairs⟩
    · unfold targetIn collectionIn
      rw [hnone, hnone']
      exact .empty
    · rcases hpairs.exists_collections with ⟨col, col', hcol, hcol', -, hmode⟩
      rw [targetIn_place hname hcol, targetIn_place hname' hcol', hmode]
      rcases col.isSubset
      · exact .empty
      · exact hobjects

/-- A faithful frame and its mirror have the same links. -/
theorem leadsTo_iff (h : Mirrors s s' frame frame' entries) (hfaithful : s.IsFaithful frame)
    (name : String) (path : LinkPath) (name' : String) (i : Nat) :
    s'.LeadsTo frame' name path name' i ↔ s.LeadsTo frame name path name' i := by
  have htarget := h.targetIn_corresponds hfaithful name path
  have hobject := h.objectIn_corresponds hfaithful name' i
  constructor
  · rintro ⟨k', htarget', hobject'⟩
    rw [htarget'] at htarget
    rw [hobject'] at hobject
    rcases htarget.exists_left with ⟨k, hk, hcounterpart⟩
    rcases hobject.exists_left with ⟨k₁, hk₁, hcounterpart₁⟩
    have heq := (h.counterpart_iff hcounterpart hcounterpart₁).2 rfl
    exact ⟨k, hk, heq ▸ hk₁⟩
  · rintro ⟨k, htarget', hobject'⟩
    rw [htarget'] at htarget
    rw [hobject'] at hobject
    rcases htarget.exists_right with ⟨k', hk', hcounterpart⟩
    rcases hobject.exists_right with ⟨k₁', hk₁', hcounterpart₁⟩
    have heq := (h.counterpart_iff hcounterpart hcounterpart₁).1 rfl
    exact ⟨k', hk', heq ▸ hk₁'⟩

/-- If the mirror of a frame has no other links than the frame, the frame is faithful. -/
theorem isFaithful_of_leadsTo (h : Mirrors s s' frame frame' entries)
    (hlinks : ∀ name path name' i, s'.LeadsTo frame' name path name' i →
      s.LeadsTo frame name path name' i) : s.IsFaithful frame := by
  intro name path id haddress
  rcases h.exists_targetIn haddress with ⟨k', htarget', hresolves'⟩
  rcases resolveObject_eq_ok_iff.1 hresolves' with ⟨c', col', i, hresolver', hcol', hposition, hplace'⟩
  rcases h.resolver_cases id.collection with ⟨-, hnone⟩ | ⟨d, d', hd, hd', e, -, hpairs⟩
  · cases hresolver'.symm.trans hnone
  · cases hresolver'.symm.trans hd'
    have hname' : frame'.collection? e.name = some c' := by
      rcases h.held' with ⟨f, hframe⟩
      exact collection?_of_mem h.wellFormed' hframe hpairs.slot'
    have hname : frame.collection? e.name = some d := by
      rcases h.held with ⟨f, hframe⟩
      exact collection?_of_mem h.wellFormed hframe hpairs.slot
    have hobject' : s'.objectIn frame' e.name i = some k' := by
      rw [objectIn, collectionIn, hname', Option.bind_some, hcol', Option.bind_some, hplace']
      rfl
    rcases hlinks name path e.name i ⟨k', htarget', hobject'⟩ with ⟨k, htarget, hobject⟩
    rcases hpairs.exists_collections with ⟨col, -, hcol, -, -, -⟩
    rw [objectIn, collectionIn, hname, Option.bind_some, hcol, Option.bind_some] at hobject
    have hplace := eq_ok_of_toOption hobject
    exact ⟨k, htarget, resolveObject_eq_ok_iff.2 ⟨d, col, i, hd, hcol, hposition, hplace⟩⟩

end Mirrors

end EventModel.Store
