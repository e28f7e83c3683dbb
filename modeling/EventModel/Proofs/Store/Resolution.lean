import EventModel.Proofs.Store.Filled
import EventModel.Proofs.Store.LastWrite
import EventModel.Proofs.Store.Readers
import EventModel.Proofs.Store.Waiting
import EventModel.Proofs.Store.WrittenBack

/-!
# Resolution of a collection that has grown

A rebuilt collection may have got more objects or places before it is resolved. Resolution succeeds
exactly if an object is found for every address that was stored. Then the relations of the rebuilt
objects lead to what was found, all other relations stay, and nothing is left to resolve; a failure
changes nothing (`setReferences_of_rebuild`).
-/

namespace EventModel.Store

variable {s s' s₀ s₁ : Store} {t : DataType} {c : CollectionKey} {k : ObjectKey} {i : Nat}
  {number origin : CollectionId} {resolver : Resolver} {stored : Stored t}

/-! ## What resolution leaves alone -/

theorem objectAtPosition_linked {col : Collection} {slots : Array Slot}
    (hstorage : col.storage = .subset slots) (hi : slots[i]? = some (.linked k)) :
    objectAtPosition col i = .ok k := by
  rw [objectAtPosition, hstorage]
  dsimp only
  rw [hi]

/-- Every address that leads to an object leads to it after a resolution. -/
theorem Relinks.settles (h : WellFormed s) {update : Store → Store}
    (hrelinks : s.Relinks resolver c update) : Settles s (update s) := by
  have hretains : Retains s (update s) := by
    rcases hrelinks.isLocal h with ⟨keys, hlocal, -⟩
    rcases hlocal.objects with ⟨g, -, htype, hobjects⟩
    intro k o ho
    exact ⟨g k o, by rw [hobjects, ho, Option.map_some], htype k o⟩
  refine .of_places hretains ?_
  intro d col hcol
  by_cases hd : d = c
  · subst hd
    cases hrelinks with
    | settled => exact ⟨col, hcol, rfl, fun _ _ hk => hk⟩
    | @owned t number origin keys toMany toOne many one hstands _ =>
      rcases @stands_withLinks s t d number origin keys toMany toOne many one hstands
        with ⟨config, generation, prepared, hlinked⟩
      rcases hstands with ⟨_, _, _, hcol'⟩
      cases hcol.symm.trans hcol'
      exact ⟨_, hlinked, rfl, fun _ _ hk => hk⟩
    | @subset t number origin slots toMany toOne ks hstands hfinds =>
      rcases @stands_withPlaces s t d number origin ks slots toMany toOne hstands
        with ⟨config, generation, prepared, hlinked⟩
      rcases hstands with ⟨_, _, _, hcol'⟩
      cases hcol.symm.trans hcol'
      refine ⟨_, hlinked, rfl, ?_⟩
      intro i k hk
      rcases objectAtPosition_eq_ok hk with ⟨objects, hstorage, -⟩ | ⟨slots', hstorage, hi⟩
      · cases hstorage
      · cases hstorage
        rw [List.getElem?_toArray] at hi
        -- a place that is linked keeps its object
        rcases getElem?_of_forall₂ hfinds hi with ⟨k', hk', hplace⟩
        cases hplace
        refine objectAtPosition_linked rfl ?_
        rw [List.getElem?_toArray, List.getElem?_map, hk', Option.map_some]
  · exact ⟨col, (hrelinks.get?_of_ne h hd).trans hcol, rfl, fun _ _ hk => hk⟩

/-- A place keeps an object that was released. -/
theorem existsObject_of_released {o : Object} (ho : s.objects.get? k = some o)
    (hreleased : o.tracking = .released) (hplace : s.isInSubset k = true) :
    s.existsObject k = true := by
  simp [existsObject, ho, hreleased, hplace]

/-- An object exists if what points at it is left. -/
theorem existsObject_of_isInSubset (hobject : s'.objects.get? k = s.objects.get? k)
    (hhandles : s'.handles = s.handles)
    (hsubset : ∀ o, s.objects.get? k = some o → o.tracking = .released →
      s.isInSubset k = true → s'.existsObject k = true)
    (h : s.existsObject k = true) : s'.existsObject k = true := by
  rcases exists_of_existsObject h with ⟨o, ho⟩
  have ho' := hobject.trans ho
  rcases htracking : o.tracking with n | ⟨d, j⟩ | _
  · have hheld : s.isHeld k = true := by simpa [existsObject, ho, htracking] using h
    refine existsObject_of_isHeld ho' ?_
    rwa [isHeld, hhandles]
  · simp [existsObject, ho', htracking]
  · have hleft : s.isHeld k = true ∨ s.isInSubset k = true := by
      simpa [existsObject, ho, htracking] using h
    rcases hleft with hheld | hplace
    · refine existsObject_of_isHeld ho' ?_
      rwa [isHeld, hhandles]
    · exact hsubset o ho htracking hplace

/-- A place that was found leads to an object that exists. -/
theorem FindsPlace.existsObject (h : WellFormed s) {col : Collection} {slots : Array Slot}
    (hcol : s.collections.get? c = some col) (hstorage : col.storage = .subset slots) {slot : Slot}
    (hslot : slot ∈ slots) (hfinds : s.FindsPlace resolver t slot k) : s.existsObject k = true := by
  cases hfinds with
  | linked =>
    rcases Array.getElem?_of_mem hslot with ⟨i, hi⟩
    exact existsObject_of_objectAtPosition h hcol (objectAtPosition_linked hstorage hi)
  | pending hfound => exact existsObject_of_resolveObject h hfound.1.object

theorem existsObject_withPlaces (h : WellFormed s) {slots : List Slot} {ks : List ObjectKey}
    {toMany : Vector (List ObjectId) t.toMany.length}
    {toOne : Vector (List ObjectId) t.toOne.length}
    (hstands : s.Stands c t number (.subset slots.toArray) (some ⟨origin, .stored toMany toOne⟩))
    (hfinds : List.Forall₂ (s.FindsPlace resolver t) slots ks) (k : ObjectKey) :
    (s.withPlaces c t origin ks).existsObject k = s.existsObject k := by
  rcases @stands_withPlaces s t c number origin ks slots toMany toOne hstands
    with ⟨config', generation', prepared', hlinked⟩
  rcases hstands with ⟨config, generation, prepared, hcol⟩
  have hother : ∀ {d}, d ≠ c →
      (s.withPlaces c t origin ks).collections.get? d = s.collections.get? d := by
    intro d hd
    rw [withPlaces, modifyCollection_collections, Arena.get?_modify_ne hd.symm]
  rw [Bool.eq_iff_iff]
  constructor
  · refine existsObject_of_isInSubset rfl rfl ?_
    intro o ho hreleased hplace
    rcases Arena.any_eq_true_iff.1 hplace with ⟨d, col, hget, hk⟩
    by_cases hd : d = c
    · subst hd
      cases hlinked.symm.trans hget
      rw [List.contains_iff_mem, mem_linked_of_subset rfl, mem_linked_iff] at hk
      rcases exists_right_of_forall₂ hfinds.flip hk with ⟨slot, hslot, hfound⟩
      exact FindsPlace.existsObject h hcol rfl (List.mem_toArray.2 hslot) hfound
    · rw [hother hd] at hget
      exact existsObject_of_released (s := s) ho hreleased
        (Arena.any_eq_true_iff.2 ⟨d, col, hget, hk⟩)
  · refine existsObject_of_isInSubset rfl rfl ?_
    intro o ho hreleased hplace
    have hinSubset : (s.withPlaces c t origin ks).isInSubset k = true := by
      rcases Arena.any_eq_true_iff.1 hplace with ⟨d, col, hget, hk⟩
      by_cases hd : d = c
      · subst hd
        cases hcol.symm.trans hget
        refine Arena.any_eq_true_iff.2 ⟨d, _, hlinked, ?_⟩
        rw [List.contains_iff_mem, mem_linked_of_subset rfl] at hk ⊢
        -- a place that is linked keeps its object
        rcases exists_right_of_forall₂ hfinds (List.mem_toArray.1 hk) with ⟨k', hk', hfound⟩
        cases hfound
        exact mem_linked_iff.2 hk'
      · exact Arena.any_eq_true_iff.2 ⟨d, col, (hother hd).trans hget, hk⟩
    exact existsObject_of_released (s := s.withPlaces c t origin ks) ho hreleased hinSubset

/-- Resolution lets no object go and brings none back. -/
theorem Relinks.existsObject (h : WellFormed s) {update : Store → Store}
    (hrelinks : s.Relinks resolver c update) : (update s).existsObject = s.existsObject := by
  funext k
  cases hrelinks with
  | settled => rfl
  | @owned t number origin keys toMany toOne many one hstands hfinds =>
    refine existsObject_congr ?_ ?_ ?_
    · exact tracking?_assignAllSingles one 0 keys k
    · exact (IsLocal.withLinks c keys origin).handles s
    · intro d
      by_cases hd : d = c
      · subst hd
        rcases @stands_withLinks s t d number origin keys toMany toOne many one hstands
          with ⟨config', generation', prepared', hlinked⟩
        rcases hstands with ⟨config, generation, prepared, hcol⟩
        rw [hlinked, hcol, Option.map_some, Option.map_some]
      · rw [(Relinks.owned hstands hfinds).get?_of_ne h hd]
  | subset hstands hfinds => exact existsObject_withPlaces h hstands hfinds k

/-! ## Relations that resolution leaves alone -/

theorem related_congr {u : DataType} (hbody : s'.body u k = s.body u k)
    (hexists : s'.existsObject = s.existsObject)
    (hlinks : ∀ body r, s.body u k = .ok body → s'.links k body r = s.links k body r) (r : Nat) :
    s'.related u (some k) r = s.related u (some k) r := by
  unfold related
  rcases checkIndex r u.toMany.length with e | r'
  · rfl
  · rw [bodyOf, bodyOf, hbody]
    rcases hfound : s.body u k with e | body
    · rfl
    · change (s'.links k body r' >>= _) = (s.links k body r' >>= _)
      rw [hlinks body r' hfound, hexists]

theorem single_congr {u : DataType} (hbody : s'.body u k = s.body u k)
    (hexists : s'.existsObject = s.existsObject) (r : Nat) :
    s'.single u (some k) r = s.single u (some k) r := by
  unfold single
  rw [bodyOf, bodyOf, hbody, hexists]

/-- An object that stays has its columns from its owner. -/
theorem originOf_of_ownerOf? (hobject : s'.objects.get? k = s.objects.get? k)
    (howner : ∀ d, s.ownerOf? k = some d → s'.collections.get? d = s.collections.get? d)
    (u : DataType) : s'.originOf u k = s.originOf u k := by
  unfold originOf object
  rw [hobject]
  rcases ho : s.objects.get? k with _ | o
  · rfl
  · dsimp only [bind, Except.bind]
    rcases hd : o.owner? with _ | d
    · rfl
    · have hsame := howner d (by rw [ownerOf?, ho, Option.bind_some, hd])
      dsimp only
      rw [Store.collection, Store.collection, hsame]

/-- The relations of an object that stays and has no windows into the collection stay. -/
theorem relations_of_other (hexists : s'.existsObject = s.existsObject)
    (hcollections : ∀ d, d ≠ c → s'.collections.get? d = s.collections.get? d)
    (hobject : s'.objects.get? k = s.objects.get? k)
    (hwindows : ∀ (u : DataType) i (windows : Vector Window u.toMany.length),
      ¬ s.HasWindows c i k windows) (u : DataType) (r : Nat) :
    s'.related u (some k) r = s.related u (some k) r ∧
      s'.single u (some k) r = s.single u (some k) r := by
  have hbody := body_congr hobject u
  refine ⟨related_congr hbody hexists ?_ r, single_congr hbody hexists r⟩
  intro body r' hfound
  rcases hmany : body.toMany with lists | windows
  · rw [links, links, hmany]
  · refine links_congr (originOf_of_ownerOf? hobject ?_ u) body r'
    intro d howner
    refine hcollections d ?_
    rintro rfl
    rcases body_eq_ok_iff.1 hfound with ⟨tracking, ho, -⟩
    rw [ownerOf?, ho, Option.bind_some] at howner
    rcases owner?_eq_some_iff.1 howner with ⟨i, rfl : tracking = .owned d i⟩
    exact hwindows u i windows ⟨body, ho, hmany⟩

/-! ## What resolution leads to -/

/-- The relations of an object lead to what an earlier store finds for the addresses of a row. -/
structure RowLinked (s s' : Store) (resolver : Resolver) (k : ObjectKey) (row : Row t) : Prop where
  toMany : ∀ r : Fin t.toMany.length, ∃ ks, s'.related t (some k) r = .ok (ks.map some) ∧
    List.Forall₂ (fun id k' => s.resolveObject resolver id = .ok k') row.toMany[r] ks
  unset : ∀ r : Fin t.toOne.length, row.toOne[r].isUntracked = true →
    s'.single t (some k) r = .ok none
  single : ∀ r : Fin t.toOne.length, row.toOne[r].isUntracked = false →
    ∃ k', s.resolveObject resolver row.toOne[r] = .ok k' ∧
      s'.single t (some k) r = .ok (some (some k'))

/-- The objects that a collection was rebuilt with, or the places, lead to what was stored. -/
inductive StoredLinked (s₁ s s' : Store) (resolver : Resolver) (c : CollectionKey) :
    Stored t → Prop
  | owned {contents : Contents t}
      (hrows : ∀ i row, contents.rows[i]? = some row →
        ∃ k, s₁.ListsAt c i k ∧ RowLinked s s' resolver k row) :
      StoredLinked s₁ s s' resolver c (.owned contents)
  | subset {ids : List ObjectId} {col : Collection} (hcol : s'.collections.get? c = some col)
      (hplaces : ∀ i id, ids[i]? = some id →
        ∃ k, objectAtPosition col i = .ok k ∧ s.resolveObject resolver id = .ok k) :
      StoredLinked s₁ s s' resolver c (.subset ids)

/-- What a resolution of a collection makes of a store, if the collection was rebuilt from what is
stored and `s₁` is the store in which that was done. -/
structure IsResolution (s₁ s s' : Store) (resolver : Resolver) (c : CollectionKey)
    (stored : Stored t) : Prop where
  linked : StoredLinked s₁ s s' resolver c stored
  /-- Relations of all other objects are as before. -/
  others : ∀ k, (∀ i, ¬ s₁.ListsAt c i k) → ∀ (u : DataType) (r : Nat),
    s'.related u (some k) r = s.related u (some k) r ∧
      s'.single u (some k) r = s.single u (some k) r
  /-- What an address led to, it leads to still. -/
  settles : Settles s s'
  /-- Nothing is left to resolve, now or later. -/
  final : ∀ s'' resolver' col, Steps s' s'' → s''.collections.get? c = some col →
    setReferences resolver' c s'' = (.ok (), s'')

section Owned

variable {keys : List ObjectKey} {windows : Vector Window t.toMany.length}
  {toMany : Vector (List ObjectId) t.toMany.length}
  {toOne : Vector (List ObjectId) t.toOne.length}
  {many : Vector (List ObjectKey) t.toMany.length}
  {one : Vector (List (Option ObjectKey)) t.toOne.length}

/-- The objects of a collection keep all but their to-one relations. -/
theorem withLinks_get?_of_stands (h : WellFormed s) {columns : Option (Origin t)}
    (hstands : s.Stands c t number (.owned keys.toArray) columns) (hi : keys[i]? = some k)
    {body : Body t} (ho : s.objects.get? k = some ⟨t, .owned c i, body⟩) :
    (s.withLinks c keys origin many one).objects.get? k =
      some ⟨t, .owned c i, assignSingles one i body⟩ := by
  rcases hstands with ⟨config, generation, prepared, hcol⟩
  rcases @withLinks_get?_of_listed s k c _ keys.toArray one origin many h hcol rfl i
    (List.getElem?_toArray ▸ hi) with ⟨body', ho', hlinked⟩
  cases ho.symm.trans ho'
  exact hlinked

/-- An object beyond the end of the columns keeps its to-one relations. -/
theorem assignSingles_of_le {body : Body t} (h : ∀ r : Fin t.toOne.length, one[r].length ≤ i) :
    assignSingles one i body = body := by
  have htoOne : (assignSingles one i body).toOne = body.toOne := by
    refine Vector.ext ?_
    intro r hr
    have hnone : one[(⟨r, hr⟩ : Fin t.toOne.length)][i]? = none :=
      List.getElem?_eq_none (h ⟨r, hr⟩)
    have hget := @assignSingles_getElem t one i body ⟨r, hr⟩
    rwa [hnone, Option.getD_none] at hget
  calc
    assignSingles one i body = { body with toOne := (assignSingles one i body).toOne } := rfl
    _ = body := by rw [htoOne]

/-- Assignment goes over all objects of the collection, but no address was stored for those that were
added. -/
theorem withLinks_get?_of_added (h : WellFormed s) {added : List ObjectKey}
    {columns : Option (Origin t)}
    (hstands : s.Stands c t number (.owned (keys ++ added).toArray) columns)
    (hlength : ∀ r : Fin t.toOne.length, one[r].length = keys.length) (hk : k ∉ keys) :
    (s.withLinks c (keys ++ added) origin many one).objects.get? k = s.objects.get? k := by
  by_cases hmem : k ∈ keys ++ added
  · rcases List.getElem?_of_mem hmem with ⟨j, hj⟩
    have hcol := hstands
    rcases hcol with ⟨config, generation, prepared, hcol⟩
    rcases h.listed c _ _ j k hcol rfl (List.getElem?_toArray ▸ hj)
      with ⟨⟨type, tracking, body⟩, ho, rfl, rfl⟩
    have hle : keys.length ≤ j := by
      refine Nat.le_of_not_lt fun hlt => hk ?_
      rw [List.getElem?_append_left hlt] at hj
      exact List.mem_of_getElem? hj
    have hsame : assignSingles one j body = body :=
      assignSingles_of_le fun r => hlength r ▸ hle
    rw [withLinks_get?_of_stands h hstands hj ho, hsame, ho]
  · exact assignAllSingles_get?_of_not_mem hmem

/-- Objects that exist leave no place empty. -/
theorem map_placeOf {ks : List ObjectKey} (h : ∀ k ∈ ks, s.existsObject k = true) :
    ks.map s.placeOf = ks.map some := by
  refine List.map_congr_left ?_
  intro k hk
  exact placeOf_eq_some_iff.2 ⟨rfl, h k hk⟩

/-- The to-many relations of a rebuilt object lead to what was found for the addresses that its
windows select. -/
theorem related_withLinks (h : WellFormed s) {record : Record t} {ids : List ObjectId}
    (hstands : s.Stands c t number (.owned keys.toArray) (some ⟨origin, .stored toMany toOne⟩))
    (hfinds : s.FindsLinks resolver toMany toOne many one) (hi : keys[i]? = some k)
    (hwindows : s.HasWindows c i k (Vector.ofFn (Contents.relationWindow record)))
    (r : Fin t.toMany.length)
    (hslice : (Contents.relationWindow record r).slice toMany[r] = .ok ids) :
    ∃ ks, (s.withLinks c keys origin many one).related t (some k) r = .ok (ks.map some) ∧
      List.Forall₂ (s.Resolves resolver (t.toMany.get r).target) ids ks := by
  rcases hwindows with ⟨body, ho, hmany⟩
  have ho' := @withLinks_get?_of_stands s t c k i number origin keys many one h _ hstands hi body ho
  have hbody := body_eq_ok_iff.2 ⟨_, ho', by simp⟩
  rcases (@stands_withLinks s t c number origin keys _ _ many one hstands).exists_links ho' hmany
    (hfinds.many r) hslice with ⟨ks, hlinks, hresolves⟩
  refine ⟨ks, ?_, hresolves⟩
  rw [related_eq_map hbody, hlinks, ← map_placeOf (s := s.withLinks c keys origin many one)]
  · rfl
  · intro k' hk'
    rcases exists_right_of_forall₂ hresolves.flip hk' with ⟨id, -, hfound⟩
    rw [(Relinks.owned hstands hfinds).existsObject h]
    exact existsObject_of_resolveObject h hfound.object

/-- The to-one relations of a rebuilt object lead to what was found for the addresses at its
position. -/
theorem single_withLinks (h : WellFormed s) {body : Body t} {id : ObjectId}
    (hstands : s.Stands c t number (.owned keys.toArray) (some ⟨origin, .stored toMany toOne⟩))
    (hfinds : s.FindsLinks resolver toMany toOne many one) (hi : keys[i]? = some k)
    (ho : s.objects.get? k = some ⟨t, .owned c i, body⟩) {r : Fin t.toOne.length}
    (hid : toOne[r][i]? = some id) :
    ∃ place, s.ResolvesOptional resolver (t.toOne.get r).target id place ∧
      (s.withLinks c keys origin many one).single t (some k) r = .ok (place.map some) := by
  have ho' := @withLinks_get?_of_stands s t c k i number origin keys many one h _ hstands hi body ho
  rcases getElem?_of_forall₂ (hfinds.one r) hid with ⟨place, hplace, hresolves⟩
  refine ⟨place, hresolves, ?_⟩
  rw [single_eq_ok (body_eq_ok_iff.2 ⟨_, ho', by simp⟩), assignSingles_getElem, hplace,
    Option.getD_some]
  rcases hresolves with ⟨-, rfl⟩ | ⟨k', rfl, hfound⟩
  · rfl
  · have hexists : (s.withLinks c keys origin many one).placeOf k' = some k' := by
      refine placeOf_eq_some_iff.2 ⟨rfl, ?_⟩
      rw [(Relinks.owned hstands hfinds).existsObject h]
      exact existsObject_of_resolveObject h hfound.object
    rw [Option.map_some, Option.map_some, hexists]

/-- A rebuilt object has the links that its row stands for. -/
theorem rowLinked_withLinks (h : WellFormed s) {contents : Contents t}
    (hstands : s.Stands c t number (.owned keys.toArray)
      (some ⟨origin, .stored contents.toMany contents.toOne⟩))
    (hfinds : s.FindsLinks resolver contents.toMany contents.toOne many one)
    (hsingles : ∀ r : Fin t.toOne.length, contents.toOne[r].length = contents.records.length)
    {record : Record t} (hrecord : contents.records[i]? = some record)
    (hfits : contents.Fits record) (hi : keys[i]? = some k)
    (hwindows : s.HasWindows c i k (Vector.ofFn (Contents.relationWindow record))) :
    RowLinked s (s.withLinks c keys origin many one) resolver k (contents.row i record) := by
  rcases hwindows with ⟨body, ho, hmany⟩
  -- the to-one relations of a row are where its object stands in the columns
  have hsingle := fun r => single_withLinks h hstands hfinds hi ho
    (Contents.getElem?_toOne hrecord (hsingles r))
  refine ⟨?toMany, ?unset, ?single⟩
  case toMany =>
    intro r
    rcases related_withLinks h hstands hfinds hi ⟨body, ho, hmany⟩ r (hfits.slice i r)
      with ⟨ks, hrelated, hresolves⟩
    exact ⟨ks, hrelated, hresolves.imp fun _ _ hk => hk.object⟩
  case unset =>
    intro r huntracked
    rcases hsingle r with ⟨place, ⟨-, rfl⟩ | ⟨k', -, hfound⟩, hread⟩
    · exact hread
    · cases huntracked.symm.trans hfound.tracked
  case single =>
    intro r htracked
    rcases hsingle r with ⟨place, ⟨huntracked, -⟩ | ⟨k', rfl, hfound⟩, hread⟩
    · cases htracked.symm.trans huntracked
    · exact ⟨k', hfound.object, hread⟩

end Owned

/-! ## Exact resolution -/

theorem final_of_stands (h : WellFormed s') {storage : Storage}
    {many : Vector (List ObjectKey) t.toMany.length}
    (hstands : s'.Stands c t number storage (some ⟨origin, .resolved many⟩)) (s'' : Store)
    (resolver : Resolver) (col : Collection) (steps : Steps s' s'')
    (hcol : s''.collections.get? c = some col) :
    setReferences resolver c s'' = (.ok (), s'') := by
  rcases hstands with ⟨config, generation, prepared, hget⟩
  exact setReferences_of_not_isWaiting h (Arena.lt_next_of_get? hget) (not_isWaiting hget rfl)
    steps hcol resolver

/-- The objects of a rebuilt collection are those that it listed first. -/
theorem listsAt_of_stands {keys : List ObjectKey} {columns : Option (Origin t)}
    (hstands : s.Stands c t number (.owned keys.toArray) columns) (hi : keys[i]? = some k) :
    s.ListsAt c i k := by
  rcases hstands with ⟨config, generation, prepared, hcol⟩
  exact ⟨_, keys.toArray, hcol, rfl, List.getElem?_toArray ▸ hi⟩

theorem isResolution_withLinks (h : WellFormed s) (h₁ : WellFormed s₁) (hlasts : Lasts s₁ s c)
    {keys added : List ObjectKey} {contents : Contents t} {number' : CollectionId}
    {many : Vector (List ObjectKey) t.toMany.length}
    {one : Vector (List (Option ObjectKey)) t.toOne.length}
    (hrebuilt : s₁.Stands c t number (.owned keys.toArray)
      (some ⟨origin, .stored contents.toMany contents.toOne⟩))
    (howns : s₁.Owns c keys (contents.rows.map Row.body))
    (hfits : ∀ record ∈ contents.records, contents.Fits record)
    (hsingles : ∀ r : Fin t.toOne.length, contents.toOne[r].length = contents.records.length)
    (hstands : s.Stands c t number' (.owned (keys ++ added).toArray)
      (some ⟨origin, .stored contents.toMany contents.toOne⟩))
    (hfinds : s.FindsLinks resolver contents.toMany contents.toOne many one)
    (h' : WellFormed (s.withLinks c (keys ++ added) origin many one)) :
    IsResolution s₁ s (s.withLinks c (keys ++ added) origin many one) resolver c
      (.owned contents) := by
  have hrelinks := Relinks.owned hstands hfinds
  have hlength : keys.length = contents.records.length := by
    rw [howns.length, List.length_map, Contents.rows, List.length_mapIdx]
  refine ⟨.owned ?rows, ?others, hrelinks.settles h, ?final⟩
  case rows =>
    intro i row hrow
    rcases Contents.getElem?_rows hrow with ⟨record, hrecord, rfl⟩
    have hlt : i < keys.length := hlength ▸ (List.getElem?_eq_some_iff.1 hrecord).1
    have hi : keys[i]? = some keys[i] := List.getElem?_eq_getElem hlt
    have hbody : (contents.rows.map Row.body)[i]? = some (contents.row i record).body := by
      rw [List.getElem?_map, hrow, Option.map_some]
    have hwindows : s.HasWindows c i keys[i] (Vector.ofFn (Contents.relationWindow record)) :=
      (hlasts.windows i _ _).2 ⟨_, howns.objects i _ _ hi hbody, rfl⟩
    refine ⟨keys[i], listsAt_of_stands hrebuilt hi, ?_⟩
    refine rowLinked_withLinks h hstands hfinds hsingles hrecord
      (hfits record (List.mem_of_getElem? hrecord)) ?_ hwindows
    rw [List.getElem?_append_left hlt, hi]
  case others =>
    intro k hnot u r
    refine relations_of_other (c := c) (hrelinks.existsObject h)
      (fun d hd => hrelinks.get?_of_ne h hd) ?_ ?_ u r
    · refine withLinks_get?_of_added h hstands (fun r => ?_) fun hk => ?_
      · rw [← (hfinds.one r).length_eq, hsingles r, hlength]
      · rcases List.getElem?_of_mem hk with ⟨j, hj⟩
        exact hnot j (listsAt_of_stands hrebuilt hj)
    -- windows are of the time of the rebuild: what has some was listed then
    · intro u i windows hwindows
      rcases (hlasts.windows i k windows).1 hwindows with ⟨body, ho, -⟩
      exact hnot i (h₁.listsAt_iff.2 (tracking?_of_get? ho))
  case final => exact final_of_stands h' (stands_withLinks hstands)

/-- A place that waits or is linked is found, and one that is added stays. -/
theorem forall₂_findsPlace_grown {ids : List ObjectId} {added ks : List ObjectKey} :
    List.Forall₂ (s.FindsPlace resolver t) (ids.map Slot.pending ++ added.map Slot.linked) ks ↔
      ∃ found, List.Forall₂ (s.ResolvesSlot resolver t) ids found ∧ ks = found ++ added := by
  have hadded : ∀ ks, List.Forall₂ (s.FindsPlace resolver t) (added.map Slot.linked) ks ↔
      ks = added := by
    intro ks
    rw [List.forall₂_map_left_iff]
    constructor
    · intro hfinds
      have heq : List.Forall₂ Eq added ks := hfinds.imp fun k k' hk => by cases hk; rfl
      rw [List.forall₂_eq_eq_eq] at heq
      exact heq.symm
    · rintro rfl
      exact List.forall₂_same.2 fun k _ => .linked k
  induction ids generalizing ks with
  | nil =>
    rw [List.map_nil, List.nil_append, hadded]
    constructor
    · intro heq
      exact ⟨[], .nil, heq⟩
    · rintro ⟨found, hfound, rfl⟩
      cases hfound
      rfl
  | cons id ids ih =>
    rw [List.map_cons, List.cons_append, List.forall₂_cons_left_iff]
    constructor
    · rintro ⟨k, rest, hk, hrest, rfl⟩
      rcases ih.1 hrest with ⟨found, hfound, rfl⟩
      cases hk with
      | pending hresolves => exact ⟨k :: found, .cons hresolves hfound, rfl⟩
    · rintro ⟨found, hfound, rfl⟩
      rcases List.forall₂_cons_left_iff.1 hfound with ⟨k, rest, hk, hrest, rfl⟩
      exact ⟨k, rest ++ added, .pending hk, ih.2 ⟨rest, hrest, rfl⟩, rfl⟩

theorem isResolution_withPlaces (h : WellFormed s) {ids : List ObjectId}
    {found added : List ObjectKey}
    (hstands : s.Stands c t number (.subset (ids.map Slot.pending ++ added.map Slot.linked).toArray)
      (some ⟨origin, .stored (Vector.replicate _ []) (Vector.replicate _ [])⟩))
    (hfound : List.Forall₂ (s.ResolvesSlot resolver t) ids found)
    (h' : WellFormed (s.withPlaces c t origin (found ++ added))) :
    IsResolution s₁ s (s.withPlaces c t origin (found ++ added)) resolver c
      (.subset ids : Stored t) := by
  have hrelinks := Relinks.subset hstands (forall₂_findsPlace_grown.2 ⟨found, hfound, rfl⟩)
  refine ⟨?_, ?_, hrelinks.settles h, final_of_stands h' (stands_withPlaces hstands)⟩
  · rcases @stands_withPlaces s t c number origin (found ++ added) _ _ _ hstands
      with ⟨config, generation, prepared, hcol⟩
    refine .subset hcol ?_
    intro i id hid
    rcases getElem?_of_forall₂ hfound hid with ⟨k, hk, hresolves⟩
    refine ⟨k, objectAtPosition_linked rfl ?_, hresolves.1.object⟩
    have hlt : i < found.length := (List.getElem?_eq_some_iff.1 hk).1
    rw [List.getElem?_toArray, List.getElem?_map, List.getElem?_append_left hlt, hk,
      Option.map_some]
  · intro k _ u r
    refine relations_of_other (c := c) (hrelinks.existsObject h)
      (fun d hd => hrelinks.get?_of_ne h hd) rfl ?_ u r
    -- a subset collection owns no object
    rintro u i windows ⟨body, ho, -⟩
    rcases h.owner k _ c i ho rfl with ⟨col, objects, hcol, hstorage, -⟩
    rcases hstands.collection with ⟨col', hcol', -, -, hsubset⟩
    cases hcol.symm.trans hcol'
    cases hstorage.symm.trans hsubset

/-- A collection that was rebuilt, and may have grown since, is resolved exactly if all addresses are
found. -/
theorem Pends.isResolution (h : WellFormed s) (h₁ : WellFormed s₁) (hlasts : Lasts s₁ s c)
    (hpends : s₁.Pends c t number stored) (resolver : Resolver) :
    ((∃ s', Store.setReferences resolver c s = (.ok (), s')) ↔ s.FindsAll resolver t stored) ∧
      ∀ s', Store.setReferences resolver c s = (.ok (), s') →
        IsResolution s₁ s s' resolver c stored := by
  cases hpends with
  | @owned keys contents origin hrebuilt howns hfits hsingles =>
    rcases hlasts.stands hrebuilt with ⟨number', storage, hstands, hgrows⟩
    rcases hgrows with ⟨added, hold, rfl⟩ | ⟨added, hold, -⟩
    · cases hold
      have hiff := fun s' => @setReferences_owned_eq_ok_iff s s' t c number' origin resolver _ _ _ h
        hstands
      refine ⟨?_, ?_⟩
      · rw [← exists_findsLinks_iff]
        constructor
        · rintro ⟨s', hrun⟩
          rcases (hiff s').1 hrun with ⟨many, one, hfinds, -⟩
          exact ⟨many, one, hfinds⟩
        · rintro ⟨many, one, hfinds⟩
          exact ⟨_, (hiff _).2 ⟨many, one, hfinds, rfl⟩⟩
      · intro s' hrun
        have hwell' := wellFormed_setReferences h hrun
        rcases (hiff s').1 hrun with ⟨many, one, hfinds, rfl⟩
        exact isResolution_withLinks h h₁ hlasts hrebuilt howns hfits hsingles hstands hfinds hwell'
    · cases hold
  | @subset ids origin hpending =>
    rcases hlasts.stands hpending with ⟨number', storage, hstands, hgrows⟩
    rcases hgrows with ⟨added, hold, -⟩ | ⟨added, hold, rfl⟩
    · cases hold
    · cases hold
      have hiff := fun s' => @setReferences_subset_eq_ok_iff s s' t c number' origin resolver h _ _ _
        hstands
      refine ⟨?_, ?_⟩
      · rw [← exists_resolvesSlots_iff]
        constructor
        · rintro ⟨s', hrun⟩
          rcases (hiff s').1 hrun with ⟨ks, hfinds, -⟩
          rcases forall₂_findsPlace_grown.1 hfinds with ⟨found, hfound, -⟩
          exact ⟨found, hfound⟩
        · rintro ⟨found, hfound⟩
          exact ⟨_, (hiff _).2 ⟨_, forall₂_findsPlace_grown.2 ⟨found, hfound, rfl⟩, rfl⟩⟩
      · intro s' hrun
        have hwell' := wellFormed_setReferences h hrun
        rcases (hiff s').1 hrun with ⟨ks, hfinds, rfl⟩
        rcases forall₂_findsPlace_grown.1 hfinds with ⟨found, hfound, rfl⟩
        exact isResolution_withPlaces h hstands hfound hwell'

/-- Of a question and what follows it, only the latter can change the store. -/
theorem ask_bind_eq_error {α β : Type} {x : Except Error α} {f : α → Action β} {e : Error}
    (hrun : (liftM x >>= f) s = (.error e, s')) :
    s' = s ∨ ∃ y, x = .ok y ∧ f y s = (.error e, s') := by
  rw [bind_apply, ask_apply] at hrun
  rcases x with e' | y
  · cases hrun
    exact .inl rfl
  · exact .inr ⟨y, rfl, hrun⟩

/-- A failed resolution leaves the store as it is: all addresses are looked up before the first of
them is replaced. -/
theorem setReferences_eq_error {e : Error}
    (hrun : setReferences resolver c s = (.error e, s')) : s' = s := by
  rw [setReferences, get_bind_apply] at hrun
  rcases ask_bind_eq_error hrun with rfl | ⟨col, -, hcolumns⟩
  · rfl
  · dsimp only at hcolumns
    rw [originAs_self] at hcolumns
    rcases horigin : col.origin with _ | ⟨origin, ⟨toMany, toOne⟩ | many⟩ <;>
      rw [horigin] at hcolumns
    · cases hcolumns
    · dsimp only at hcolumns
      rcases hstorage : col.storage with objects | slots <;> rw [hstorage] at hcolumns
      · dsimp only at hcolumns
        rw [get_bind_apply] at hcolumns
        rcases ask_bind_eq_error hcolumns with rfl | ⟨many, -, hsingles⟩
        · rfl
        · rcases ask_bind_eq_error hsingles with rfl | ⟨one, -, hdone⟩
          · rfl
          · cases hdone
      · dsimp only at hcolumns
        rw [get_bind_apply, bind_apply, liftExcept_apply] at hcolumns
        rcases hplaces : slots.toList.mapM (s.resolveSlot resolver col.type) with e' | ks <;>
          rw [hplaces] at hcolumns
        · cases hcolumns
          rfl
        · cases hcolumns
    · cases hcolumns

/-- A resolution that succeeds either finds nothing to do, or it puts links in the place of the stored
columns: those of a normal collection, after its to-one relations were set, or those of a subset
collection together with its places. -/
theorem setReferences_eq_ok_cases (hrun : setReferences resolver c s = (.ok (), s')) :
    ∃ col, s.collections.get? c = some col ∧
      (col.isUnresolved = false ∧ s' = s ∨
        col.isUnresolved = true ∧ ∃ id,
          (∃ objects many one, col.storage = .owned objects ∧
            s' = (assignAllSingles (t := col.type) one 0 objects.toList s).modifyCollection c
              fun col' => withColumns col' (⟨id, .resolved many⟩ : Origin col.type)) ∨
          ∃ slots linked many, col.storage = .subset slots ∧
            s' = s.modifyCollection c fun col' =>
              { withColumns col' (⟨id, .resolved many⟩ : Origin col.type) with
                storage := .subset linked }) := by
  rw [setReferences, get_bind_apply] at hrun
  obtain ⟨col, s₁, hcollection, hrun⟩ := bind_eq_ok hrun
  rw [ask_apply] at hcollection
  obtain ⟨hcol, rfl⟩ := Prod.mk.inj hcollection
  refine ⟨col, collection_eq_ok_iff.1 hcol, ?_⟩
  dsimp only at hrun
  rw [originAs_self] at hrun
  -- only stored columns are replaced
  rcases horigin : col.origin with _ | ⟨id, ⟨toMany, toOne⟩ | many⟩ <;> rw [horigin] at hrun
  · cases hrun
    exact .inl ⟨by rw [Collection.isUnresolved, horigin], rfl⟩
  · dsimp only at hrun
    refine .inr ⟨isUnresolved_of_stored horigin, id, ?_⟩
    rcases hstorage : col.storage with objects | slots <;> rw [hstorage] at hrun
    · dsimp only at hrun
      rw [get_bind_apply] at hrun
      obtain ⟨many, s₂, hmany, hrun⟩ := bind_eq_ok hrun
      obtain ⟨one, s₃, hone, hrun⟩ := bind_eq_ok hrun
      rw [ask_apply] at hmany hone
      obtain ⟨-, rfl⟩ := Prod.mk.inj hmany
      obtain ⟨-, rfl⟩ := Prod.mk.inj hone
      cases hrun
      exact .inl ⟨objects, many, one, rfl, rfl⟩
    · dsimp only at hrun
      rw [get_bind_apply] at hrun
      obtain ⟨linked, s₂, hlinked, hrun⟩ := bind_eq_ok hrun
      rw [liftExcept_apply] at hlinked
      obtain ⟨-, rfl⟩ := Prod.mk.inj hlinked
      cases hrun
      exact .inr ⟨slots, _, _, rfl, rfl⟩
  · cases hrun
    exact .inl ⟨by rw [Collection.isUnresolved, horigin], rfl⟩

/-- Resolution is exact, and it happens altogether or not at all. The collection may have grown since
it was rebuilt. -/
theorem setReferences_of_rebuild {b : Buffers} {config : Config} (h : Reachable s₀)
    (hrebuild : rebuild t b number config s₀ = (.ok c, s₁)) (steps : Steps s₁ s)
    (hwaits : s.IsWaiting c) (resolver : Resolver) :
    ∃ stored, b.Holds t config stored ∧
      ((∃ s', setReferences resolver c s = (.ok (), s')) ↔ s.FindsAll resolver t stored) ∧
      (∀ s', setReferences resolver c s = (.ok (), s') →
        IsResolution s₁ s s' resolver c stored) ∧
      ∀ e s', setReferences resolver c s = (.error e, s') → s' = s := by
  rcases lasts_of_rebuild h hrebuild steps hwaits with ⟨hreachable, hlasts⟩
  rcases exists_pends_of_rebuild hrebuild with ⟨stored, hholds, hpends⟩
  have hwell := Steps.wellFormed hreachable.wellFormed steps
  rcases hpends.isResolution hwell hreachable.wellFormed hlasts resolver with ⟨hiff, hresolution⟩
  exact ⟨stored, hholds, hiff, hresolution, fun e s' => setReferences_eq_error⟩

/-- A third object joins the two that were rebuilt, and leads to the first of them. -/
def grownMesh : Store :=
  let created := (create meshType 0 (9 : UInt8) meshStore).2
  let first := (getMutable meshType 0 0 created).2
  (addRelated (t := meshType) ⟨⟨⟨0⟩⟩⟩ 0 ⟨1⟩ first).2

theorem setReferences_grownMesh :
    (∃ stored, meshBuffers.Holds meshType {} stored ∧
      IsResolution meshStore grownMesh (setReferences meshResolver 0 grownMesh).2 meshResolver 0
        stored) ∧
    (setReferences meshResolver 0 grownMesh).2.related meshType (some 0) 0 =
      .ok [some 0, some 1] ∧
    (setReferences meshResolver 0 grownMesh).2.related meshType (some 2) 0 = .ok [some 0] ∧
    (setReferences (fun _ => none) 0 grownMesh).2 = grownMesh := by
  have hcreated : Step meshStore (create meshType 0 (9 : UInt8) meshStore).2 :=
    .create meshType 0 (9 : UInt8) (by decide +kernel)
  have hsteps : Steps meshStore grownMesh :=
    ((Relation.ReflTransGen.single hcreated).tail (.getMutable meshType 0 0)).tail
      (.addRelated ⟨⟨⟨0⟩⟩⟩ 0 ⟨1⟩)
  have hwaits : grownMesh.IsWaiting 0 := by decide +kernel
  have hresolve : setReferences meshResolver 0 grownMesh =
      (.ok (), (setReferences meshResolver 0 grownMesh).2) := by
    have hok : (setReferences meshResolver 0 grownMesh).1 = .ok () := by decide +kernel
    rw [← hok, Prod.eta]
  have hfail : (setReferences (fun _ => none) 0 grownMesh).1 = .error (.danglingReference ⟨7⟩) := by
    decide +kernel
  rcases setReferences_of_rebuild .empty rebuild_meshBuffers hsteps hwaits meshResolver
    with ⟨stored, hholds, -, hresolution, -⟩
  rcases setReferences_of_rebuild .empty rebuild_meshBuffers hsteps hwaits (fun _ => none)
    with ⟨-, -, -, -, hkept⟩
  exact ⟨⟨stored, hholds, hresolution _ hresolve⟩, by decide +kernel, by decide +kernel,
    hkept _ _ (Prod.ext hfail rfl)⟩

end EventModel.Store
