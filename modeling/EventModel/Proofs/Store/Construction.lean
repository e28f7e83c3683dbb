import EventModel.Proofs.Store.Outcomes
import EventModel.Proofs.Store.Reading
import EventModel.Proofs.Store.Standing

/-!
# Filling collections

A collection that is filled with new objects owns objects with consecutive keys (`OwnsFrom`), and a
subset collection that is filled points at objects (`PointsAt`). One lemma for each operation tells
what it makes of such a collection; everything else stays as it is (`ProceedsIn`).
-/

namespace EventModel

theorem setAt_setAt {α : Type} {n : Nat} (xs : Vector α n) (i : Fin n) (x y : α) :
    setAt (setAt xs i x) i y = setAt xs i y := by
  simp [setAt]

theorem setAt_self {α : Type} {n : Nat} (xs : Vector α n) (i : Fin n) : setAt xs i xs[i] = xs := by
  simp [setAt]

namespace Store

variable {s s' s'' : Store} {t u : DataType} {c d : CollectionKey} {first k : ObjectKey} {i j : Nat}
  {bodies : List (Body t)} {body : Body t}

/-! ## What stays -/

/-- Only one collection and the objects that it owns have changed. -/
structure ChangesOnly (s s' : Store) (c : CollectionKey) : Prop where
  reachable : Reachable s → Reachable s'
  steady : ∀ d col, d ≠ c → s.collections.get? d = some col → Steady s s' d
  frames : s'.frames = s.frames

/-- Only one collection has changed, and handles that point at an object keep pointing at it. -/
structure ProceedsIn (s s' : Store) (c : CollectionKey) : Prop extends ChangesOnly s s' c where
  targets : ∀ r k, s.target r = some k → s'.target r = some k

theorem ChangesOnly.trans (h : s.ChangesOnly s' c) (h' : s'.ChangesOnly s'' c) :
    s.ChangesOnly s'' c where
  reachable hs := h'.reachable (h.reachable hs)
  steady d col hd hcol := by
    have hsteady := h.steady d col hd hcol
    rcases hsteady.collection with ⟨-, col', -, hcol', -⟩
    exact hsteady.trans (h'.steady d col' hd hcol')
  frames := h'.frames.trans h.frames

theorem ProceedsIn.refl (s : Store) (c : CollectionKey) : s.ProceedsIn s c :=
  ⟨⟨id, fun _ _ _ hcol => .refl hcol, rfl⟩, fun _ _ h => h⟩

theorem ProceedsIn.trans (h : s.ProceedsIn s' c) (h' : s'.ProceedsIn s'' c) :
    s.ProceedsIn s'' c where
  toChangesOnly := h.toChangesOnly.trans h'.toChangesOnly
  targets r k hr := h'.targets r k (h.targets r k hr)

theorem ChangesOnly.isUnheld (h : s.ChangesOnly s' c) (hunheld : s.IsUnheld d) : s'.IsUnheld d := by
  intro f frame name hframe
  rw [h.frames] at hframe
  exact hunheld f frame name hframe

/-- No collection changes if each is the only one that may. -/
theorem steady_of_changesOnly (h : ∀ d, s.ChangesOnly s' d) {col : Collection}
    (hcol : s.collections.get? c = some col) : Steady s s' c :=
  (h (c + 1)).steady c col (Nat.ne_of_lt (Nat.lt_succ_self c)) hcol

/-! ## Handles -/

theorem existsObject_of_owned {o : Object} (ho : s.objects.get? k = some o)
    (howned : o.tracking = .owned d i) : s.existsObject k = true := by
  simp [existsObject, ho, howned]

/-- A handle to an object that a collection owns leaves all objects as they are. -/
theorem proceedsIn_withHandle {o : Object} (ho : s.objects.get? k = some o)
    (howned : o.tracking = .owned d i) (c : CollectionKey) :
    s.ProceedsIn (s.withHandle (some k)) c where
  reachable hs := by
    have hstep := hs.step (.refer k (existsObject_of_owned ho howned))
    rwa [refer_apply] at hstep
  steady d col _ hcol := by
    refine ⟨⟨col, col, hcol, by simpa using hcol, rfl⟩, ?_⟩
    intro k' o' i' ho' htracking
    have hacquire : o'.acquire = o' := by simp [Object.acquire, htracking]
    rw [withHandle_some_objects, Arena.get?_modify, ho']
    split
    · rw [Option.map_some, hacquire]
    · rfl
  frames := by simp
  targets r k' hr := by
    rcases Option.join_eq_some_iff.1 hr with hhandle
    simp [target, Arena.get?_insert_of_get? hhandle]

/-- A handle that was just made points at its object, and it pointed at nothing before. -/
theorem target_withHandle (s : Store) (k : ObjectKey) :
    (s.withHandle (some k)).target ⟨s.handles.next⟩ = some k := by
  simp [target]

theorem target_next (s : Store) : s.target ⟨s.handles.next⟩ = none := by
  simp [target, Arena.get?_eq_none_of_next_le (Nat.le_refl s.handles.next)]

/-- A handle that is given back leaves all collections and the other handles as they are. -/
theorem exists_drop (r : Reference) (s : Store) :
    ∃ s', drop r s = (.ok (), s') ∧ (∀ c, s.ChangesOnly s' c) ∧
      s'.objects.next = s.objects.next ∧
      ∀ r' k, r' ≠ r → s.target r' = some k → s'.target r' = some k := by
  have hreach : Reachable s → Reachable (drop r s).2 := fun hs => hs.step (.drop r)
  -- only a floating object has a count that the handle takes part in
  rcases htarget : s.target r with _ | k
  · have hrun : drop r s = (.ok (), { s with handles := s.handles.erase r.key }) := by
      rw [drop_apply, htarget]
    rw [hrun] at hreach
    refine ⟨_, hrun, fun c => ⟨hreach, ?_, rfl⟩, rfl, ?_⟩
    · exact fun d col _ hcol => ⟨⟨col, col, hcol, hcol, rfl⟩, fun _ _ _ ho _ => ho⟩
    · intro r' k hne hr'
      have hkey : r.key ≠ r'.key := fun heq => hne (congrArg Reference.mk heq.symm)
      simpa [target, Arena.get?_erase, hkey] using hr'
  · have hrun : drop r s = (.ok (), { s.withoutTarget r.key k with
        handles := (s.withoutTarget r.key k).handles.erase r.key }) := by
      rw [drop_apply, htarget]
    rw [hrun] at hreach
    refine ⟨_, hrun, fun c => ⟨hreach, ?_, rfl⟩, Arena.next_modify _ _ _, ?_⟩
    · intro d col _ hcol
      refine ⟨⟨col, col, hcol, hcol, rfl⟩, ?_⟩
      intro k' o i ho htracking
      have hletGo : o.letGo = o := by simp [Object.letGo, htracking]
      change (s.objects.modify k Object.letGo).get? k' = some o
      rw [Arena.get?_modify, ho]
      split
      · rw [Option.map_some, hletGo]
      · rfl
    · intro r' k' hne hr'
      have hkey : r.key ≠ r'.key := fun heq => hne (congrArg Reference.mk heq.symm)
      simpa [target, withoutTarget, Arena.get?_erase, Arena.get?_modify, hkey] using hr'

/-! ## Collections that are filled -/

theorem Stands.collectionAs {id : CollectionId} {storage : Storage} {origin : Option (Origin t)}
    (h : s.Stands c t id storage origin) :
    ∃ col, s.collectionAs t c = .ok col ∧ col.storage = storage := by
  rcases h.collection with ⟨col, hcol, htype, -, hstorage⟩
  refine ⟨col, bind_eq_ok_iff.2 ⟨col, collection_eq_ok_iff.2 hcol, ?_⟩, hstorage⟩
  rw [if_pos htype]
  rfl

/-- The collection owns objects with these bodies, whose keys are consecutive. -/
structure OwnsFrom (s : Store) (c : CollectionKey) (first : ObjectKey) (bodies : List (Body t)) :
    Prop where
  stands : ∃ id, s.Stands c t id (.owned (List.range' first bodies.length).toArray) none
  owns : s.Owns c (List.range' first bodies.length) bodies

/-- The subset collection points at these objects. -/
def PointsAt (s : Store) (c : CollectionKey) (t : DataType) (ks : List ObjectKey) : Prop :=
  ∃ id, s.Stands c t id (.subset (ks.map Slot.linked).toArray) none

theorem PointsAt.steady {ks : List ObjectKey} (h : s.PointsAt c t ks) (hsteady : Steady s s' c) :
    s'.PointsAt c t ks :=
  h.imp fun _ hstands => hsteady.stands hstands

theorem PointsAt.exists_collection {ks : List ObjectKey} (h : s.PointsAt c t ks) :
    ∃ col, s.collections.get? c = some col := by
  rcases h with ⟨id, config, generation, prepared, hcol⟩
  exact ⟨_, hcol⟩

theorem PointsAt.stays {ks : List ObjectKey} (h : s.PointsAt c t ks)
    (hchanges : ∀ d, s.ChangesOnly s' d) : s'.PointsAt c t ks := by
  rcases h.exists_collection with ⟨col, hcol⟩
  exact h.steady (steady_of_changesOnly hchanges hcol)

theorem PointsAt.changesOnly {ks : List ObjectKey} (h : s.PointsAt c t ks)
    (hchanges : s.ChangesOnly s' d) (hne : c ≠ d) : s'.PointsAt c t ks := by
  rcases h.exists_collection with ⟨col, hcol⟩
  exact h.steady (hchanges.steady c col hne hcol)

namespace OwnsFrom

theorem steady (h : s.OwnsFrom c first bodies) (hsteady : Steady s s' c) :
    s'.OwnsFrom c first bodies :=
  ⟨h.stands.imp fun _ hstands => hsteady.stands hstands, hsteady.owns h.owns⟩

theorem exists_collection (h : s.OwnsFrom c first bodies) :
    ∃ col, s.collections.get? c = some col := by
  rcases h.stands with ⟨id, config, generation, prepared, hcol⟩
  exact ⟨_, hcol⟩

theorem changesOnly (h : s.OwnsFrom c first bodies) (hchanges : s.ChangesOnly s' d) (hne : c ≠ d) :
    s'.OwnsFrom c first bodies := by
  rcases h.exists_collection with ⟨col, hcol⟩
  exact h.steady (hchanges.steady c col hne hcol)

theorem stays (h : s.OwnsFrom c first bodies) (hchanges : ∀ d, s.ChangesOnly s' d) :
    s'.OwnsFrom c first bodies := by
  rcases h.exists_collection with ⟨col, hcol⟩
  exact h.steady (steady_of_changesOnly hchanges hcol)

theorem getElem?_keys {n : Nat} (hi : i < n) : (List.range' first n)[i]? = some (first + i) := by
  simp [hi]

theorem object (h : s.OwnsFrom c first bodies) (hbody : bodies[i]? = some body) :
    s.objects.get? (first + i) = some ⟨t, .owned c i, body⟩ :=
  h.owns.objects i _ body (getElem?_keys (List.getElem?_eq_some_iff.1 hbody).1) hbody

theorem exists_object (h : s.OwnsFrom c first bodies) (hi : i < bodies.length) :
    ∃ body, s.objects.get? (first + i) = some ⟨t, .owned c i, body⟩ :=
  ⟨_, h.object (List.getElem?_eq_getElem hi)⟩

/-- Access by position chooses among the objects. -/
theorem objectAtPosition (h : s.OwnsFrom c first bodies) :
    ∃ col, s.collectionAs t c = .ok col ∧ ∀ index, objectAtPosition col index =
      if index < bodies.length then .ok (first + index)
      else .error (.outOfRange index bodies.length) := by
  rcases h.stands with ⟨id, hstands⟩
  rcases hstands.collectionAs with ⟨col, hcol, hstorage⟩
  refine ⟨col, hcol, ?_⟩
  intro index
  unfold Store.objectAtPosition
  rw [hstorage]
  by_cases hindex : index < bodies.length
  · simp [hindex]
  · simp [hindex]

/-- A handle to the object at a position, if there is one. -/
theorem getObject (h : s.OwnsFrom c first bodies) (index : Nat) :
    RangeChecked (getObject t c index) s (index < bodies.length) fun handle s' =>
      handle = ⟨⟨s.handles.next⟩⟩ ∧ s' = s.withHandle (some (first + index)) := by
  rcases h.objectAtPosition with ⟨col, hcol, hposition⟩
  have hrun : Store.getObject t c index s =
      (liftM (Store.objectAtPosition col index) >>= fun k => handleTo t (some k)) s := by
    rw [Store.getObject, get_bind_apply, bind_apply, ask_apply, hcol]
  rw [hposition] at hrun
  constructor
  · intro hindex
    rw [if_pos hindex] at hrun
    rw [bind_apply, ask_apply] at hrun
    exact ⟨_, _, hrun.trans (handleTo_apply t (some (first + index)) s), rfl, rfl⟩
  · intro hindex
    rw [if_neg hindex] at hrun
    exact ⟨index, bodies.length, Nat.le_of_not_lt hindex, congrArg Prod.fst hrun⟩

theorem getMutable (h : s.OwnsFrom c first bodies) (hi : i < bodies.length) :
    Store.getMutable t c i s =
      (.ok ⟨⟨⟨s.handles.next⟩⟩⟩, s.withHandle (some (first + i))) := by
  rcases h.objectAtPosition with ⟨col, hcol, hposition⟩
  rw [Store.getMutable, get_bind_apply, bind_apply, ask_apply, hcol]
  dsimp only
  rw [hposition, if_pos hi, bind_apply, ask_apply]
  exact mutableHandleTo_apply t (some (first + i)) s

end OwnsFrom

/-! ## New collections -/

/-- A new collection stands under the next key. -/
theorem exists_newCollection (t : DataType) (subset : Bool) (s : Store) :
    ∃ s', newCollection t subset {} s = (.ok s.collections.next, s') ∧
      s'.Stands s.collections.next t .invalid (.empty subset) none ∧
      s.ProceedsIn s' s.collections.next ∧ s'.collections.next = s.collections.next + 1 ∧
      s'.objects = s.objects := by
  have hstep : Reachable s → Reachable (newCollection t subset {} s).2 :=
    fun hs => hs.step (.newCollection t subset {})
  refine ⟨_, rfl, ⟨{}, 0, none, Arena.get?_insert_next⟩, ⟨⟨hstep, ?_, rfl⟩, fun _ _ hr => hr⟩,
    Arena.next_insert _ _, rfl⟩
  intro d col _ hcol
  exact ⟨⟨col, col, hcol, Arena.get?_insert_of_get? hcol, rfl⟩, fun _ _ _ ho _ => ho⟩

theorem Stands.ownsFrom {id : CollectionId} (h : s.Stands c t id (.empty false) none)
    (first : ObjectKey) : s.OwnsFrom c first ([] : List (Body t)) :=
  ⟨⟨id, h⟩, ⟨rfl, fun i _ _ hk _ => by simp at hk⟩⟩

/-! ## Adding to a collection -/

/-- The store with a new object at a position of a normal collection. -/
def withCreated (s : Store) (c : CollectionKey) (position : Nat) (payload : t.payload.Value) : Store :=
  { s with
    objects := s.objects.insert ⟨t, .owned c position, .ofPayload payload⟩
    collections := s.collections.modify c (appendOwned · s.objects.next) }

theorem withCreated_get?_of_get? {position : Nat} {payload : t.payload.Value} {o : Object}
    (ho : s.objects.get? k = some o) :
    (s.withCreated c position payload).objects.get? k = some o :=
  Arena.get?_insert_of_get? ho

theorem create_apply {col : Collection} (hcol : s.collectionAs t c = .ok col)
    (hnormal : col.isSubset = false) (payload : t.payload.Value) :
    create t c payload s = (.ok ⟨⟨⟨s.handles.next⟩⟩⟩,
      (s.withCreated c col.size payload).withHandle (some s.objects.next)) := by
  rw [create, get_bind_apply, bind_apply, ask_apply, hcol]
  simp only [hnormal, Bool.false_eq_true, ↓reduceIte]
  rw [get_bind_apply, modify_bind_apply, modify_bind_apply, mutableHandleTo_apply]
  rfl

/-- An object is made at the end of a normal collection, or nothing happens. -/
theorem create_cases (t : DataType) (c : CollectionKey) (payload : t.payload.Value) (s : Store) :
    (∃ e, create t c payload s = (.error e, s)) ∨
      ∃ col, s.collectionAs t c = .ok col ∧ col.isSubset = false := by
  rcases hcol : s.collectionAs t c with e | col
  · exact .inl ⟨e, by rw [create, get_bind_apply, bind_apply, ask_apply, hcol]⟩
  · rcases hnormal : col.isSubset
    · exact .inr ⟨col, rfl, hnormal⟩
    · refine .inl ⟨.invalidOnSubset "create", ?_⟩
      rw [create, get_bind_apply, bind_apply, ask_apply, hcol]
      dsimp only
      rw [hnormal, if_pos rfl]
      rfl

theorem OwnsFrom.withCreated (h : s.OwnsFrom c first bodies)
    (hnext : s.objects.next = first + bodies.length) (payload : t.payload.Value) :
    (s.withCreated c bodies.length payload).OwnsFrom c first (bodies ++ [.ofPayload payload]) where
  stands := by
    rcases h.stands with ⟨id, config, generation, prepared, hcol⟩
    have hkeys : List.range' first (bodies ++ [Body.ofPayload payload]).length =
        List.range' first bodies.length ++ [s.objects.next] := by
      rw [List.length_append, List.length_singleton, List.range'_1_concat, hnext]
    refine ⟨id, config, generation + 1, none, ?_⟩
    rw [hkeys]
    refine (Arena.get?_modify_self hcol _).trans ?_
    rw [appendOwned_of_owned rfl, List.push_toArray]
    rfl
  owns := by
    refine ⟨List.length_range', ?_⟩
    intro i k body hk hbody
    rcases List.getElem?_eq_some_iff.1 hk with ⟨hlt, rfl⟩
    rw [List.getElem_range', Nat.one_mul]
    -- the new object is the last one, the others are where they were
    by_cases hi : i < bodies.length
    · rw [List.getElem?_append_left hi] at hbody
      exact withCreated_get?_of_get? (h.object hbody)
    · have hlast : i = bodies.length := by
        rw [List.length_range', List.length_append, List.length_singleton] at hlt
        omega
      subst hlast
      rw [← hnext]
      have heq : Body.ofPayload payload = body := by simpa using hbody
      exact heq ▸ Arena.get?_insert_next

/-- A new object comes after the others. -/
theorem OwnsFrom.create (h : s.OwnsFrom c first bodies) (hunheld : s.IsUnheld c)
    (hnext : s.objects.next = first + bodies.length) (payload : t.payload.Value) :
    ∃ s', create t c payload s = (.ok ⟨⟨⟨s.handles.next⟩⟩⟩, s') ∧ s.ProceedsIn s' c ∧
      s'.OwnsFrom c first (bodies ++ [.ofPayload payload]) ∧
      s'.objects.next = s.objects.next + 1 := by
  rcases h.stands with ⟨id, hstands⟩
  rcases hstands.collectionAs with ⟨col, hcol, hstorage⟩
  have hloose := isLoose_of_get? hunheld (collectionAs_eq_ok hcol).1
  have hsize : col.size = bodies.length := by simp [Collection.size, hstorage, Storage.size]
  have hnormal : col.isSubset = false := by simp [Collection.isSubset, hstorage, Storage.isSubset]
  have hrun := create_apply hcol hnormal payload
  rw [hsize] at hrun
  have hreach : Reachable s → Reachable ((s.withCreated c bodies.length payload).withHandle
      (some s.objects.next)) := by
    intro hs
    have hstep := hs.step (.create t c payload hloose)
    rwa [hrun] at hstep
  have hnew : (s.withCreated c bodies.length payload).objects.get? s.objects.next =
      some ⟨t, .owned c bodies.length, .ofPayload payload⟩ := Arena.get?_insert_next
  have hheld := proceedsIn_withHandle hnew rfl c
  -- making the handle changes no collection, so also not the one that was filled
  have helsewhere := proceedsIn_withHandle hnew rfl (c + 1)
  refine ⟨_, hrun, ⟨⟨hreach, ?_, ?_⟩, ?_⟩, ?_, ?_⟩
  · intro d old hd hold
    have hcreated : (s.withCreated c bodies.length payload).collections.get? d = some old :=
      (Arena.get?_modify_ne hd.symm _).trans hold
    have hsteady : Steady s (s.withCreated c bodies.length payload) d :=
      ⟨⟨old, old, hold, hcreated, rfl⟩, fun _ _ _ ho _ => withCreated_get?_of_get? ho⟩
    exact hsteady.trans (hheld.steady d old hd hcreated)
  · exact hheld.frames
  · exact fun r k hr => hheld.targets r k hr
  · exact (h.withCreated hnext payload).changesOnly helsewhere.toChangesOnly
      (Nat.ne_of_lt (Nat.lt_succ_self c))
  · simp [Store.withCreated]

/-- A subset collection takes up an object that another collection owns. -/
theorem PointsAt.push {ks : List ObjectKey} (h : s.PointsAt c t ks) (hunheld : s.IsUnheld c)
    {handle : Handle t} (htarget : s.target handle.toReference = some k)
    (ho : s.objects.get? k = some ⟨t, .owned d i, body⟩) :
    ∃ s', push c handle s = (.ok (), s') ∧ s.ProceedsIn s' c ∧ s'.PointsAt c t (ks ++ [k]) := by
  rcases h with ⟨id, hstands⟩
  have hcopy := hstands
  rcases hcopy with ⟨config, generation, prepared, hcol⟩
  rcases hstands.collectionAs with ⟨col, hcollection, hstorage⟩
  have hloose := isLoose_of_get? hunheld hcol
  have hsubset : col.isSubset = true := by simp [Collection.isSubset, hstorage, Storage.isSubset]
  have hbody : s.bodyOf t (some k) = .ok (k, body) :=
    bodyOf_of_body (body_eq_ok_iff.2 ⟨_, ho, by simp⟩)
  have hrun : Store.push c handle s =
      (.ok (), s.modifyCollection c (appendSlot · (.linked k))) := by
    rw [Store.push, get_bind_apply, bind_apply, ask_apply, hcollection]
    dsimp only
    rw [get_bind_apply, get_bind_apply, htarget, bind_apply, ask_apply, hbody]
    dsimp only
    rw [get_bind_apply, bind_apply, ask_apply, object_eq_ok_iff.2 ho]
    simp only [hsubset, ↓reduceIte]
    rfl
  have hreach : Reachable s → Reachable (s.modifyCollection c (appendSlot · (.linked k))) := by
    intro hs
    have hstep := hs.step (.push c handle hloose)
    rwa [hrun] at hstep
  refine ⟨_, hrun, ⟨⟨hreach, ?_, rfl⟩, fun _ _ hr => hr⟩, id, config, generation + 1, none, ?_⟩
  · intro d old hd hold
    refine ⟨⟨old, old, hold, ?_, rfl⟩, fun _ _ _ ho _ => ho⟩
    exact (Arena.get?_modify_ne hd.symm _).trans hold
  · refine (Arena.get?_modify_self hcol _).trans ?_
    rw [appendSlot_of_subset rfl, List.push_toArray, List.map_append]
    rfl

/-! ## Changing an object -/

/-- An object that a collection owns can be the target of a relation of its type. -/
theorem checkTarget_of_owned {o : Object} {expected : String} (ho : s.objects.get? k = some o)
    (howned : o.tracking = .owned d i) (htype : o.type.name = expected) :
    s.checkTarget (some k) expected = .ok k := by
  have havailable : s.available (some k) = .ok o := by
    simp [available, ho, Object.isReleased, howned]
  refine bind_eq_ok_iff.2 ⟨o, havailable, ?_⟩
  rw [if_pos htype]
  rfl

section EditedStore

variable {new : Body t} (ho : s.objects.get? k = some ⟨t, .owned c i, body⟩)

include ho

/-- The owner of an edited object has changed once more, and no other collection has. -/
theorem get?_of_edit (d : CollectionKey) :
    ((s.advanceOwner k).setBody k new).collections.get? d =
      if d = c then (s.collections.get? c).map Collection.advance else s.collections.get? d := by
  have howner : (s.objects.get? k).bind Object.owner? = some c := by
    rw [ho]
    rfl
  rw [setBody_collections, advanceOwner_get?, howner]
  by_cases hd : d = c
  · subst hd
    rw [if_pos rfl, if_pos rfl]
  · rw [if_neg hd, if_neg fun heq => hd (Option.some.inj heq).symm]

/-- An edited object is in one collection only. -/
theorem steady_of_edit (hd : d ≠ c) {col : Collection} (hcol : s.collections.get? d = some col) :
    Steady s ((s.advanceOwner k).setBody k new) d := by
  refine ⟨⟨col, col, hcol, ?_, rfl⟩, ?_⟩
  · rw [get?_of_edit ho, if_neg hd, hcol]
  · intro k' o j hk' htracking
    have hne : k ≠ k' := by
      rintro rfl
      cases ho.symm.trans hk'
      cases htracking
      exact hd rfl
    rw [setBody_get?_ne hne, advanceOwner_objects, hk']

/-- A collection that owns an edited object has its new body. -/
theorem Owns.edit {keys : List ObjectKey} (h : s.Owns c keys bodies) (hi : keys[i]? = some k) :
    ((s.advanceOwner k).setBody k new).Owns c keys (bodies.set i new) where
  length := by rw [List.length_set, h.length]
  objects j k' body' hk' hbody' := by
    by_cases hj : i = j
    · subst hj
      cases hi.symm.trans hk'
      have hlt : i < bodies.length := h.length ▸ (List.getElem?_eq_some_iff.1 hi).1
      rw [List.getElem?_set_self hlt] at hbody'
      cases hbody'
      exact setBody_get?_self ((advanceOwner_objects ..).symm ▸ ho) new
    · rw [List.getElem?_set_ne hj] at hbody'
      have hobject := h.objects j k' body' hk' hbody'
      -- an object stands at one position only
      have hne : k ≠ k' := by
        rintro rfl
        cases ho.symm.trans hobject
        exact hj rfl
      rw [setBody_get?_ne hne, advanceOwner_objects, hobject]

end EditedStore

section Edit

variable (h : s.OwnsFrom c first bodies) {handle : MutableHandle t}
  (htarget : s.target handle.toReference = some (first + i)) (hbody : bodies[i]? = some body)

include h htarget hbody

/-- An edit replaces the body of one object. -/
theorem OwnsFrom.edit {f : Store → ObjectKey → Body t → Except Error (Body t)} {new : Body t}
    (hf : f s (first + i) body = .ok new)
    (hreach : Reachable s → Reachable (edit handle f s).2) :
    ∃ s', edit handle f s = (.ok (), s') ∧ s.ProceedsIn s' c ∧
      s'.OwnsFrom c first (bodies.set i new) := by
  have ho := h.object hbody
  have hrun : Store.edit handle f s =
      (.ok (), (s.advanceOwner (first + i)).setBody (first + i) new) := by
    have hread : s.body t (first + i) = .ok body := body_eq_ok_iff.2 ⟨_, ho, by simp⟩
    unfold Store.edit
    rw [htarget, bodyOf_of_body hread]
    dsimp only
    rw [hf]
  rw [hrun] at hreach
  refine ⟨_, hrun, ⟨⟨hreach, fun d col hd => steady_of_edit ho hd, by simp⟩, ?targets⟩,
    ⟨?stands, ?owns⟩⟩
  case targets =>
    intro r k hr
    simpa [target] using hr
  case stands =>
    rcases h.stands with ⟨id, config, generation, prepared, hcol⟩
    refine ⟨id, config, generation + 1, prepared, ?_⟩
    rw [get?_of_edit ho, if_pos rfl, hcol, List.length_set]
    rfl
  case owns =>
    rw [List.length_set]
    exact h.owns.edit ho (OwnsFrom.getElem?_keys (List.getElem?_eq_some_iff.1 hbody).1)

/-- A related object comes after the others. -/
theorem OwnsFrom.addRelated {lists : Vector (List ObjectKey) t.toMany.length}
    (hlists : body.toMany = .lists lists) {relation : Nat} {r : Fin t.toMany.length}
    (hr : r.val = relation) {target : Reference} (hk : s.target target = some k) {o : Object}
    (ho : s.objects.get? k = some o) (howned : o.tracking = .owned d j)
    (htype : o.type.name = (t.toMany.get r).target) :
    ∃ s', addRelated handle relation target s = (.ok (), s') ∧ s.ProceedsIn s' c ∧
      s'.OwnsFrom c first (bodies.set i
        { body with toMany := .lists (setAt lists r (lists[r] ++ [k])) }) := by
  have hindex : checkIndex relation t.toMany.length = .ok r := by
    subst hr
    exact dif_pos r.isLt
  have hcheck := checkTarget_of_owned ho howned htype
  have hrun : Store.addRelated handle relation target s =
      Store.edit handle (fun s own body => do
        let lists ← s.ownLists own body
        return { body with toMany := .lists (setAt lists r (lists[r] ++ [k])) }) s := by
    rw [Store.addRelated, bind_apply, ask_apply, hindex]
    dsimp only
    rw [get_bind_apply, get_bind_apply, hk, bind_apply, ask_apply, hcheck]
  have hreach : Reachable s → Reachable (Store.addRelated handle relation target s).2 :=
    fun hs => hs.step (.addRelated handle relation target)
  rw [hrun] at hreach ⊢
  refine h.edit htarget hbody ?_ hreach
  simp only [ownLists, hlists]
  rfl

/-- A to-one relation is set. -/
theorem OwnsFrom.setSingle {relation : Nat} {r : Fin t.toOne.length} (hr : r.val = relation)
    {target : Reference} (hk : s.target target = some k) {o : Object}
    (ho : s.objects.get? k = some o) (howned : o.tracking = .owned d j)
    (htype : o.type.name = (t.toOne.get r).target) :
    ∃ s', setSingle handle relation target s = (.ok (), s') ∧ s.ProceedsIn s' c ∧
      s'.OwnsFrom c first (bodies.set i { body with toOne := setAt body.toOne r (some k) }) := by
  have hindex : checkIndex relation t.toOne.length = .ok r := by
    subst hr
    exact dif_pos r.isLt
  have hrun : Store.setSingle handle relation target s =
      Store.edit handle (fun _ _ body =>
        .ok { body with toOne := setAt body.toOne r (some k) }) s := by
    rw [setSingle_apply_of_some hindex hk, checkTarget_of_owned ho howned htype]
  have hreach : Reachable s → Reachable (Store.setSingle handle relation target s).2 :=
    fun hs => hs.step (.setSingle handle relation target)
  rw [hrun] at hreach ⊢
  exact h.edit htarget hbody rfl hreach

/-- The elements of a vector member are replaced. -/
theorem OwnsFrom.setMembers {member : Nat} {m : Fin t.members.length} (hm : m.val = member)
    (values : List t.element.Value) :
    ∃ s', setMembers handle member values s = (.ok (), s') ∧ s.ProceedsIn s' c ∧
      s'.OwnsFrom c first (bodies.set i { body with members := setAt body.members m values }) := by
  have hindex : checkIndex member t.members.length = .ok m := by
    subst hm
    exact dif_pos m.isLt
  have hrun : Store.setMembers handle member values s =
      Store.edit handle (fun _ _ body =>
        .ok { body with members := setAt body.members m values }) s := by
    rw [Store.setMembers, bind_apply, ask_apply, hindex]
  have hreach : Reachable s → Reachable (Store.setMembers handle member values s).2 :=
    fun hs => hs.step (.setMembers handle member values)
  rw [hrun] at hreach ⊢
  exact h.edit htarget hbody rfl hreach

end Edit

/-! ## Giving collections to a frame -/

/-- Collections hold what they held, perhaps under other numbers. -/
structure KeepsContents (s s' : Store) : Prop where
  reachable : Reachable s → Reachable s'
  objects : s'.objects = s.objects
  collections : ∀ c t id storage origin, s.Stands c t id storage origin →
    ∃ id', s'.Stands c t id' storage origin

theorem OwnsFrom.keepsContents (h : s.OwnsFrom c first bodies) (hkeeps : s.KeepsContents s') :
    s'.OwnsFrom c first bodies where
  stands := by
    rcases h.stands with ⟨id, hstands⟩
    exact hkeeps.collections c t id _ _ hstands
  owns := ⟨h.owns.length, hkeeps.objects ▸ h.owns.objects⟩

theorem PointsAt.keepsContents {ks : List ObjectKey} (h : s.PointsAt c t ks)
    (hkeeps : s.KeepsContents s') : s'.PointsAt c t ks := by
  rcases h with ⟨id, hstands⟩
  exact hkeeps.collections c t id _ _ hstands

theorem exists_newFrame (s : Store) :
    ∃ s', newFrame {} s = (.ok s.frames.next, s') ∧ s.KeepsContents s' ∧
      s'.frames.get? s.frames.next = some {} ∧ ∀ c, s.IsUnheld c → s'.IsUnheld c := by
  have hreach : Reachable s → Reachable (newFrame {} s).2 := fun hs => hs.step (.newFrame {})
  refine ⟨_, rfl, ⟨hreach, rfl, fun _ _ id _ _ hstands => ⟨id, hstands⟩⟩,
    Arena.get?_insert_next, ?_⟩
  intro c hunheld g frame name hframe
  rcases Arena.get?_insert_eq_some hframe with hold | ⟨-, rfl⟩
  · exact hunheld g frame name hold
  · exact List.not_mem_nil

/-- A frame takes a collection under a name that it accepts. -/
theorem exists_put_of_accept {f : FrameKey} {frame : Frame} {name : String} {col : Collection}
    {id : CollectionId} {ids : IdTable} (hframe : s.frames.get? f = some frame)
    (haccept : frame.accept name = .ok (id, ids)) (hcol : s.collections.get? c = some col)
    (hunheld : s.IsUnheld c) :
    ∃ s', put f name c s = (.ok id, s') ∧ s.KeepsContents s' ∧
      s'.frames.get? f = some ({ frame with ids }.push name id c) ∧
      ∀ d, d ≠ c → s.IsUnheld d → s'.IsUnheld d := by
  have hrun := put_apply_of_ok c hframe haccept
  have hreach : Reachable s → Reachable (put f name c s).2 :=
    fun hs => hs.step (.put f name c (isLoose_of_get? hunheld hcol))
  rw [hrun] at hreach
  refine ⟨_, hrun, ⟨hreach, rfl, ?_⟩, withPut_get?_frame name c _ hframe _, ?_⟩
  · intro d t id storage origin hstands
    -- the frame gives the collection a number of its own
    by_cases hd : d = c
    · subst hd
      rcases hstands with ⟨config, generation, prepared, hcol⟩
      exact ⟨_, config, generation + 1, none, Arena.get?_modify_self hcol _⟩
    · rcases hstands with ⟨config, generation, prepared, hcol⟩
      exact ⟨id, config, generation, prepared, (Arena.get?_modify_ne (Ne.symm hd) _).trans hcol⟩
  · intro d hd hold g frame' name' hframe' hslot
    rcases Arena.get?_modify_eq_some hframe' with ⟨rfl, old, hget, rfl⟩ | ⟨-, hget⟩
    · rcases List.mem_append.1 hslot with hslot | hslot
      · exact hold f old name' hget hslot
      · exact hd (congrArg Prod.snd (List.mem_singleton.1 hslot))
    · exact hold g frame' name' hget hslot

end Store

end EventModel
