import EventModel.Proofs.Store.Acceptance
import EventModel.Proofs.Store.Failures
import EventModel.Proofs.Store.Located

/-!
# Faults of stored addresses

A resolution fails because of an address that it stored for: no collection has its number, the
collection has no such position, the object there is of another type, no object is meant at all, or
the place there is one of a subset collection and waits itself. Only the last fault is not one of
the data alone, for it depends on what was resolved before. A frame that cannot be read fails for
the same reasons, or while its collections are rebuilt and put into it
(`blamesAddresses_of_reachable`).
-/

namespace EventModel

namespace Error

/-- What a resolution is documented to fail with: the addresses that were stored are wrong. -/
def IsOfAddress : Error → Prop
  | danglingReference _ => True
  | indexOutOfRange _ _ => True
  | typeMismatch _ _ => True
  | corruptBuffer _ => True
  | _ => False

/-- What the reading of a frame is documented to fail with. -/
def IsOfData (e : Error) : Prop :=
  e.IsOfAddress ∨ (∃ type, e = unknownDataType type) ∨ ∃ name, e = nameAlreadyPresent name

end Error

namespace Store

variable {s s' : Store} {c : CollectionKey} {t : DataType} {id : ObjectId} {resolver : Resolver}
  {wanted : DataType → Prop}

/-- Every collection that the resolver finds is there. -/
def Knows (s : Store) (resolver : Resolver) : Prop :=
  ∀ number c, resolver number = some c → ∃ col, s.collections.get? c = some col

/-- The address leads to a place that waits itself, in a subset collection of this type and
number. -/
def LeadsToWaiting (s : Store) (resolver : Resolver) (id : ObjectId) (type : String)
    (number : CollectionId) : Prop :=
  ∃ c col slots i other, resolver id.collection = some c ∧ s.collections.get? c = some col ∧
    col.type.name = type ∧ col.id = number ∧ col.storage = .subset slots ∧
    id.position? = some i ∧ slots[i]? = some (.pending other)

/-- Why an address does not lead to an object of a wanted type, with the error that tells so. -/
inductive Fault (s : Store) (resolver : Resolver) (wanted : DataType → Prop) (id : ObjectId) :
    Error → Prop
  | dangling (h : resolver id.collection = none) :
      Fault s resolver wanted id (.danglingReference id.collection)
  | pastEnd {c : CollectionKey} {col : Collection} (hc : resolver id.collection = some c)
      (hcol : s.collections.get? c = some col) (h : ∀ i, id.position? = some i → col.size ≤ i)
      (index : Int) : Fault s resolver wanted id (.indexOutOfRange index col.size)
  | mistyped {k : ObjectKey} {o : Object} (hk : s.resolveObject resolver id = .ok k)
      (ho : s.objects.get? k = some o) (h : ¬ wanted o.type) (type : String) :
      Fault s resolver wanted id (.typeMismatch type o.type.name)
  | untracked (h : id.isUntracked = true) (reason : String) :
      Fault s resolver wanted id (.corruptBuffer reason)
  | waiting {type : String} {number : CollectionId}
      (h : s.LeadsToWaiting resolver id type number) :
      Fault s resolver wanted id (.unresolvedReferences type number)

/-- Every fault but the last is documented. -/
theorem Fault.documented {e : Error} (h : s.Fault resolver wanted id e) :
    e.IsOfAddress ∨ ∃ type number, e = .unresolvedReferences type number ∧
      s.LeadsToWaiting resolver id type number := by
  cases h with
  | dangling | pastEnd | mistyped | untracked => exact .inl trivial
  | waiting hwaiting => exact .inr ⟨_, _, rfl, hwaiting⟩

/-! ## One address -/

theorem objectAtPosition_eq_error {col : Collection} {i : Nat} {e : Error}
    (h : objectAtPosition col i = .error e) :
    (col.size ≤ i ∧ e = .outOfRange i col.size) ∨
      ∃ slots other, col.storage = .subset slots ∧ slots[i]? = some (.pending other) ∧
        e = .unresolvedReferences col.type.name col.id := by
  unfold objectAtPosition at h
  unfold Collection.size
  rcases hstorage : col.storage with objects | slots
  · rw [hstorage] at h
    dsimp only at h
    rcases hi : objects[i]? with _ | k
    · rw [hi] at h
      exact .inl ⟨Array.getElem?_eq_none_iff.1 hi, (Except.error.inj h).symm⟩
    · rw [hi] at h
      cases h
  · rw [hstorage] at h
    dsimp only at h
    rcases hi : slots[i]? with _ | ⟨other⟩ | k
    · rw [hi] at h
      exact .inl ⟨Array.getElem?_eq_none_iff.1 hi, (Except.error.inj h).symm⟩
    · rw [hi] at h
      exact .inr ⟨slots, other, rfl, hi, (Except.error.inj h).symm⟩
    · rw [hi] at h
      cases h

theorem resolveObject_faults (hknows : s.Knows resolver) (wanted : DataType → Prop)
    (id : ObjectId) :
    FailsOnly (s.Fault resolver wanted id) (s.resolveObject resolver id) := by
  unfold resolveObject
  rcases hc : resolver id.collection with _ | c
  · exact .of_error (.dangling hc)
  · rcases hknows _ c hc with ⟨col, hcol⟩
    dsimp only
    rw [collection_eq_ok_iff.2 hcol]
    dsimp only [bind, Except.bind]
    rcases hposition : id.position? with _ | i
    · exact .of_error (.pastEnd hc hcol (by simp [hposition]) _)
    -- a position is past the end, or a place is there that waits itself
    · intro e he
      rcases objectAtPosition_eq_error he with ⟨hsize, rfl⟩ | ⟨slots, other, hstorage, hslot, rfl⟩
      · refine .pastEnd hc hcol ?_ _
        intro i' hi'
        cases hposition.symm.trans hi'
        exact hsize
      · exact .waiting ⟨c, col, slots, i, other, hc, hcol, rfl, rfl, hstorage, hposition, hslot⟩

theorem resolveTyped_faults (hknows : s.Knows resolver) (type : String) (id : ObjectId) :
    FailsOnly (s.Fault resolver (·.name = type) id) (s.resolveTyped resolver type id) := by
  refine (resolveObject_faults hknows _ id).bind fun k hk => ?_
  rcases htype : s.typeName? (some k) with _ | found
  · exact .of_ok k
  · rcases typeName?_eq_some_iff.1 htype with ⟨o, ho, rfl⟩
    dsimp only
    split
    · exact .of_ok k
    · rename_i hother
      exact .of_error (.mistyped hk ho hother type)

theorem resolveRequired_faults (hknows : s.Knows resolver) (source type : String)
    (id : ObjectId) : FailsOnly (s.Fault resolver (·.name = type) id)
      (s.resolveRequired resolver source type id) := by
  unfold resolveRequired
  split
  · rename_i huntracked
    exact .of_error (.untracked huntracked _)
  · exact resolveTyped_faults hknows type id

theorem resolveOptional_faults (hknows : s.Knows resolver) (type : String) (id : ObjectId) :
    FailsOnly (s.Fault resolver (·.name = type) id) (s.resolveOptional resolver type id) := by
  unfold resolveOptional
  split
  · exact .of_ok none
  · exact (resolveTyped_faults hknows type id).map some

theorem Fault.of_wanted {wanted' : DataType → Prop} {e : Error}
    (h : s.Fault resolver wanted id e) (hwanted : ∀ u, wanted' u → wanted u) :
    s.Fault resolver wanted' id e := by
  cases h with
  | dangling h => exact .dangling h
  | pastEnd hc hcol h index => exact .pastEnd hc hcol h index
  | mistyped hk ho h type => exact .mistyped hk ho (fun hw => h (hwanted _ hw)) type
  | untracked h reason => exact .untracked h reason
  | waiting h => exact .waiting h

theorem resolveSlot_faults (h : WellFormed s) (hknows : s.Knows resolver) (t : DataType)
    (id : ObjectId) :
    FailsOnly (s.Fault resolver (· = t) id) (s.resolveSlot resolver t (.pending id)) := by
  refine FailsOnly.bind ((resolveRequired_faults hknows t.name t.name id).imp ?_) fun k hk => ?_
  · exact fun e he => he.of_wanted fun u hu => congrArg DataType.name hu
  -- another type may have the name of this one, and so the type itself is compared as well
  · rcases (resolveRequired_eq_ok_iff h).1 hk with ⟨-, htype, hobject⟩
    rcases typeName?_eq_some_iff.1 htype with ⟨o, ho, -⟩
    change FailsOnly _ (s.object k >>= fun o =>
      if o.type = t then pure k else throw (Error.typeMismatch t.name o.type.name))
    rw [object_eq_ok_iff.2 ho]
    change FailsOnly _
      (if o.type = t then pure k else throw (Error.typeMismatch t.name o.type.name))
    split
    · exact .of_ok k
    · rename_i hother
      exact .of_error (.mistyped hobject ho hother t.name)

/-! ## One collection -/

/-- The collection waits for the object of an address, which must be of a wanted type. -/
inductive Demands (col : Collection) : ObjectId → (DataType → Prop) → Prop
  | toMany {id : ObjectId} {origin : CollectionId} {objects : Array ObjectKey}
      {toMany : Vector (List ObjectId) col.type.toMany.length}
      {toOne : Vector (List ObjectId) col.type.toOne.length}
      (hstorage : col.storage = .owned objects)
      (horigin : col.origin = some ⟨origin, .stored toMany toOne⟩)
      (r : Fin col.type.toMany.length) (hid : id ∈ toMany[r]) :
      Demands col id (·.name = (col.type.toMany.get r).target)
  | toOne {id : ObjectId} {origin : CollectionId} {objects : Array ObjectKey}
      {toMany : Vector (List ObjectId) col.type.toMany.length}
      {toOne : Vector (List ObjectId) col.type.toOne.length}
      (hstorage : col.storage = .owned objects)
      (horigin : col.origin = some ⟨origin, .stored toMany toOne⟩)
      (r : Fin col.type.toOne.length) (hid : id ∈ toOne[r]) :
      Demands col id (·.name = (col.type.toOne.get r).target)
  | place {id : ObjectId} {slots : Array Slot} (hstorage : col.storage = .subset slots)
      (hunresolved : col.isUnresolved = true) (hslot : .pending id ∈ slots.toList) :
      Demands col id (· = col.type)

/-- What is demanded is awaited. -/
theorem Demands.mem_awaitedIds {col : Collection} (h : Demands col id wanted) :
    id ∈ awaitedIds col := by
  cases h with
  | toMany hstorage horigin r hid =>
    simp only [awaitedIds, horigin, hstorage]
    exact List.mem_append_left _ (mem_flatten_of_getElem hid)
  | toOne hstorage horigin r hid =>
    simp only [awaitedIds, horigin, hstorage]
    exact List.mem_append_right _ (mem_flatten_of_getElem hid)
  | place hstorage hunresolved hslot =>
    rcases exists_stored_of_isUnresolved hunresolved with ⟨origin, toMany, toOne, horigin⟩
    simp only [awaitedIds, horigin, hstorage]
    exact List.mem_filterMap.2 ⟨_, hslot, rfl⟩

/-- The error of a resolution tells the fault of an address for which the collection waits. -/
def FaultOf (s : Store) (resolver : Resolver) (col : Collection) (e : Error) : Prop :=
  ∃ id wanted, Demands col id wanted ∧ s.Fault resolver wanted id e

theorem setReferences_faults (h : WellFormed s) (hknows : s.Knows resolver) {col : Collection}
    (hcol : s.collections.get? c = some col) :
    FailsOnly (s.FaultOf resolver col) (setReferences resolver c s).1 := by
  rw [setReferences, get_bind_apply, bind_apply, ask_apply, collection_eq_ok_iff.2 hcol]
  dsimp only
  rw [originAs_self]
  -- only stored columns are looked at; what was built or resolved waits for nothing
  rcases horigin : col.origin with _ | ⟨origin, ⟨toMany, toOne⟩ | many⟩
  · exact .of_ok ()
  · dsimp only
    rcases hstorage : col.storage with objects | slots
    · dsimp only
      rw [get_bind_apply]
      refine ask_bind_failsOnly (.tryOfFn fun r => .mapM fun id hid => ?_) fun many _ => ?_
      · exact (resolveRequired_faults hknows _ _ id).imp fun e he =>
          ⟨id, _, .toMany hstorage horigin r hid, he⟩
      refine ask_bind_failsOnly (.tryOfFn fun r => .mapM fun id hid => ?_) fun one _ => .of_ok ()
      exact (resolveOptional_faults hknows _ id).imp fun e he =>
        ⟨id, _, .toOne hstorage horigin r hid, he⟩
    · dsimp only
      rw [get_bind_apply]
      refine bind_failsOnly ?_ fun _ _ _ => .of_ok ()
      rw [liftExcept_apply]
      refine .mapM fun slot hslot => ?_
      rcases slot with id | k
      · exact (resolveSlot_faults h hknows col.type id).imp fun e he =>
          ⟨id, _, .place hstorage (isUnresolved_of_stored horigin) hslot, he⟩
      · exact .of_ok k
  · exact .of_ok ()

/-! ## Collections that are resolved one after the other -/

/-- Collections keep their types, numbers and modes, and none waits for a new address. -/
def AwaitsLess (s s' : Store) : Prop :=
  ∀ c col, s.collections.get? c = some col → ∃ col', s'.collections.get? c = some col' ∧
    col'.type = col.type ∧ col'.id = col.id ∧ col'.isSubset = col.isSubset ∧
    ∀ id ∈ awaitedIds col', id ∈ awaitedIds col

theorem AwaitsLess.refl (s : Store) : AwaitsLess s s :=
  fun _ col hcol => ⟨col, hcol, rfl, rfl, rfl, fun _ hid => hid⟩

theorem AwaitsLess.trans {s'' : Store} (h : AwaitsLess s s') (h' : AwaitsLess s' s'') :
    AwaitsLess s s'' := by
  intro c col hcol
  rcases h c col hcol with ⟨col', hcol', htype, hid, hmode, hless⟩
  rcases h' c col' hcol' with ⟨col'', hcol'', htype', hid', hmode', hless'⟩
  exact ⟨col'', hcol'', htype'.trans htype, hid'.trans hid, hmode'.trans hmode,
    fun id hmem => hless id (hless' id hmem)⟩

/-- One collection is resolved, and the others stay as they are. -/
theorem AwaitsLess.of_stands {storage storage' : Storage} {number : CollectionId}
    {origin : Option (Origin t)} {origin' : CollectionId}
    {many : Vector (List ObjectKey) t.toMany.length}
    (hstands : s.Stands c t number storage origin)
    (hstands' : s'.Stands c t number storage' (some ⟨origin', .resolved many⟩))
    (hmode : storage'.isSubset = storage.isSubset)
    (hothers : ∀ d, d ≠ c → s'.collections.get? d = s.collections.get? d) : AwaitsLess s s' := by
  intro d col hcol
  by_cases hd : d = c
  · subst hd
    rcases hstands with ⟨config, generation, prepared, hold⟩
    rcases hstands' with ⟨config', generation', prepared', hnew⟩
    cases hcol.symm.trans hold
    exact ⟨_, hnew, rfl, rfl, hmode, by simp [awaitedIds]⟩
  · exact ⟨col, (hothers d hd).trans hcol, rfl, rfl, rfl, fun _ hid => hid⟩

theorem awaitsLess_setReferences (h : WellFormed s)
    (hrun : setReferences resolver c s = (.ok (), s')) : AwaitsLess s s' := by
  rcases (setReferences_eq_ok_iff h).1 hrun with ⟨update, hrelinks, rfl⟩
  have hothers := fun d hd => @Relinks.get?_of_ne s c d resolver h update hrelinks hd
  cases hrelinks with
  | settled => exact .refl s
  | owned hstands _ => exact .of_stands hstands (stands_withLinks hstands) rfl hothers
  | subset hstands _ => exact .of_stands hstands (stands_withPlaces hstands) rfl hothers

/-- A collection that pends waits for what is stored. -/
theorem Pends.mem_ids {number : CollectionId} {stored : Stored t} (h : s.Pends c t number stored)
    {col : Collection} (hcol : s.collections.get? c = some col) (hid : id ∈ awaitedIds col) :
    id ∈ stored.ids := by
  cases h with
  | owned hstands _ _ _ =>
    rcases hstands with ⟨config, generation, prepared, hget⟩
    cases hcol.symm.trans hget
    exact hid
  | subset hpending =>
    rcases hpending with ⟨config, generation, prepared, hget⟩
    cases hcol.symm.trans hget
    rcases List.mem_filterMap.1 hid with ⟨slot, hslot, hpending⟩
    rcases List.mem_map.1 hslot with ⟨other, hother, rfl⟩
    cases hpending
    exact hother

/-! ## One frame -/

variable {data : FrameData} {registry : Registry} {config : Config} {f : FrameKey}

theorem build_failsOnly (registry : Registry) (b : Buffers) (number : CollectionId)
    (config : Config) : FailsOnly Error.IsOfData (build registry b number config s).1 := by
  unfold build
  rcases registry.find? b.type with _ | t
  · exact .of_error (.inr (.inl ⟨_, rfl⟩))
  · intro e he
    have hrun : rebuild t b number config s = (.error e, (rebuild t b number config s).2) := by
      rw [← he, Prod.eta]
    rcases (rebuild_eq_error hrun).2 with ⟨-, rfl⟩ | ⟨-, reason, rfl⟩
    · exact .inl trivial
    · exact .inl trivial

theorem put_failsOnly {frame : Frame} (hframe : s.frames.get? f = some frame) {name : String}
    {number : CollectionId} (hid : frame.ids.id? name = some number) (c : CollectionKey) :
    FailsOnly Error.IsOfData (put f name c s).1 := by
  intro e he
  have hrun : put f name c s = (.error e, (put f name c s).2) := by rw [← he, Prod.eta]
  have haccept := (put_eq_error hframe hrun).1
  exact .inr (.inr ⟨name, Frame.eq_nameAlreadyPresent_of_accept hid haccept⟩)

theorem putAll_failsOnly (hframe : ∃ frame, s.frames.get? f = some frame)
    (collections : List (String × Buffers)) :
    FailsOnly Error.IsOfData (putAll f registry config collections s).1 := by
  -- on the entries that are left; the frame is there before each of them
  induction collections generalizing s with
  | nil => exact .of_ok ()
  | cons entry rest ih =>
    rcases entry with ⟨name, b⟩
    rcases hframe with ⟨frame, hframe⟩
    rw [putAll, get_bind_apply, bind_apply, ask_apply, frame_eq_ok_iff.2 hframe]
    dsimp only
    rcases hid : frame.ids.id? name with _ | number
    · exact .of_error (.inl trivial)
    · refine bind_failsOnly (build_failsOnly registry b number config) fun c s₁ hbuild => ?_
      have hframe₁ : s₁.frames.get? f = some frame := by
        have hframes := (build_changes (s := s) registry b number config).2.1
        rw [hbuild] at hframes
        rw [show s₁.frames = s.frames from hframes, hframe]
      refine bind_failsOnly (put_failsOnly hframe₁ hid c) fun number' s₂ hput => ?_
      rcases put_cases f name c s₁ with ⟨e, hput'⟩ | ⟨e, hput'⟩ | ⟨frame', id, ids, -, -, hput'⟩
      · cases hput.symm.trans hput'
      · cases hput.symm.trans hput'
      · cases hput.symm.trans hput'
        exact ih ⟨_, withPut_get?_frame name c _ hframe₁ ids⟩

/-- The frame that is read holds a subset collection of this type and number, and some address that
is stored leads there. -/
def MeetsSubset (data : FrameData) (type : String) (number : CollectionId) : Prop :=
  (∃ entry ∈ data.collections, ∃ id ∈ entry.2.storedIds,
    id.isUntracked = false ∧ id.collection = number) ∧
  ∃ target ∈ data.collections, target.2.subset = true ∧ target.2.type = type ∧
    data.ids.id? target.1 = some number

/-- What a frame may fail with when it is read: a documented error, or the one of an address that
leads to a subset collection. -/
def FailsToRead (data : FrameData) (e : Error) : Prop :=
  e.IsOfData ∨ ∃ type number, e = .unresolvedReferences type number ∧ MeetsSubset data type number

section Filled

variable {slots : List (String × CollectionKey)} {entries : List StoredCollection} {s₁ : Store}

/-- The resolver knows collections from before the first of them was resolved, and none is gone
since. -/
theorem knows_resolverOf (hpends : List.Forall₂ s₁.PendsAs slots entries)
    (hless : AwaitsLess s₁ s) : s.Knows (s₁.resolverOf (slots.map (·.2))) := by
  intro number c hc
  rcases exists_of_resolverOf (hasShape_of_pendsAs hpends) hc with ⟨e, -, -, -, hshape⟩
  rcases hshape.exists_collection with ⟨col, hcol, -⟩
  rcases hless c col hcol with ⟨col', hcol', -⟩
  exact ⟨col', hcol'⟩

/-- A place that waits while the frame is resolved is one of a subset collection that was stored. -/
theorem exists_target_of_leadsToWaiting
    (htakes : List.Forall₂ (Takes registry data.ids config) data.collections entries)
    (hpends : List.Forall₂ s₁.PendsAs slots entries) (hless : AwaitsLess s₁ s) {type : String}
    {number : CollectionId}
    (h : s.LeadsToWaiting (s₁.resolverOf (slots.map (·.2))) id type number) :
    id.isUntracked = false ∧ id.collection = number ∧ ∃ target ∈ data.collections,
      target.2.subset = true ∧ target.2.type = type ∧ data.ids.id? target.1 = some number := by
  rcases h with ⟨c, col', subsetSlots, i, other, hc, hcol', rfl, rfl, hstorage, hposition, -⟩
  rcases exists_of_resolverOf (hasShape_of_pendsAs hpends) hc with ⟨flat, hflat, hnumber, -, hshape⟩
  rcases List.mem_map.1 hflat with ⟨⟨name, number, t, stored⟩, he, rfl⟩
  rcases exists_right_of_forall₂ htakes.flip he with ⟨target, htarget, htake⟩
  rcases hshape.exists_collection with ⟨col, hcol, hid⟩
  rcases hless c col hcol with ⟨col'', hcol'', htype, hid', hmode, -⟩
  cases hcol'.symm.trans hcol''
  have hsubset : col.isSubset = true := by
    rw [← hmode, Collection.isSubset, hstorage]
    rfl
  have hname : t.name = target.2.type := (Buffers.expectType_eq_ok_iff.1 htake.expectType).symm
  have hstored := htake.stored
  dsimp only [StoredCollection.flat] at hshape hstored hid hnumber
  -- the collection kept its mode, so that it was stored as a subset collection
  cases hstored with
  | owned =>
    cases hshape with
    | owned hstands _ =>
      rcases hstands with ⟨config, generation, prepared, hget⟩
      cases hcol.symm.trans hget
      cases hsubset
  | subset hmode' _ =>
    cases hshape with
    | subset hstands =>
      rcases hstands with ⟨config, generation, prepared, hget⟩
      cases hcol.symm.trans hget
      refine ⟨ObjectId.isUntracked_of_position? hposition, ?_, target, htarget, hmode', ?_, ?_⟩
      · rw [hid', ← hnumber]
      · rw [htype, ← hname]
      · rw [hid', htake.name]
        exact htake.id

/-- The collections that fill a frame are resolved, unless an address is at fault. -/
theorem resolve_failsOnly
    (htakes : List.Forall₂ (Takes registry data.ids config) data.collections entries)
    (hpends : List.Forall₂ s₁.PendsAs slots entries) (h : WellFormed s₁) :
    FailsOnly (FailsToRead data) (forEach
      (setReferences (s₁.resolverOf (slots.map (·.2)))) (slots.map (·.2)) s₁).1 := by
  refine forEach_failsOnly (I := fun s => WellFormed s ∧ AwaitsLess s₁ s) ?_ ⟨h, .refl s₁⟩
  rintro c hc s ⟨hwell, hless⟩
  refine ⟨?_, fun s' hrun => ⟨wellFormed_setReferences hwell hrun,
    hless.trans (awaitsLess_setReferences hwell hrun)⟩⟩
  rcases List.mem_map.1 hc with ⟨slot, hslot, rfl⟩
  rcases exists_right_of_forall₂ hpends hslot with ⟨e, he, hpend⟩
  rcases exists_right_of_forall₂ htakes.flip he with ⟨entry, hentry, htake⟩
  rcases hpend.collection.exists_collection with ⟨col₁, hcol₁, -⟩
  rcases hless slot.2 col₁ hcol₁ with ⟨col, hcol, -, -, -, hawaits⟩
  refine (setReferences_faults hwell (knows_resolverOf hpends hless) hcol).imp ?_
  rintro e' ⟨id, wanted, hdemands, hfault⟩
  rcases hfault.documented with hdocumented | ⟨type, number, rfl, hleads⟩
  · exact .inl (.inl hdocumented)
  -- the address was stored, since nothing is awaited that was not
  · have hid := hpend.collection.mem_ids hcol₁ (hawaits id hdemands.mem_awaitedIds)
    rcases exists_target_of_leadsToWaiting htakes hpends hless hleads
      with ⟨htracked, hnumber, htarget⟩
    exact .inr ⟨type, number, rfl, ⟨entry, hentry, id, mem_storedIds_of_holds htake.stored hid,
      htracked, hnumber⟩, htarget⟩

end Filled

theorem readFrameSteps_failsOnly (h : WellFormed s) (hids : data.ids.Built) :
    FailsOnly (FailsToRead data) (readFrameSteps data registry config s).1 := by
  have hframe := withNewFrame_get? (s := s) config data
  rcases hput : putAll s.frames.next registry config data.collections
    (s.withNewFrame config data) with ⟨e | ⟨⟩, s₁⟩
  · have hfails : FailsOnly Error.IsOfData (putAll s.frames.next registry config data.collections
        (s.withNewFrame config data)).1 := putAll_failsOnly ⟨_, hframe⟩ data.collections
    rw [hput] at hfails
    rw [readFrameSteps_apply, bind_apply, hput]
    exact .of_error (.inl (hfails e rfl))
  · rcases takes_of_putAll hframe (Frame.isSound_of_slots_nil rfl rfl rfl hids) hput
      with ⟨entries, htakes, hnames⟩
    have hfills : Fills registry config data entries :=
      ⟨htakes, by simpa [Frame.names] using hnames⟩
    rcases hfills.exists_filled h hids with ⟨s₂, frame, hfilled, hrun⟩
    rw [hrun]
    refine bind_failsOnly ?_ fun _ _ _ => .of_ok _
    rw [resolveFrame_apply hfilled.held, resolver_eq_resolverOf hfilled.wellFormed hfilled.held]
    exact resolve_failsOnly htakes hfilled.pends hfilled.wellFormed

theorem readFrame_failsOnly (h : WellFormed s) (hids : data.ids.Built) :
    FailsOnly (FailsToRead data) (readFrame data registry config s).1 := by
  have hsteps : FailsOnly (FailsToRead data) (readFrameSteps data registry config s).1 :=
    readFrameSteps_failsOnly h hids
  unfold readFrame transaction
  rcases hrun : readFrameSteps data registry config s with ⟨e | f, s'⟩
  · rw [hrun] at hsteps
    exact .of_error (hsteps e rfl)
  · exact .of_ok f

/-! ## Every resolution -/

/-- Resolution fails only because of stored addresses, and as it is documented unless one of these
leads to a place of a subset collection that waits itself. -/
structure BlamesAddresses (s : Store) : Prop where
  faults : ∀ resolver, s.Knows resolver → ∀ c col, s.collections.get? c = some col →
    FailsOnly (s.FaultOf resolver col) (setReferences resolver c s).1
  documented : ∀ resolver, s.Knows resolver → ∀ c col, s.collections.get? c = some col →
    FailsOnly (fun e => e.IsOfAddress ∨ ∃ id ∈ awaitedIds col, ∃ type number,
      e = .unresolvedReferences type number ∧ s.LeadsToWaiting resolver id type number)
      (setReferences resolver c s).1
  reading : ∀ data registry config, data.ids.Built →
    FailsOnly (fun e => e.IsOfData ∨ ∃ type number,
      e = .unresolvedReferences type number ∧ MeetsSubset data type number)
      (readFrame data registry config s).1

/-- Whatever the addresses are that were stored, no resolution fails for another reason. -/
theorem blamesAddresses_of_reachable (h : Reachable s) : BlamesAddresses s where
  faults _ hknows _ _ hcol := setReferences_faults h.wellFormed hknows hcol
  documented resolver hknows c col hcol := by
    refine (setReferences_faults h.wellFormed hknows hcol).imp ?_
    rintro e ⟨id, wanted, hdemands, hfault⟩
    exact hfault.documented.imp_right fun hwaiting => ⟨id, hdemands.mem_awaitedIds, hwaiting⟩
  reading _ _ _ hids := readFrame_failsOnly h.wellFormed hids

/-- The numbers of a collection and of a selection from it. -/
def pickedTable : IdTable :=
  ⟨[("nodes", ⟨1⟩), ("picked", ⟨2⟩)], 3⟩

/-- One object that leads to the first place of the selection, and the selection of this object. -/
def pickedData : FrameData where
  ids := pickedTable
  collections := [
    ("nodes", {
      type := "Mesh"
      subset := false
      records := .encode meshType.record [((5 : UInt8), #v[⟨0, 1⟩, ⟨0, 0⟩])]
      relations := [.encode .objectId [⟨0, ⟨2⟩⟩], .encode .objectId [.untracked]]
      members := [.encode .unit []] }),
    ("picked", buffersOfIds meshType [⟨0, ⟨1⟩⟩])]
  parameters := .empty

/-- A selection that names itself. -/
def selfPickedStore : Store :=
  (rebuild meshType (buffersOfIds meshType [⟨0, ⟨7⟩⟩]) ⟨7⟩ {} .empty).2

/-- The frame is read with the selection before the object, but not with the object before the
selection; and a selection of itself is refused as if it had been asked too early. -/
theorem blamesAddresses_selfPickedStore :
    (readFrame pickedData ⟨[meshType]⟩ {} selfPickedStore).1 =
        .error (.unresolvedReferences "Mesh" ⟨2⟩) ∧
      MeetsSubset pickedData "Mesh" ⟨2⟩ ∧
      (readFrame { pickedData with collections := pickedData.collections.reverse } ⟨[meshType]⟩ {}
        selfPickedStore).1 = .ok 0 ∧
      (setReferences meshResolver 0 selfPickedStore).1 =
        .error (.unresolvedReferences "Mesh" ⟨7⟩) ∧
      selfPickedStore.LeadsToWaiting meshResolver ⟨0, ⟨7⟩⟩ "Mesh" ⟨7⟩ := by
  have hreachable : Reachable selfPickedStore :=
    Reachable.empty.step (.rebuild meshType _ ⟨7⟩ {})
  have hblames := blamesAddresses_of_reachable hreachable
  have hpairs : IdTable.ofPairs [("nodes", ⟨1⟩), ("picked", ⟨2⟩)] = .ok pickedTable := by
    decide +kernel
  have hread : (readFrame pickedData ⟨[meshType]⟩ {} selfPickedStore).1 =
      .error (.unresolvedReferences "Mesh" ⟨2⟩) := by decide +kernel
  have hmeets : MeetsSubset pickedData "Mesh" ⟨2⟩ := by
    rcases hblames.reading pickedData ⟨[meshType]⟩ {} (.ofPairs hpairs) _ hread
      with (hfalse | ⟨type, hfalse⟩ | ⟨name, hfalse⟩) | ⟨type, number, heq, hmeets⟩
    · exact hfalse.elim
    · cases hfalse
    · cases hfalse
    · cases heq
      exact hmeets
  have hself : (setReferences meshResolver 0 selfPickedStore).1 =
      .error (.unresolvedReferences "Mesh" ⟨7⟩) := by decide +kernel
  have hknows : selfPickedStore.Knows meshResolver := by
    intro number c hc
    unfold meshResolver at hc
    split at hc
    · cases hc
      exact ⟨_, rfl⟩
    · cases hc
  have hleads : selfPickedStore.LeadsToWaiting meshResolver ⟨0, ⟨7⟩⟩ "Mesh" ⟨7⟩ := by
    have hawaits : (selfPickedStore.collections.get? 0).map awaitedIds = some [⟨0, ⟨7⟩⟩] := by
      decide +kernel
    rcases Option.map_eq_some_iff.1 hawaits with ⟨col, hcol, hids⟩
    rcases hblames.documented meshResolver hknows 0 col hcol _ hself
      with hfalse | ⟨id, hid, type, number, heq, hleads⟩
    · exact hfalse.elim
    · cases heq
      rw [hids] at hid
      rw [List.mem_singleton.1 hid] at hleads
      exact hleads
  exact ⟨hread, hmeets, by decide +kernel, hself, hleads⟩

end Store

end EventModel
