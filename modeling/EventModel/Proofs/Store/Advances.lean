import EventModel.Proofs.Store.Preservation

/-!
# Counts of changes

Every change of a collection, or of an object that it owns, advances the count of the collection. So
if a count is the same before and after a change, the collection and its objects are the same too.
-/

namespace EventModel.Store

variable {s s' : Store}

/-- The collection `d` and the objects that it owns are the same in both stores, but for prepared
buffers. -/
structure Steady (s s' : Store) (d : CollectionKey) : Prop where
  collection : ∃ col col', s.collections.get? d = some col ∧ s'.collections.get? d = some col' ∧
    col' = { col with prepared := col'.prepared }
  objects : ∀ k o i, s.objects.get? k = some o → o.tracking = .owned d i →
    s'.objects.get? k = some o

/-- What a change does to the collections that existed before. -/
structure Advances (s s' : Store) : Prop where
  next : s.collections.next ≤ s'.collections.next
  /-- A collection counts the change, or nothing of it has changed. -/
  steady : ∀ d col', s'.collections.get? d = some col' → d < s.collections.next →
    ∃ col, s.collections.get? d = some col ∧
      (col.generation < col'.generation ∨ Steady s s' d)
  /-- Prepared buffers were there before or are those of the moment. -/
  prepared : ∀ d col' p, s'.collections.get? d = some col' → col'.prepared = some p →
    ∃ col, s.collections.get? d = some col ∧
      (col.prepared = some p ∨
        p.stamps = s.stamps d col ∧ s.flattenCollection col = .ok p.buffers)

theorem Advances.of_eq (hcollections : s'.collections = s.collections)
    (hobjects : ∀ k o d i, s.objects.get? k = some o → o.tracking = .owned d i →
      s'.objects.get? k = some o) : Advances s s' where
  next := by simp [hcollections]
  steady d col' hcol' _ := by
    have hcol := hcol'
    rw [hcollections] at hcol
    refine ⟨col', hcol, .inr ⟨⟨col', col', hcol, hcol', rfl⟩, ?_⟩⟩
    intro k o i ho htracking
    exact hobjects k o d i ho htracking
  prepared d col' p hcol' hp := by
    rw [hcollections] at hcol'
    exact ⟨col', hcol', .inl hp⟩

/-- One collection counts a change, and only objects that it owns have changed. -/
theorem Advances.of_modify {c : CollectionKey} {f : Collection → Collection}
    (hcollections : s'.collections = s.collections.modify c f)
    (hf : ∀ col, s.collections.get? c = some col → col.generation < (f col).generation ∧
      ((f col).prepared = none ∨ (f col).prepared = col.prepared))
    (hobjects : ∀ k o d i, s.objects.get? k = some o → o.tracking = .owned d i → d ≠ c →
      s'.objects.get? k = some o) : Advances s s' where
  next := by simp [hcollections]
  steady d col' hcol' _ := by
    have hmodified := hcol'
    rw [hcollections] at hmodified
    rcases Arena.get?_modify_eq_some hmodified with ⟨rfl, col, hcol, rfl⟩ | ⟨hne, hcol⟩
    · exact ⟨col, hcol, .inl (hf col hcol).1⟩
    · refine ⟨col', hcol, .inr ⟨⟨col', col', hcol, hcol', rfl⟩, ?_⟩⟩
      intro k o i ho htracking
      exact hobjects k o d i ho htracking hne.symm
  prepared d col' p hcol' hp := by
    rw [hcollections] at hcol'
    rcases Arena.get?_modify_eq_some hcol' with ⟨rfl, col, hcol, rfl⟩ | ⟨-, hcol⟩
    · rcases (hf col hcol).2 with hnone | hsame
      · rw [hnone] at hp
        cases hp
      · exact ⟨col, hcol, .inl (by rw [← hsame, hp])⟩
    · exact ⟨col', hcol, .inl hp⟩

/-- Buffers of one collection are kept or thrown away, and nothing else changes. -/
theorem Advances.of_prepared {c : CollectionKey} {prepared : Option Prepared}
    (hcollections : s'.collections = s.collections.modify c fun col => { col with prepared })
    (hobjects : s'.objects = s.objects)
    (hp : ∀ col p, s.collections.get? c = some col → prepared = some p →
      p.stamps = s.stamps c col ∧ s.flattenCollection col = .ok p.buffers) : Advances s s' where
  next := by simp [hcollections]
  steady d col' hcol' _ := by
    have hmodified := hcol'
    rw [hcollections] at hmodified
    have hkept : ∀ k o i, s.objects.get? k = some o → o.tracking = .owned d i →
        s'.objects.get? k = some o := by
      intro k o i ho _
      rw [hobjects, ho]
    rcases Arena.get?_modify_eq_some hmodified with ⟨rfl, col, hcol, rfl⟩ | ⟨-, hcol⟩
    · exact ⟨col, hcol, .inr ⟨⟨col, _, hcol, hcol', rfl⟩, hkept⟩⟩
    · exact ⟨col', hcol, .inr ⟨⟨col', col', hcol, hcol', rfl⟩, hkept⟩⟩
  prepared d col' p hcol' hsome := by
    rw [hcollections] at hcol'
    rcases Arena.get?_modify_eq_some hcol' with ⟨rfl, col, hcol, rfl⟩ | ⟨-, hcol⟩
    · exact ⟨col, hcol, .inr (hp col p hcol hsome)⟩
    · exact ⟨col', hcol, .inl hsome⟩

theorem not_owned_of_owner? {o : Object} (h : o.owner? = none) (d : CollectionKey) (i : Nat) :
    o.tracking ≠ .owned d i := by
  intro htracking
  rw [owner?_of_tracking htracking] at h
  cases h

/-- Every access counts for the owner of the object, whatever then happens to the object. -/
theorem Advances.of_advanceOwner {k : ObjectKey}
    (hcollections : s'.collections = (s.advanceOwner k).collections)
    (hobjects : ∀ k', k' ≠ k → s'.objects.get? k' = s.objects.get? k') : Advances s s' := by
  unfold advanceOwner at hcollections
  -- only objects with an owner count accesses
  rcases howner : (s.objects.get? k).bind Object.owner? with _ | c
  · rw [howner] at hcollections
    refine .of_eq hcollections ?_
    intro k' o d i ho htracking
    rw [hobjects k', ho]
    rintro rfl
    rw [ho] at howner
    exact not_owned_of_owner? howner d i htracking
  · rw [howner] at hcollections
    refine .of_modify (c := c) (f := Collection.advance) hcollections ?_ ?_
    · intro col _
      exact ⟨Nat.lt_succ_self _, .inr rfl⟩
    · intro k' o d i ho htracking hne
      rw [hobjects k', ho]
      rintro rfl
      rw [ho] at howner
      obtain rfl : d = c := by simpa [owner?_of_tracking htracking] using howner
      exact hne rfl

section AssignAllSingles

variable {t : DataType} {columns : Vector (List (Option ObjectKey)) t.toOne.length}

theorem assignAt_get?_ne {position : Nat} {k k' : ObjectKey} (h : k' ≠ k) :
    (assignAt columns position k s).objects.get? k' = s.objects.get? k' := by
  rcases assignAt_eq columns position k s with heq | ⟨body, -, heq⟩
  · rw [heq]
  · rw [heq, setBody_get?_ne h.symm]

theorem assignAllSingles_get?_of_not_mem {position : Nat} {ks : List ObjectKey} {k : ObjectKey}
    (h : k ∉ ks) : (assignAllSingles columns position ks s).objects.get? k =
      s.objects.get? k := by
  induction ks generalizing position s with
  | nil => rfl
  | cons head rest ih =>
    obtain ⟨hne, hrest⟩ := List.ne_and_not_mem_of_not_mem_cons h
    rw [assignAllSingles_cons, ih hrest, assignAt_get?_ne hne]

end AssignAllSingles

/-! ## Each change -/

variable {c : CollectionKey} {col : Collection}

/-- A collection that is new has no buffers yet. -/
theorem advances_withFounded {bodies : List (Body col.type)} (hprepared : col.prepared = none) :
    Advances s (s.withFounded col bodies) where
  next := by simp
  steady d col' hcol' hlt := by
    have hinsert := hcol'
    rw [withFounded_collections] at hinsert
    rcases Arena.get?_insert_eq_some hinsert with hcol | ⟨rfl, -⟩
    · exact ⟨col', hcol, .inr ⟨⟨col', col', hcol, hcol', rfl⟩,
        fun _ _ _ ho _ => withFounded_get?_of_get? ho⟩⟩
    · exact absurd hlt (Nat.lt_irrefl _)
  prepared d col' p hcol' hp := by
    rw [withFounded_collections] at hcol'
    rcases Arena.get?_insert_eq_some hcol' with hcol | ⟨-, rfl⟩
    · exact ⟨col', hcol, .inl hp⟩
    · rw [hprepared] at hp
      cases hp

theorem advances_withAdopted {k : ObjectKey} {o : Object} {n : UInt32}
    (hcol : s.collections.get? c = some col) (hnormal : col.isSubset = false)
    (hobject : s.objects.get? k = some o) (hfloating : o.tracking = .floating n) :
    Advances s (s.withAdopted c col.size k) := by
  obtain ⟨objects, hstorage⟩ := storage_of_normal hnormal
  refine .of_modify (c := c) rfl ?_ ?_
  · intro col' hcol'
    cases hcol.symm.trans hcol'
    rw [appendOwned_of_owned hstorage]
    exact ⟨Nat.lt_succ_self _, .inl rfl⟩
  · intro k' o' d i ho' htracking _
    rw [withAdopted_get?_ne _ c col.size, ho']
    rintro rfl
    cases hobject.symm.trans ho'
    cases hfloating.symm.trans htracking

/-- The objects that are released belonged to the collection that is emptied. -/
theorem advances_withReset (h : WellFormed s) (subset : Bool)
    (hcol : s.collections.get? c = some col) : Advances s (s.withReset c col subset) := by
  refine .of_modify (c := c) (by rw [withReset, modifyCollection_collections,
    releaseAll_collections]) ?_ ?_
  · intro col' _
    exact ⟨Nat.lt_succ_self _, .inl rfl⟩
  · intro k o d i ho htracking hne
    rw [withReset_get?, if_neg, ho]
    rw [h.mem_objects_iff hcol ho, owner?_of_tracking htracking]
    exact fun heq => hne (Option.some.inj heq)

theorem advances_erase (s : Store) (c : CollectionKey) :
    Advances s { s with collections := s.collections.erase c } where
  next := by simp
  steady d col' hcol' _ := by
    obtain ⟨-, hold⟩ := Arena.get?_erase_eq_some hcol'
    exact ⟨col', hold, .inr ⟨⟨col', col', hold, hcol', rfl⟩, fun _ _ _ ho _ => ho⟩⟩
  prepared d col' p hcol' hp :=
    ⟨col', (Arena.get?_erase_eq_some hcol').2, .inl hp⟩

/-- The objects whose to-one relations are set belong to the collection that is resolved. -/
theorem advances_resolveOwned (h : WellFormed s) {objects : Array ObjectKey}
    (hcol : s.collections.get? c = some col) (hstorage : col.storage = .owned objects)
    (one : Vector (List (Option ObjectKey)) col.type.toOne.length) (origin : Origin col.type) :
    Advances s ((assignAllSingles one 0 objects.toList s).modifyCollection c
      (withColumns · origin)) := by
  refine .of_modify (c := c) (by rw [modifyCollection_collections,
    assignAllSingles_collections]) ?_ ?_
  · intro col' hcol'
    cases hcol.symm.trans hcol'
    rw [withColumns_self]
    exact ⟨Nat.lt_succ_self _, .inr rfl⟩
  · intro k o d i ho htracking hne
    rw [modifyCollection_objects, assignAllSingles_get?_of_not_mem, ho]
    have hobjects : objects.toList = col.storage.objects := by
      rw [hstorage]
      rfl
    rw [hobjects, h.mem_objects_iff hcol ho, owner?_of_tracking htracking]
    exact fun heq => hne (Option.some.inj heq)

theorem Change.advances {kind : ChangeKind} (h : WellFormed s) (change : Change s kind s') :
    Advances s s' := by
  cases change
  case hold target _ =>
    refine .of_eq (by simp) fun k o d i ho htracking => ?_
    exact (quiet_withHandle s target).object_of_not_floating ho (by simp [htracking])
  case unlink r k _ =>
    refine .of_eq rfl fun k' o d i ho htracking => ?_
    exact (quiet_withoutTarget s r.key k).object_of_not_floating ho (by simp [htracking])
  case forget => exact .of_eq rfl fun _ _ _ _ ho _ => ho
  case newObject t payload =>
    refine .of_eq (by simp [withNewObject]) fun k o d i ho htracking => ?_
    exact (quiet_withHandle _ _).object_of_not_floating (Arena.get?_insert_of_get? ho)
      (by simp [htracking])
  case access k => exact .of_advanceOwner rfl fun _ _ => by rw [advanceOwner_objects]
  case edit k old new _ _ _ _ _ | setPlace k old _ _ _ _ =>
    refine .of_advanceOwner (k := k) (by simp) fun k' hk' => ?_
    rw [setBody_get?_ne hk'.symm, advanceOwner_objects]
  case found hprepared _ _ => exact advances_withFounded hprepared
  case adopt hcol hnormal hobject _ hfloating _ =>
    exact advances_withAdopted hcol hnormal hobject hfloating
  case enlist c k col o owner position _ hcol hsubset _ _ _ =>
    obtain ⟨slots, hstorage⟩ := storage_of_isSubset hsubset
    refine .of_modify (c := c) rfl ?_ fun _ _ _ _ ho _ _ => ho
    intro col' hcol'
    cases hcol.symm.trans hcol'
    rw [appendSlot_of_subset hstorage]
    exact ⟨Nat.lt_succ_self _, .inl rfl⟩
  case reset subset _ hcol => exact advances_withReset h subset hcol
  case remove c _ _ _ _ => exact advances_erase s c
  case renumber c id _ =>
    refine .of_modify (c := c) rfl ?_ fun _ _ _ _ ho _ _ => ho
    intro col _
    exact ⟨Nat.lt_succ_self _, .inl rfl⟩
  case resolveSubset c col origin slots linked hcol _ _ _ _ =>
    refine .of_modify (c := c) rfl ?_ fun _ _ _ _ ho _ _ => ho
    intro col' hcol'
    cases hcol.symm.trans hcol'
    rw [withColumns_self]
    exact ⟨Nat.lt_succ_self _, .inr rfl⟩
  case resolveOwned one hcol hstorage _ _ _ _ _ =>
    exact advances_resolveOwned h hcol hstorage one _
  case keep c col buffers hcol hflat =>
    refine .of_prepared (c := c) rfl rfl ?_
    rintro col' p hcol' ⟨⟩
    cases hcol.symm.trans hcol'
    exact ⟨rfl, hflat⟩
  case unkeep c => exact .of_prepared (c := c) rfl rfl (by simp)
  -- frames have no count
  case newFrame => exact .of_eq rfl fun _ _ _ _ ho _ => ho
  case adoptIds => exact .of_eq rfl fun _ _ _ _ ho _ => ho
  case setParameters => exact .of_eq rfl fun _ _ _ _ ho _ => ho
  case putSlot => exact .of_eq rfl fun _ _ _ _ ho _ => ho
  case takeSlot => exact .of_eq rfl fun _ _ _ _ ho _ => ho
  case eraseFrame => exact .of_eq rfl fun _ _ _ _ ho _ => ho

end EventModel.Store
