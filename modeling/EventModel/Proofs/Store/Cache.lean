import EventModel.Proofs.Store.Advances
import EventModel.Proofs.Store.Flattened
import EventModel.Proofs.Store.Reachable

/-!
# Prepared buffers

Prepared buffers record the counts of the collections that they depend on. As long as these are
current, flattening the collection again gives the same buffers, so `prepare` always returns what
`flatten` computes in the same store. Counts have no bound here; `Reachable.filter_isCurrentInWords`
says for how long words of 64 bits do the same.
-/

namespace EventModel.Store

variable {s s' : Store} {d : CollectionKey}

/-! ## What a steady collection determines -/

section Steady

variable {k : ObjectKey} {o : Object} {i : Nat}

theorem body_congr (h : s'.objects.get? k = s.objects.get? k) (t : DataType) :
    s'.body t k = s.body t k := by
  simp only [Store.body, object, h]

theorem Steady.get? (steady : Steady s s' d) (ho : s.objects.get? k = some o)
    (htracking : o.tracking = .owned d i) : s'.objects.get? k = s.objects.get? k := by
  rw [ho, steady.objects k o i ho htracking]

theorem Steady.linkId (steady : Steady s s' d) (ho : s.objects.get? k = some o)
    (htracking : o.tracking = .owned d i) : s'.linkId k = s.linkId k := by
  obtain ⟨col, col', hcol, hcol', heq⟩ := steady.collection
  rw [linkId_of_owned ho htracking,
    linkId_of_owned (steady.objects k o i ho htracking) htracking,
    addressOf_of_owned htracking hcol, addressOf_of_owned htracking hcol', heq]

theorem originOf_of_owned {t : DataType} {col : Collection} (ho : s.objects.get? k = some o)
    (htracking : o.tracking = .owned d i) (hcol : s.collections.get? d = some col) :
    s.originOf t k = match col.originAs t with
      | some origin => .ok origin
      | none => .error .unavailable := by
  have howner := owner?_of_tracking htracking
  simp only [Store.originOf, object_eq_ok_iff.2 ho, collection_eq_ok_iff.2 hcol, bind, Except.bind,
    howner]
  rcases col.originAs t with _ | origin <;> rfl

theorem Steady.originOf (steady : Steady s s' d) {t : DataType} (ho : s.objects.get? k = some o)
    (htracking : o.tracking = .owned d i) : s'.originOf t k = s.originOf t k := by
  obtain ⟨col, col', hcol, hcol', heq⟩ := steady.collection
  rw [originOf_of_owned ho htracking hcol,
    originOf_of_owned (steady.objects k o i ho htracking) htracking hcol', heq]
  rfl

theorem Steady.ownerOf? (steady : Steady s s' d) (h : s.ownerOf? k = some d) :
    s'.ownerOf? k = some d := by
  unfold Store.ownerOf? at h ⊢
  rcases ho : s.objects.get? k with _ | o
  · rw [ho] at h
    cases h
  · rw [ho] at h
    obtain ⟨i, htracking⟩ := owner?_eq_some_iff.1 h
    rw [steady.objects k o i ho htracking]
    exact h

end Steady

/-! ## Flattening again -/

theorem mem_dependencies_iff {c : CollectionKey} {col : Collection} :
    d ∈ s.dependencies c col ↔ d = c ∨ ∃ k, (k ∈ col.storage.linked ∨
      ∃ k' ∈ col.storage.objects, k ∈ s.linkedObjects col.type k') ∧ s.ownerOf? k = some d := by
  simp only [dependencies, List.mem_eraseDups, List.mem_cons, List.mem_filterMap, List.mem_append,
    List.mem_flatMap]
  refine or_congr_right (exists_congr fun k => and_congr_left fun _ => or_comm)

theorem ownerOf?_of_tracking {k : ObjectKey} {o : Object} {i : Nat}
    (ho : s.objects.get? k = some o) (htracking : o.tracking = .owned d i) :
    s.ownerOf? k = some d := by
  rw [ownerOf?, ho]
  exact owner?_of_tracking htracking

theorem flattenObjects_congr {t : DataType} {origin : Option (Origin t)} {ks : List ObjectKey}
    (h : ∀ k ∈ ks, ∀ extents position row,
      s.flattenObject t origin extents position k = .ok row →
        s'.flattenObject t origin extents position k = .ok row)
    {extents : Extents t} {position : Nat} {rows : List (Row t)}
    (hrows : s.flattenObjects t origin extents position ks = .ok rows) :
    s'.flattenObjects t origin extents position ks = .ok rows := by
  induction ks generalizing extents position rows with
  | nil => exact hrows
  | cons k rest ih =>
    obtain ⟨row, hrow, hrows⟩ := bind_eq_ok_iff.1 hrows
    obtain ⟨tail, htail, heq⟩ := bind_eq_ok_iff.1 hrows
    refine bind_eq_ok_iff.2 ⟨row, h k List.mem_cons_self extents position row hrow, ?_⟩
    exact bind_eq_ok_iff.2 ⟨tail, ih (fun k' hk' => h k' (List.mem_cons_of_mem k hk')) htail, heq⟩

theorem exists_flattenObject_of_mem {t : DataType} {origin : Option (Origin t)}
    {ks : List ObjectKey} {extents : Extents t} {position : Nat} {rows : List (Row t)}
    (hrows : s.flattenObjects t origin extents position ks = .ok rows) {k : ObjectKey}
    (hk : k ∈ ks) :
    ∃ extents position row, s.flattenObject t origin extents position k = .ok row := by
  induction ks generalizing extents position rows with
  | nil => cases hk
  | cons head rest ih =>
    obtain ⟨row, hrow, hrows⟩ := bind_eq_ok_iff.1 hrows
    obtain ⟨tail, htail, -⟩ := bind_eq_ok_iff.1 hrows
    rcases List.mem_cons.1 hk with rfl | hrest
    · exact ⟨extents, position, row, hrow⟩
    · exact ih htail hrest

/-- Every link of a normal collection that can be flattened leads to an owned object. -/
theorem linkId_of_flattenCollection {col : Collection} {objects : Array ObjectKey}
    {buffers : Buffers} (hstorage : col.storage = .owned objects)
    (hflat : s.flattenCollection col = .ok buffers) {k k' : ObjectKey} (hk : k ∈ objects.toList)
    (hk' : k' ∈ s.linkedObjects col.type k) :
    ∃ o d i, s.objects.get? k' = some o ∧ o.tracking = .owned d i := by
  unfold flattenCollection at hflat
  simp only [hstorage] at hflat
  obtain ⟨rows, hrows, -⟩ := bind_eq_ok_iff.1 hflat
  obtain ⟨extents, position, row, hrow⟩ := exists_flattenObject_of_mem hrows hk
  obtain ⟨body, hflattens⟩ := flattens_of_flattenObject hrow
  obtain ⟨id, hid, htracked⟩ := hflattens.linkId hk'
  obtain ⟨o, d, i, -, ho, htracking, -⟩ := owned_of_linkId hid htracked
  exact ⟨o, d, i, ho, htracking⟩

theorem links_congr {t : DataType} {k : ObjectKey} (horigin : s'.originOf t k = s.originOf t k)
    (body : Body t) (r : Fin t.toMany.length) : s'.links k body r = s.links k body r := by
  unfold links
  rw [horigin]

theorem linkedObjects_congr {t : DataType} {k : ObjectKey} (hbody : s'.body t k = s.body t k)
    (horigin : s'.originOf t k = s.originOf t k) :
    s'.linkedObjects t k = s.linkedObjects t k := by
  simp only [linkedObjects, hbody, links_congr horigin]

theorem Steady.idOf (steady : Steady s s' d) {k : ObjectKey} {o : Object} {i : Nat}
    (ho : s.objects.get? k = some o) (htracking : o.tracking = .owned d i) :
    s'.idOf (some k) = s.idOf (some k) := by
  have hlink := steady.linkId ho htracking
  unfold Store.linkId at hlink
  rwa [show s.existsObject k = true by simp [existsObject, ho, htracking],
    show s'.existsObject k = true by
      simp [existsObject, steady.objects k o i ho htracking, htracking]] at hlink

/-- The object that a stored place leads to is owned by a collection. -/
theorem owned_of_slotId (h : WellFormed s) {c : CollectionKey} {col : Collection}
    {slots : Array Slot} {k : ObjectKey} {id : ObjectId} (hcol : s.collections.get? c = some col)
    (hstorage : col.storage = .subset slots) (hk : .linked k ∈ slots)
    (hid : s.idOf (some k) = .ok id) :
    ∃ o d i, s.objects.get? k = some o ∧ o.tracking = .owned d i := by
  obtain ⟨o, ho, -, hnot⟩ := h.slots c col slots k hcol hstorage hk
  obtain ⟨o', ho', hreleased, -⟩ := idOf_eq_ok hid
  rw [ho] at ho'
  cases ho'
  rcases htracking : o.tracking with n | ⟨d, i⟩ | _
  · exact absurd htracking (hnot n)
  · exact ⟨o, d, i, ho, htracking⟩
  · simp [Object.isReleased, htracking] at hreleased

/-- The object is owned by a collection that is steady. -/
def HasSteadyOwner (s s' : Store) (k : ObjectKey) : Prop :=
  ∃ o d i, s.objects.get? k = some o ∧ o.tracking = .owned d i ∧ Steady s s' d

theorem HasSteadyOwner.linkId {k : ObjectKey} (h : HasSteadyOwner s s' k) :
    s'.linkId k = s.linkId k := by
  obtain ⟨o, d, i, ho, htracking, hsteady⟩ := h
  exact hsteady.linkId ho htracking

theorem HasSteadyOwner.idOf {k : ObjectKey} (h : HasSteadyOwner s s' k) :
    s'.idOf (some k) = s.idOf (some k) := by
  obtain ⟨o, d, i, ho, htracking, hsteady⟩ := h
  exact hsteady.idOf ho htracking

theorem HasSteadyOwner.ownerOf? {k : ObjectKey} (h : HasSteadyOwner s s' k) :
    s'.ownerOf? k = s.ownerOf? k := by
  obtain ⟨o, d, i, ho, htracking, hsteady⟩ := h
  have howner := ownerOf?_of_tracking ho htracking
  rw [hsteady.ownerOf? howner, howner]

section Congr

variable {c : CollectionKey} {col : Collection} {buffers : Buffers}

/-- The same links lead to the same owners. -/
theorem dependencies_congr
    (hlinked : ∀ k ∈ col.storage.objects,
      s'.linkedObjects col.type k = s.linkedObjects col.type k)
    (htargets : ∀ k ∈ col.storage.objects, ∀ k' ∈ s.linkedObjects col.type k,
      HasSteadyOwner s s' k')
    (hplaces : ∀ k ∈ col.storage.linked, HasSteadyOwner s s' k) :
    s'.dependencies c col = s.dependencies c col := by
  unfold dependencies
  rw [List.flatMap_congr hlinked]
  refine congrArg (fun l => (c :: l).eraseDups) (List.filterMap_congr fun k hk => ?_)
  rcases List.mem_append.1 hk with hobject | hplace
  · obtain ⟨k', hk', hlink⟩ := List.mem_flatMap.1 hobject
    exact (htargets k' hk' k hlink).ownerOf?
  · exact (hplaces k hplace).ownerOf?

theorem flattenCollection_congr_owned (h : WellFormed s) {objects : Array ObjectKey}
    (hcol : s.collections.get? c = some col) (hstorage : col.storage = .owned objects)
    (hflat : s.flattenCollection col = .ok buffers)
    (hsteady : ∀ d ∈ s.dependencies c col, Steady s s' d) :
    s'.flattenCollection col = .ok buffers ∧ s'.dependencies c col = s.dependencies c col := by
  have hobjects : col.storage.objects = objects.toList := by rw [hstorage, Storage.objects]
  have hc : Steady s s' c := hsteady c (mem_dependencies_iff.2 (.inl rfl))
  have howned : ∀ k ∈ objects.toList, ∃ o i, s.objects.get? k = some o ∧
      o.tracking = .owned c i := by
    intro k hk
    obtain ⟨i, hi⟩ := Array.getElem?_of_mem (Array.mem_toList_iff.1 hk)
    obtain ⟨o, ho, -, htracking⟩ := h.listed c col objects i k hcol hstorage hi
    exact ⟨o, i, ho, htracking⟩
  -- what was flattened leads to objects with an owner, and the collection depends on it
  have htargets : ∀ k ∈ objects.toList, ∀ k' ∈ s.linkedObjects col.type k,
      HasSteadyOwner s s' k' := by
    intro k hk k' hk'
    obtain ⟨o, d, i, ho, htracking⟩ := linkId_of_flattenCollection hstorage hflat hk hk'
    refine ⟨o, d, i, ho, htracking, hsteady d (mem_dependencies_iff.2 (.inr ⟨k', .inr ?_, ?_⟩))⟩
    · exact ⟨k, by rwa [hobjects], hk'⟩
    · exact ownerOf?_of_tracking ho htracking
  constructor
  · unfold flattenCollection at hflat ⊢
    simp only [hstorage] at hflat ⊢
    obtain ⟨rows, hrows, heq⟩ := bind_eq_ok_iff.1 hflat
    refine bind_eq_ok_iff.2 ⟨rows, flattenObjects_congr ?_ hrows, heq⟩
    intro k hk extents position row hrow
    obtain ⟨o, i, ho, htracking⟩ := howned k hk
    obtain ⟨body, hflattens⟩ := flattens_of_flattenObject hrow
    exact flattenObject_of_flattens (hflattens.congr (body_congr (hc.get? ho htracking) _)
      (hc.originOf ho htracking) fun k' hk' => (htargets k hk k' hk').linkId)
  · refine dependencies_congr ?_ (by rwa [hobjects]) (by simp [hstorage, Storage.linked])
    rw [hobjects]
    intro k hk
    obtain ⟨o, i, ho, htracking⟩ := howned k hk
    exact linkedObjects_congr (body_congr (hc.get? ho htracking) _) (hc.originOf ho htracking)

theorem flattenCollection_congr_subset (h : WellFormed s) {slots : Array Slot}
    (hcol : s.collections.get? c = some col) (hstorage : col.storage = .subset slots)
    (hflat : s.flattenCollection col = .ok buffers)
    (hsteady : ∀ d ∈ s.dependencies c col, Steady s s' d) :
    s'.flattenCollection col = .ok buffers ∧ s'.dependencies c col = s.dependencies c col := by
  have hflatten := hflat
  unfold flattenCollection at hflatten
  simp only [hstorage] at hflatten
  obtain ⟨ids, hids, heq⟩ := bind_eq_ok_iff.1 hflatten
  -- every place that has an address leads to an object with an owner
  have hplaces : ∀ k, .linked k ∈ slots → HasSteadyOwner s s' k := by
    intro k hk
    obtain ⟨id, -, hid⟩ := exists_right_of_forall₂ (mapM_eq_ok_iff.1 hids)
      (Array.mem_toList_iff.2 hk)
    obtain ⟨o, d, i, ho, htracking⟩ := owned_of_slotId h hcol hstorage hk hid
    refine ⟨o, d, i, ho, htracking, hsteady d (mem_dependencies_iff.2 (.inr ⟨k, .inl ?_, ?_⟩))⟩
    · exact (mem_linked_of_subset hstorage).2 hk
    · exact ownerOf?_of_tracking ho htracking
  constructor
  · unfold flattenCollection
    simp only [hstorage]
    refine bind_eq_ok_iff.2 ⟨ids, ?_, heq⟩
    rw [← hids]
    refine mapM_congr fun slot hslot => ?_
    rcases slot with id | k
    · rfl
    · exact (hplaces k (Array.mem_toList_iff.1 hslot)).idOf
  · have hobjects : col.storage.objects = [] := by rw [hstorage, Storage.objects]
    refine dependencies_congr (by simp [hobjects]) (by simp [hobjects]) fun k hk => ?_
    exact hplaces k ((mem_linked_of_subset hstorage).1 hk)

/-- A collection is flattened to the same buffers as long as everything that it depends on is
steady, and then it depends on the same collections. -/
theorem flattenCollection_congr (h : WellFormed s) (hcol : s.collections.get? c = some col)
    (hflat : s.flattenCollection col = .ok buffers)
    (hsteady : ∀ d ∈ s.dependencies c col, Steady s s' d) :
    s'.flattenCollection col = .ok buffers ∧ s'.dependencies c col = s.dependencies c col := by
  rcases hstorage : col.storage with objects | slots
  · exact flattenCollection_congr_owned h hcol hstorage hflat hsteady
  · exact flattenCollection_congr_subset h hcol hstorage hflat hsteady

end Congr

/-! ## The invariant of prepared buffers -/

/-- Buffers that were prepared once: their counts are not ahead, and if these are current, the
buffers are those of the collection as it is now, and every collection that it depends on is
counted. -/
structure Kept (s : Store) (c : CollectionKey) (col : Collection) (p : Prepared) : Prop where
  bound : ∀ stamp ∈ p.stamps, stamp.1 < s.collections.next ∧
    ∀ other, s.collections.get? stamp.1 = some other → stamp.2 ≤ other.generation
  sound : s.isCurrent p = true → s.flattenCollection col = .ok p.buffers ∧
    ∀ d ∈ s.dependencies c col, ∃ generation, (d, generation) ∈ p.stamps

theorem generation?_eq_some_iff {generation : Nat} :
    s.generation? d = some generation ↔
      ∃ col, s.collections.get? d = some col ∧ col.generation = generation := by
  simp [generation?]

theorem mem_stamps_iff {c : CollectionKey} {col : Collection} {generation : Nat} :
    (d, generation) ∈ s.stamps c col ↔
      d ∈ s.dependencies c col ∧ s.generation? d = some generation := by
  simp only [stamps, List.mem_filterMap, Option.map_eq_some_iff, Prod.mk.injEq]
  constructor
  · rintro ⟨d', hd, generation', hgeneration, rfl, rfl⟩
    exact ⟨hd, hgeneration⟩
  · rintro ⟨hd, hgeneration⟩
    exact ⟨d, hd, generation, hgeneration, rfl, rfl⟩

theorem isCurrent_iff {p : Prepared} :
    s.isCurrent p = true ↔ ∀ stamp ∈ p.stamps, s.generation? stamp.1 = some stamp.2 := by
  simp only [isCurrent, List.all_eq_true, beq_iff_eq]

/-- A collection depends on collections that exist. -/
theorem exists_of_mem_dependencies (h : WellFormed s) {c : CollectionKey} {col : Collection}
    (hcol : s.collections.get? c = some col) (hd : d ∈ s.dependencies c col) :
    ∃ other, s.collections.get? d = some other := by
  rcases mem_dependencies_iff.1 hd with rfl | ⟨k, -, howner⟩
  · exact ⟨col, hcol⟩
  · obtain ⟨o, ho, howner⟩ := Option.bind_eq_some_iff.1 howner
    unfold Object.owner? at howner
    split at howner
    · rename_i c' i htracking
      cases howner
      obtain ⟨other, -, hother, -⟩ := h.owner k o d i ho htracking
      exact ⟨other, hother⟩
    · cases howner

theorem Kept.fresh (h : WellFormed s) {c : CollectionKey} {col : Collection} {p : Prepared}
    (hcol : s.collections.get? c = some col) (hstamps : p.stamps = s.stamps c col)
    (hflat : s.flattenCollection col = .ok p.buffers) : Kept s c col p where
  bound stamp hstamp := by
    rw [hstamps] at hstamp
    obtain ⟨-, hgeneration⟩ := mem_stamps_iff.1 hstamp
    obtain ⟨other, hother, heq⟩ := generation?_eq_some_iff.1 hgeneration
    refine ⟨Arena.lt_next_of_get? hother, fun other' hother' => ?_⟩
    rw [hother] at hother'
    cases hother'
    exact Nat.le_of_eq heq.symm
  sound _ := by
    refine ⟨hflat, fun d hd => ?_⟩
    obtain ⟨other, hother⟩ := exists_of_mem_dependencies h hcol hd
    refine ⟨other.generation, ?_⟩
    rw [hstamps]
    exact mem_stamps_iff.2 ⟨hd, generation?_eq_some_iff.2 ⟨other, hother, rfl⟩⟩

/-- A count that is current and was not ahead before has not moved, and so everything that the
collection depends on is steady. -/
theorem Kept.steady_of_isCurrent {c : CollectionKey} {col : Collection} {p : Prepared}
    (kept : Kept s c col p) (hadvances : Advances s s') (hcurrent : s'.isCurrent p = true) :
    s.isCurrent p = true ∧ ∀ d ∈ s.dependencies c col, Steady s s' d := by
  have hstamp : ∀ stamp ∈ p.stamps,
      s.generation? stamp.1 = some stamp.2 ∧ Steady s s' stamp.1 := by
    intro stamp hstamp
    obtain ⟨other', hother', hgeneration⟩ :=
      generation?_eq_some_iff.1 (isCurrent_iff.1 hcurrent stamp hstamp)
    obtain ⟨hlt, hbound⟩ := kept.bound stamp hstamp
    obtain ⟨other, hother, hlater | hsteady⟩ := hadvances.steady stamp.1 other' hother' hlt
    · have hle := hbound other hother
      omega
    · obtain ⟨same, same', hsame, hsame', heq⟩ := hsteady.collection
      rw [hother'] at hsame'
      cases hsame'
      rw [heq] at hgeneration
      exact ⟨generation?_eq_some_iff.2 ⟨same, hsame, hgeneration⟩, hsteady⟩
  have hbefore := isCurrent_iff.2 fun stamp hmem => (hstamp stamp hmem).1
  refine ⟨hbefore, fun d hd => ?_⟩
  obtain ⟨generation, hmem⟩ := (kept.sound hbefore).2 d hd
  exact (hstamp _ hmem).2

theorem Kept.advance (h : WellFormed s) {c : CollectionKey} {col col' : Collection} {p : Prepared}
    (hadvances : Advances s s') (hcol : s.collections.get? c = some col)
    (hcol' : s'.collections.get? c = some col') (kept : Kept s c col p) : Kept s' c col' p where
  bound stamp hstamp := by
    obtain ⟨hlt, hbound⟩ := kept.bound stamp hstamp
    refine ⟨Nat.lt_of_lt_of_le hlt hadvances.next, fun other' hother' => ?_⟩
    obtain ⟨other, hother, hlater | hsteady⟩ := hadvances.steady stamp.1 other' hother' hlt
    · exact Nat.le_trans (hbound other hother) (Nat.le_of_lt hlater)
    · obtain ⟨same, same', hsame, hsame', heq⟩ := hsteady.collection
      rw [hother'] at hsame'
      cases hsame'
      rw [heq]
      exact hbound same hsame
  sound hcurrent := by
    obtain ⟨hbefore, hsteady⟩ := kept.steady_of_isCurrent hadvances hcurrent
    obtain ⟨hflat, hcounted⟩ := kept.sound hbefore
    obtain ⟨hflat', hdependencies⟩ := flattenCollection_congr h hcol hflat hsteady
    obtain ⟨same, same', hsame, hsame', heq⟩ :=
      (hsteady c (mem_dependencies_iff.2 (.inl rfl))).collection
    rw [hcol] at hsame
    cases hsame
    rw [hcol'] at hsame'
    cases hsame'
    rw [heq]
    refine ⟨hflat', fun d hd => hcounted d ?_⟩
    rw [← hdependencies]
    exact hd

/-- All prepared buffers of a store are kept as the invariant says. -/
def KeepsBuffers (s : Store) : Prop :=
  ∀ c col p, s.collections.get? c = some col → col.prepared = some p → Kept s c col p

theorem KeepsBuffers.change {kind : ChangeKind} (h : WellFormed s) (hkeeps : s.KeepsBuffers)
    (change : Change s kind s') : s'.KeepsBuffers := by
  intro c col' p hcol' hp
  have hadvances := change.advances h
  obtain ⟨col, hcol, hold | ⟨hstamps, hflat⟩⟩ := hadvances.prepared c col' p hcol' hp
  · exact (hkeeps c col p hcol hold).advance h hadvances hcol hcol'
  · exact (Kept.fresh h hcol hstamps hflat).advance h hadvances hcol hcol'

theorem Reachable.keepsBuffers (h : Reachable s) : s.KeepsBuffers := by
  refine h.induct ?_ fun _ s s' hwell hkeeps change => KeepsBuffers.change hwell hkeeps change
  intro c col p hcol
  simp [Store.empty, Arena.get?] at hcol

/-- Preparing gives the buffers that flattening computes, whether or not these are kept already. -/
theorem KeepsBuffers.prepare_fst (hkeeps : s.KeepsBuffers) (c : CollectionKey) :
    (prepare c s).1.map (·.2) = s.flatten c := by
  unfold prepare flatten
  rcases hcollection : s.collection c with e | col
  · rfl
  · have hcol := collection_eq_ok_iff.1 hcollection
    change _ = s.flattenCollection col
    dsimp only
    rcases hfilter : col.prepared.filter s.isCurrent with _ | p
    · dsimp only
      rcases s.flattenCollection col with e | buffers <;> rfl
    · obtain ⟨hprepared, hcurrent⟩ := Option.filter_eq_some_iff.1 hfilter
      exact (((hkeeps c col p hcol hprepared).sound hcurrent).1).symm

/-- In every reachable store `prepare` returns the buffers that `flatten` computes, or its error. -/
theorem prepare_eq_flatten (h : Reachable s) (c : CollectionKey) :
    (prepare c s).1.map (·.2) = s.flatten c :=
  h.keepsBuffers.prepare_fst c

/-- Objects that are a single byte. -/
def byteType : DataType where
  name := "Byte"
  payload := .u8
  element := .u8
  toMany := []
  toOne := []
  members := []

/-- A store whose only object was changed after its collection had been prepared. -/
def changedStore : Store :=
  let created := (create byteType 0 (5 : UInt8) (newCollection byteType false {} .empty).2).2
  (updatePayload (t := byteType) ⟨⟨⟨0⟩⟩⟩ (fun _ => (7 : UInt8)) (prepare 0 created).2).2

theorem reachable_changedStore : Reachable changedStore := by
  have hfounded : Reachable (newCollection byteType false {} .empty).2 :=
    .step .empty (.newCollection byteType false {})
  have hcreated := hfounded.step (.create byteType 0 (5 : UInt8) (by decide +kernel))
  exact (hcreated.step (.prepare 0)).step (.updatePayload (t := byteType) ⟨⟨⟨0⟩⟩⟩ _)

/-- The buffers from before the change are still there, and are not used. -/
theorem prepare_eq_flatten_changedStore :
    (changedStore.collections.get? 0).any (·.prepared.isSome) = true ∧
      changedStore.isPrepared 0 = false ∧
      (prepare 0 changedStore).1.map (·.2) = changedStore.flatten 0 := by
  refine ⟨?_, ?_, prepare_eq_flatten reachable_changedStore 0⟩
  · decide +kernel
  · decide +kernel

/-! ## Counts in words of 64 bits -/

/-- The comparison of counts that are kept in words of 64 bits, which start over from zero. -/
def isCurrentInWords (s : Store) (prepared : Prepared) : Bool :=
  prepared.stamps.all fun (c, generation) =>
    (s.generation? c).map UInt64.ofNat == some (UInt64.ofNat generation)

/-- Words tell counts apart unless these differ by a multiple of the number of words. -/
theorem isCurrentInWords_iff {p : Prepared} :
    s.isCurrentInWords p = true ↔ ∀ stamp ∈ p.stamps, ∃ generation,
      s.generation? stamp.1 = some generation ∧ generation % 2 ^ 64 = stamp.2 % 2 ^ 64 := by
  simp only [isCurrentInWords, List.all_eq_true, beq_iff_eq, Option.map_eq_some_iff,
    ← UInt64.toNat_inj, UInt64.toNat_ofNat']

/-- No collection that the buffers count has counted as many changes since as there are words. -/
def IsRecent (s : Store) (p : Prepared) : Prop :=
  ∀ stamp ∈ p.stamps, ∀ generation, s.generation? stamp.1 = some generation →
    generation < stamp.2 + 2 ^ 64

/-- The counts of kept buffers are not ahead, so recent ones that agree as words are the same. -/
theorem Kept.isCurrentInWords_eq {c : CollectionKey} {col : Collection} {p : Prepared}
    (kept : Kept s c col p) (hrecent : s.IsRecent p) : s.isCurrentInWords p = s.isCurrent p := by
  rw [Bool.eq_iff_iff, isCurrentInWords_iff, isCurrent_iff]
  refine forall₂_congr fun stamp hstamp => ⟨?_, fun hsome => ⟨stamp.2, hsome, rfl⟩⟩
  rintro ⟨generation, hsome, hmod⟩
  obtain ⟨other, hother, heq⟩ := generation?_eq_some_iff.1 hsome
  have hle : stamp.2 ≤ generation := heq ▸ (kept.bound stamp hstamp).2 other hother
  have hlt := hrecent stamp hstamp generation hsome
  obtain rfl : generation = stamp.2 := by omega
  exact hsome

/-- `prepare` and `isPrepared` ask for current buffers only, so they do the same with counts in words
until a collection has changed as often as there are words. -/
theorem Reachable.filter_isCurrentInWords (h : Reachable s) {c : CollectionKey} {col : Collection}
    (hcol : s.collections.get? c = some col)
    (hrecent : ∀ p, col.prepared = some p → s.IsRecent p) :
    col.prepared.filter s.isCurrentInWords = col.prepared.filter s.isCurrent := by
  rcases hp : col.prepared with _ | p
  · rfl
  · rw [Option.filter_some, Option.filter_some,
      (h.keepsBuffers c col p hcol hp).isCurrentInWords_eq (hrecent p hp)]

end EventModel.Store
