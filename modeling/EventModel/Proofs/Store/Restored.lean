import EventModel.Proofs.Store.Stored

/-!
# Restored collections

A collection that was rebuilt from a flat form waits until its addresses are resolved, and is
restored from then on: its objects have the payloads and members of their rows, and links to the
objects that a resolver finds for the addresses in their rows. Resolving further collections keeps
it restored.
-/

namespace EventModel.Store

variable {s s' s'' : Store} {t : DataType} {c : CollectionKey} {id : CollectionId}
  {resolver : Resolver} {flat : Flat t} {stored : Stored t}

/-- The collection was rebuilt from a flat form, perhaps under another number, and waits for
resolution. -/
inductive Waits (s : Store) (c : CollectionKey) (t : DataType) (id : CollectionId) : Flat t → Prop
  | owned {keys : List ObjectKey} {rows : List (Row t)} {origin : CollectionId}
      (hstands : s.Stands c t id (.owned keys.toArray)
        (some ⟨origin, .stored (contentsOfRows rows).toMany (contentsOfRows rows).toOne⟩))
      (howns : s.Owns c keys (rows.map Row.body)) (htiles : RowsTile rows) :
      Waits s c t id (.owned rows)
  | subset {ids : List ObjectId} {origin : CollectionId} (hpending : s.IsPending c t id origin ids) :
      Waits s c t id (.subset ids)

/-- The object has the payload and the members of a row, and links in the place of its addresses. -/
structure Restores (s : Store) (resolver : Resolver) (k : ObjectKey) (row : Row t) (body : Body t) :
    Prop where
  payload : body.payload = Record.payload row.record
  members : body.members = row.members
  toMany : ∀ r : Fin t.toMany.length, ∃ ks, s.links k body r = .ok ks ∧
    List.Forall₂ (s.Resolves resolver (t.toMany.get r).target) row.toMany[r] ks
  toOne : ∀ r : Fin t.toOne.length,
    s.ResolvesOptional resolver (t.toOne.get r).target row.toOne[r] body.toOne[r]

/-- The collection has what a flat form says, with links in the place of addresses. -/
inductive Restored (s : Store) (resolver : Resolver) (c : CollectionKey) (t : DataType)
    (id : CollectionId) : Flat t → Prop
  | owned {keys : List ObjectKey} {rows : List (Row t)} {origin : CollectionId}
      {many : Vector (List ObjectKey) t.toMany.length}
      (hstands : s.Stands c t id (.owned keys.toArray) (some ⟨origin, .resolved many⟩))
      (hlength : keys.length = rows.length)
      (hobjects : ∀ (i : Nat) k row, keys[i]? = some k → rows[i]? = some row →
        ∃ body, s.objects.get? k = some ⟨t, .owned c i, body⟩ ∧
          s.Restores resolver k row body) : Restored s resolver c t id (.owned rows)
  | subset {ids : List ObjectId} {ks : List ObjectKey} {origin : Option (Origin t)}
      (hstands : s.Stands c t id (.subset (ks.map Slot.linked).toArray) origin)
      (hslots : List.Forall₂ (s.ResolvesSlot resolver t) ids ks)
      -- no place is resolved to another place of the same collection
      (hother : ∀ id' ∈ ids, resolver id'.collection ≠ some c) :
      Restored s resolver c t id (.subset ids)

/-- Only some collections have changed, and whatever a place led to, it still leads to. -/
structure SettlesWithin (s s' : Store) (cs : List CollectionKey) : Prop where
  settles : Settles s s'
  steady : ∀ d col, d ∉ cs → s.collections.get? d = some col → Steady s s' d
  frames : s'.frames = s.frames

/-! ## What stays -/

theorem SettlesWithin.trans {cs ds : List CollectionKey} (h : SettlesWithin s s' cs)
    (h' : SettlesWithin s' s'' ds) : SettlesWithin s s'' (cs ++ ds) where
  settles := h.settles.trans h'.settles
  steady d col hd hcol := by
    rw [List.mem_append, not_or] at hd
    have hsteady := h.steady d col hd.1 hcol
    rcases hsteady.collection with ⟨-, col', -, hcol', -⟩
    exact hsteady.trans (h'.steady d col' hd.2 hcol')
  frames := h'.frames.trans h.frames

theorem Restored.exists_collection (h : s.Restored resolver c t id flat) :
    ∃ col, s.collections.get? c = some col ∧ col.id = id := by
  cases h with
  | owned hstands _ _ =>
    rcases hstands.collection with ⟨col, hcol, -, hid, -⟩
    exact ⟨col, hcol, hid⟩
  | subset hstands _ _ =>
    rcases hstands.collection with ⟨col, hcol, -, hid, -⟩
    exact ⟨col, hcol, hid⟩

theorem Restores.settles {k : ObjectKey} {row : Row t} {body : Body t} {i : Nat}
    (h : s.Restores resolver k row body) (hk : s.objects.get? k = some ⟨t, .owned c i, body⟩)
    (hsteady : Steady s s' c) (hsettles : Settles s s') : s'.Restores resolver k row body where
  payload := h.payload
  members := h.members
  toMany r := by
    rcases h.toMany r with ⟨ks, hks, hresolves⟩
    have horigin : s'.originOf t k = s.originOf t k := hsteady.originOf hk rfl
    refine ⟨ks, ?_, hresolves.imp fun _ _ hk => hk.settles hsettles⟩
    rw [links_congr horigin, hks]
  toOne r := (h.toOne r).settles hsettles

theorem Restored.settles (h : s.Restored resolver c t id flat) (hsteady : Steady s s' c)
    (hsettles : Settles s s') : s'.Restored resolver c t id flat := by
  cases h with
  | owned hstands hlength hobjects =>
    refine .owned (hsteady.stands hstands) hlength ?_
    intro i k row hk hrow
    rcases hobjects i k row hk hrow with ⟨body, hbody, hrestores⟩
    exact ⟨body, hsteady.objects k _ i hbody rfl, hrestores.settles hbody hsteady hsettles⟩
  | subset hstands hslots hother =>
    exact .subset (hsteady.stands hstands)
      (hslots.imp fun _ _ hk => hk.settles hsettles) hother

/-! ## Resolving one collection -/

/-- A window selects related elements of related columns. -/
theorem exists_slice_of_forall₂ {α β : Type} {R : α → β → Prop} {xs segment : List α}
    {ys : List β} (h : List.Forall₂ R xs ys) {w : Window} (hslice : w.slice xs = .ok segment) :
    ∃ ys', w.slice ys = .ok ys' ∧ List.Forall₂ R segment ys' := by
  rcases bind_eq_ok_iff.1 hslice with ⟨bounds, hbounds, hsegment⟩
  rw [h.length_eq] at hbounds
  refine ⟨(ys.drop bounds.1).take (bounds.2 - bounds.1),
    bind_eq_ok_iff.2 ⟨bounds, hbounds, rfl⟩, ?_⟩
  rw [← Except.ok.inj hsegment]
  exact List.forall₂_take _ (List.forall₂_drop _ h)

/-- Windows that selected addresses from a column select the links in their places. -/
theorem Stands.exists_links {storage : Storage} {origin : CollectionId}
    {toMany : Vector (List ObjectId) t.toMany.length}
    {many : Vector (List ObjectKey) t.toMany.length} {record : Record t} {ids : List ObjectId}
    {k : ObjectKey} {i : Nat} {body : Body t} {R : ObjectId → ObjectKey → Prop}
    (hstands : s.Stands c t id storage (some ⟨origin, .resolved many⟩))
    (ho : s.objects.get? k = some ⟨t, .owned c i, body⟩)
    (hwindows : body.toMany = .windows (Vector.ofFn (Contents.relationWindow record)))
    {r : Fin t.toMany.length} (hfinds : List.Forall₂ R toMany[r] many[r])
    (hslice : (Contents.relationWindow record r).slice toMany[r] = .ok ids) :
    ∃ ks, s.links k body r = .ok ks ∧ List.Forall₂ R ids ks := by
  rcases exists_slice_of_forall₂ hfinds hslice with ⟨ks, hks, hresolves⟩
  refine ⟨ks, ?_, hresolves⟩
  have hwindow : (Vector.ofFn (Contents.relationWindow record))[r] =
      Contents.relationWindow record r := by simp
  rw [links, hwindows]
  refine bind_eq_ok_iff.2 ⟨_, hstands.originOf ho, ?_⟩
  rw [hwindow]
  exact hks

theorem restored_withLinks {keys : List ObjectKey} {contents : Contents t} {origin : CollectionId}
    {many : Vector (List ObjectKey) t.toMany.length}
    {one : Vector (List (Option ObjectKey)) t.toOne.length}
    (hstands : s.Stands c t id (.owned keys.toArray)
      (some ⟨origin, .stored contents.toMany contents.toOne⟩))
    (howns : s.Owns c keys (contents.rows.map Row.body))
    (hfits : ∀ record ∈ contents.records, contents.Fits record)
    (hsingles : ∀ r : Fin t.toOne.length, contents.toOne[r].length = contents.records.length)
    (hfinds : s.FindsLinks resolver contents.toMany contents.toOne many one) :
    (s.withLinks c keys origin many one).Restored resolver c t id (.owned contents.rows) := by
  have hsettles := @settles_withLinks s t c id origin keys _ _ many one _ hstands howns
  have hlinked := @stands_withLinks s t c id origin keys _ _ many one hstands
  have hlength : keys.length = contents.rows.length := howns.length.trans (List.length_map _)
  refine .owned hlinked hlength ?_
  intro i k row hk hrow
  have hbody : (contents.rows.map Row.body)[i]? = some row.body := by
    rw [List.getElem?_map, hrow]
    rfl
  rcases Contents.getElem?_rows hrow with ⟨record, hrecord, rfl⟩
  have hobject := @withLinks_get? s t c origin keys many one _ howns i k _ hk hbody
  refine ⟨_, hobject, rfl, rfl, ?_, ?_⟩
  · intro r
    have hslice := (hfits record (List.mem_of_getElem? hrecord)).slice i r
    rcases hlinked.exists_links hobject rfl (hfinds.many r) hslice with ⟨ks, hks, hresolves⟩
    exact ⟨ks, hks, hresolves.imp fun _ _ hk => hk.settles hsettles⟩
  · intro r
    have hid := Contents.getElem?_toOne hrecord (hsingles r)
    rcases getElem?_of_forall₂ (hfinds.one r) hid with ⟨place, hplace, hresolves⟩
    rw [assignSingles_getElem, hplace]
    exact hresolves.settles hsettles

theorem restored_withPlaces {ids : List ObjectId} {ks : List ObjectKey} {origin : CollectionId}
    (hpending : s.IsPending c t id origin ids)
    (hfinds : List.Forall₂ (s.ResolvesSlot resolver t) ids ks) :
    (s.withPlaces c t origin ks).Restored resolver c t id (.subset ids) := by
  have hsettles := @settles_withPlaces s t c id origin ids ks hpending
  refine .subset (stands_withPlaces hpending) (hfinds.imp fun _ _ hk => hk.settles hsettles) ?_
  -- while the collection is resolved, none of its own places leads to an object
  intro id' hid' hself
  rcases exists_right_of_forall₂ hfinds hid' with ⟨k, -, hk, -⟩
  rcases resolveObject_eq_ok_iff.1 hk.object with ⟨c', col, i, hresolver, hcol, -, hplace⟩
  cases hself.symm.trans hresolver
  exact hpending.not_place hcol hplace

/-- The resolver finds an object for every address that is stored. -/
inductive FindsAll (s : Store) (resolver : Resolver) (t : DataType) : Stored t → Prop
  | owned {contents : Contents t}
      (htoMany : ∀ (r : Fin t.toMany.length), ∀ id ∈ contents.toMany[r],
        ∃ k, s.Resolves resolver (t.toMany.get r).target id k)
      (htoOne : ∀ (r : Fin t.toOne.length), ∀ id ∈ contents.toOne[r],
        ∃ place, s.ResolvesOptional resolver (t.toOne.get r).target id place) :
      FindsAll s resolver t (.owned contents)
  | subset {ids : List ObjectId} (hids : ∀ id ∈ ids, ∃ k, s.ResolvesSlot resolver t id k) :
      FindsAll s resolver t (.subset ids)

/-- Links are found for all columns if an object is found for each address. -/
theorem exists_findsLinks_iff {contents : Contents t} :
    (∃ many one, s.FindsLinks resolver contents.toMany contents.toOne many one) ↔
      s.FindsAll resolver t (.owned contents) := by
  constructor
  · rintro ⟨many, one, hfinds⟩
    refine .owned ?_ ?_
    · intro r id hid
      rcases exists_right_of_forall₂ (hfinds.many r) hid with ⟨k, -, hk⟩
      exact ⟨k, hk⟩
    · intro r id hid
      rcases exists_right_of_forall₂ (hfinds.one r) hid with ⟨place, -, hplace⟩
      exact ⟨place, hplace⟩
  · rintro ⟨htoMany, htoOne⟩
    choose many hmany using fun r => exists_forall₂ (htoMany r)
    choose one hone using fun r => exists_forall₂ (htoOne r)
    refine ⟨Vector.ofFn many, Vector.ofFn one, ?_, ?_⟩
    · intro r
      simpa using hmany r
    · intro r
      simpa using hone r

theorem exists_resolvesSlots_iff {ids : List ObjectId} :
    (∃ ks, List.Forall₂ (s.ResolvesSlot resolver t) ids ks) ↔
      s.FindsAll resolver t (.subset ids) := by
  constructor
  · rintro ⟨ks, hfinds⟩
    refine .subset ?_
    intro id hid
    rcases exists_right_of_forall₂ hfinds hid with ⟨k, -, hk⟩
    exact ⟨k, hk⟩
  · rintro (_ | hids)
    exact exists_forall₂ hids

/-- What a successful resolution of a collection leads to. -/
theorem Pends.setReferences (h : WellFormed s) (hpends : s.Pends c t id stored)
    (hrun : Store.setReferences resolver c s = (.ok (), s')) :
    s'.Restored resolver c t id stored.flat ∧ SettlesWithin s s' [c] ∧
      s.FindsAll resolver t stored := by
  cases hpends with
  | owned hstands howns hfits hsingles =>
    rcases (setReferences_owned_eq_ok_iff h hstands).1 hrun with ⟨many, one, hfinds, rfl⟩
    refine ⟨restored_withLinks hstands howns hfits hsingles hfinds,
      ⟨settles_withLinks hstands howns, ?_, ?_⟩, exists_findsLinks_iff.1 ⟨many, one, hfinds⟩⟩
    · intro d col hd hcol
      exact steady_withLinks howns (List.ne_of_not_mem_cons hd) hcol
    · simp [withLinks]
  | subset hpending =>
    rcases (setReferences_pending_eq_ok_iff h hpending).1 hrun with ⟨ks, hfinds, rfl⟩
    refine ⟨restored_withPlaces hpending hfinds, ⟨settles_withPlaces hpending, ?_, ?_⟩,
      exists_resolvesSlots_iff.1 ⟨ks, hfinds⟩⟩
    · intro d col hd hcol
      exact steady_withPlaces (List.ne_of_not_mem_cons hd) hcol
    · simp [withPlaces]

/-! ## When resolution succeeds -/

theorem FindsAll.settles (h : s.FindsAll resolver t stored) (hsettles : Settles s s') :
    s'.FindsAll resolver t stored := by
  cases h with
  | owned htoMany htoOne =>
    refine .owned ?_ ?_
    · intro r id hid
      rcases htoMany r id hid with ⟨k, hk⟩
      exact ⟨k, hk.settles hsettles⟩
    · intro r id hid
      rcases htoOne r id hid with ⟨place, hplace⟩
      exact ⟨place, hplace.settles hsettles⟩
  | subset hids =>
    refine .subset ?_
    intro id hid
    rcases hids id hid with ⟨k, hk⟩
    exact ⟨k, hk.settles hsettles⟩

theorem Pends.exists_setReferences (h : WellFormed s) (hpends : s.Pends c t id stored)
    (hfinds : s.FindsAll resolver t stored) :
    ∃ s', Store.setReferences resolver c s = (.ok (), s') := by
  cases hpends with
  | @owned keys contents origin hstands howns hfits hsingles =>
    rcases exists_findsLinks_iff.2 hfinds with ⟨many, one, hlinks⟩
    exact ⟨_, (setReferences_owned_eq_ok_iff h hstands).2 ⟨many, one, hlinks, rfl⟩⟩
  | subset hpending =>
    rcases exists_resolvesSlots_iff.2 hfinds with ⟨ks, hks⟩
    exact ⟨_, (setReferences_pending_eq_ok_iff h hpending).2 ⟨ks, hks, rfl⟩⟩

/-! ## Resolving all collections -/

section All

variable {slots : List (String × CollectionKey)} {entries : List StoredCollection}

theorem forall₂_pendsAs_settlesWithin {cs : List CollectionKey} (hwithin : SettlesWithin s s' cs)
    (hnot : ∀ d ∈ slots.map (·.2), d ∉ cs) (h : List.Forall₂ s.PendsAs slots entries) :
    List.Forall₂ s'.PendsAs slots entries := by
  induction h with
  | nil => exact .nil
  | @cons slot e slots entries hhead _ ih =>
    rcases hhead.collection.exists_collection with ⟨col, hcol, -⟩
    have hsteady := hwithin.steady slot.2 col (hnot slot.2 List.mem_cons_self) hcol
    refine .cons ⟨hhead.name, hhead.collection.steady hsteady⟩ (ih ?_)
    intro d hd
    exact hnot d (List.mem_cons_of_mem slot.2 hd)

theorem wellFormed_setReferences (h : WellFormed s)
    (hrun : setReferences resolver c s = (.ok (), s')) : WellFormed s' := by
  have hchanges := setReferences_changes h resolver c
  rw [hrun] at hchanges
  exact hchanges.wellFormed h

/-- Collections that are resolved one after the other are all restored in the end. -/
theorem forEach_setReferences_restored (h : WellFormed s)
    (hpends : List.Forall₂ s.PendsAs slots entries) (hnodup : (slots.map (·.2)).Nodup)
    (hrun : forEach (setReferences resolver) (slots.map (·.2)) s = (.ok (), s')) :
    List.Forall₂ (Names (s'.Restored resolver)) slots (entries.map StoredCollection.flat) ∧
      SettlesWithin s s' (slots.map (·.2)) := by
  -- on the collections that are left to resolve
  induction slots generalizing s entries with
  | nil =>
    cases hpends
    cases hrun
    exact ⟨.nil, .refl _, fun d col _ hcol => .refl hcol, rfl⟩
  | cons slot slots ih =>
    rcases List.forall₂_cons_left_iff.1 hpends with ⟨e, entries, hhead, hrest, rfl⟩
    rcases List.nodup_cons.1 hnodup with ⟨hslot, hslots⟩
    rcases bind_eq_ok hrun with ⟨⟨⟩, s₁, hfirst, hothers⟩
    rcases hhead.collection.setReferences h hfirst with ⟨hrestored, hwithin, -⟩
    have hnot : ∀ d ∈ slots.map (·.2), d ∉ [slot.2] := by
      intro d hd hmem
      rw [List.mem_singleton.1 hmem] at hd
      exact hslot hd
    have hpends₁ := forall₂_pendsAs_settlesWithin hwithin hnot hrest
    rcases ih (wellFormed_setReferences h hfirst) hpends₁ hslots hothers with ⟨hall, hwithin'⟩
    rcases hrestored.exists_collection with ⟨col, hcol, -⟩
    -- what is resolved stays so while the others are resolved
    have hsteady := hwithin'.steady slot.2 col hslot hcol
    exact ⟨.cons ⟨hhead.name, hrestored.settles hsteady hwithin'.settles⟩ hall,
      hwithin.trans hwithin'⟩

theorem exists_forEach_setReferences (h : WellFormed s)
    (hpends : List.Forall₂ s.PendsAs slots entries) (hnodup : (slots.map (·.2)).Nodup)
    (hfinds : ∀ e ∈ entries, s.FindsAll resolver e.type e.stored) :
    ∃ s', forEach (setReferences resolver) (slots.map (·.2)) s = (.ok (), s') := by
  induction slots generalizing s entries with
  | nil => exact ⟨s, rfl⟩
  | cons slot slots ih =>
    rcases List.forall₂_cons_left_iff.1 hpends with ⟨e, entries, hhead, hrest, rfl⟩
    rcases List.nodup_cons.1 hnodup with ⟨hslot, hslots⟩
    rcases hhead.collection.exists_setReferences h (hfinds e List.mem_cons_self) with ⟨s₁, hfirst⟩
    rcases hhead.collection.setReferences h hfirst with ⟨-, hwithin, -⟩
    have hnot : ∀ d ∈ slots.map (·.2), d ∉ [slot.2] := by
      intro d hd hmem
      rw [List.mem_singleton.1 hmem] at hd
      exact hslot hd
    -- resolving a collection leaves all objects to be found
    have hfinds₁ : ∀ e ∈ entries, s₁.FindsAll resolver e.type e.stored := by
      intro other hother
      exact (hfinds other (List.mem_cons_of_mem e hother)).settles hwithin.settles
    rcases ih (wellFormed_setReferences h hfirst)
      (forall₂_pendsAs_settlesWithin hwithin hnot hrest) hslots hfinds₁ with ⟨s', hothers⟩
    refine ⟨s', ?_⟩
    rw [List.map_cons, forEach, bind_apply_of_ok hfirst]
    exact hothers

end All

/-! ## Flat forms -/

theorem Waits.pends (h : s.Waits c t id flat) : s.Pends c t id flat.stored := by
  cases h with
  | @owned keys rows origin hstands howns htiles =>
    refine .owned hstands ?_ ?_ ?_
    · rwa [Contents.rows_contentsOfRows htiles]
    · intro record hrecord
      rcases List.mem_map.1 hrecord with ⟨row, hrow, rfl⟩
      exact ((Contents.body_eq_ok_iff 0).1 (body_contentsOfRows htiles hrow)).1
    · intro r
      simp [contentsOfRows]
  | subset hpending => exact .subset hpending

theorem Waits.isTiled (h : s.Waits c t id flat) : flat.IsTiled := by
  cases h with
  | owned _ _ htiles => exact htiles
  | subset _ => trivial

theorem Pends.waits (h : s.Pends c t id flat.stored) (htiled : flat.IsTiled) :
    s.Waits c t id flat := by
  cases flat with
  | owned rows =>
    cases h with
    | owned hstands howns _ _ =>
      rw [Contents.rows_contentsOfRows htiled] at howns
      exact .owned hstands howns htiled
  | subset ids =>
    cases h with
    | subset hpending => exact .subset hpending

theorem Waits.exists_collection (h : s.Waits c t id flat) :
    ∃ col, s.collections.get? c = some col ∧ col.id = id :=
  h.pends.exists_collection

/-- What a successful resolution of a waiting collection leads to. -/
theorem Waits.setReferences (h : WellFormed s) (hwaits : s.Waits c t id flat)
    (hrun : Store.setReferences resolver c s = (.ok (), s')) :
    s'.Restored resolver c t id flat ∧ SettlesWithin s s' [c] := by
  rcases hwaits.pends.setReferences h hrun with ⟨hrestored, hwithin, -⟩
  rw [Flat.flat_stored hwaits.isTiled] at hrestored
  exact ⟨hrestored, hwithin⟩

/-- The resolver finds an object for every address of a flat form. -/
inductive Answers (s : Store) (resolver : Resolver) (t : DataType) : Flat t → Prop
  | owned {rows : List (Row t)}
      (htoMany : ∀ (r : Fin t.toMany.length), ∀ row ∈ rows, ∀ id ∈ row.toMany[r],
        ∃ k, s.Resolves resolver (t.toMany.get r).target id k)
      (htoOne : ∀ (r : Fin t.toOne.length), ∀ row ∈ rows,
        ∃ place, s.ResolvesOptional resolver (t.toOne.get r).target row.toOne[r] place) :
      Answers s resolver t (.owned rows)
  | subset {ids : List ObjectId} (hids : ∀ id ∈ ids, ∃ k, s.ResolvesSlot resolver t id k) :
      Answers s resolver t (.subset ids)

theorem Answers.findsAll (h : s.Answers resolver t flat) : s.FindsAll resolver t flat.stored := by
  cases h with
  | @owned rows htoMany htoOne =>
    refine .owned ?_ ?_
    · intro r id hid
      have hmem : id ∈ rows.flatMap (·.toMany[r]) := by simpa [contentsOfRows] using hid
      rcases List.mem_flatMap.1 hmem with ⟨row, hrow, hid⟩
      exact htoMany r row hrow id hid
    · intro r id hid
      have hmem : id ∈ rows.map (·.toOne[r]) := by simpa [contentsOfRows] using hid
      rcases List.mem_map.1 hmem with ⟨row, hrow, rfl⟩
      exact htoOne r row hrow
  | subset hids => exact .subset hids

end EventModel.Store
