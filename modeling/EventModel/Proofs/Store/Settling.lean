import EventModel.Proofs.Store.Flat

/-!
# Resolving one collection

`setReferences` either finds an object for every stored address of a collection and puts links in
their place, or it fails. The lemmas below say which store a success leads to, and that nothing but
the collection and its own objects is touched.
-/

namespace EventModel.Store

variable {s s' : Store} {t : DataType} {c : CollectionKey} {id origin : CollectionId}
  {resolver : Resolver}

/-! ## To-one relations -/

section AssignAllSingles

variable {columns : Vector (List (Option ObjectKey)) t.toOne.length}

/-- Each listed object gets what the columns hold for its position. -/
theorem assignAllSingles_get?_of_getElem? {ks : List ObjectKey} (hnodup : ks.Nodup)
    {position i : Nat} {k : ObjectKey} {tracking : Tracking} {body : Body t}
    (hk : ks[i]? = some k) (ho : s.objects.get? k = some ⟨t, tracking, body⟩)
    (htracking : tracking ≠ .released) :
    (assignAllSingles columns position ks s).objects.get? k =
      some ⟨t, tracking, assignSingles columns (position + i) body⟩ := by
  -- on the objects that are left
  induction ks generalizing position i s with
  | nil => simp at hk
  | cons head rest ih =>
    rcases List.nodup_cons.1 hnodup with ⟨hhead, hrest⟩
    rw [assignAllSingles_cons]
    cases i with
    | zero =>
      have heq : head = k := by simpa using hk
      subst heq
      have hbody : s.body t head = .ok body := body_eq_ok_iff.2 ⟨tracking, ho, htracking⟩
      have hassigned : assignAt columns position head s =
          s.setBody head (assignSingles columns position body) := by
        unfold assignAt
        rw [hbody]
      -- the object comes once in the list, so nothing later sets it again
      rw [assignAllSingles_get?_of_not_mem hhead, hassigned, setBody_get?_self ho]
      rfl
    | succ i =>
      have hk' : rest[i]? = some k := by simpa using hk
      have hne : k ≠ head := by
        rintro rfl
        exact hhead (List.mem_of_getElem? hk')
      have hkept : (assignAt columns position head s).objects.get? k =
          some ⟨t, tracking, body⟩ := by
        rw [assignAt_get?_ne hne, ho]
      have hposition : position + 1 + i = position + (i + 1) := by omega
      rw [ih hrest hk' hkept, hposition]

end AssignAllSingles

/-! ## Normal collections -/

/-- The objects that a resolver finds for the stored addresses of a normal collection. -/
structure FindsLinks (s : Store) (resolver : Resolver)
    (toMany : Vector (List ObjectId) t.toMany.length)
    (toOne : Vector (List ObjectId) t.toOne.length)
    (many : Vector (List ObjectKey) t.toMany.length)
    (one : Vector (List (Option ObjectKey)) t.toOne.length) : Prop where
  many : ∀ r : Fin t.toMany.length,
    List.Forall₂ (s.Resolves resolver (t.toMany.get r).target) toMany[r] many[r]
  one : ∀ r : Fin t.toOne.length,
    List.Forall₂ (s.ResolvesOptional resolver (t.toOne.get r).target) toOne[r] one[r]

/-- The store in which a normal collection has links in the place of stored addresses. -/
def withLinks (s : Store) (c : CollectionKey) (keys : List ObjectKey) (origin : CollectionId)
    (many : Vector (List ObjectKey) t.toMany.length)
    (one : Vector (List (Option ObjectKey)) t.toOne.length) : Store :=
  (assignAllSingles one 0 keys s).modifyCollection c fun col =>
    withColumns col (⟨origin, .resolved many⟩ : Origin t)

section Owned

variable {keys : List ObjectKey} {toMany : Vector (List ObjectId) t.toMany.length}
  {toOne : Vector (List ObjectId) t.toOne.length}
  {many : Vector (List ObjectKey) t.toMany.length}
  {one : Vector (List (Option ObjectKey)) t.toOne.length}

theorem setReferences_owned_eq_ok_iff (h : WellFormed s)
    (hstands : s.Stands c t id (.owned keys.toArray) (some ⟨origin, .stored toMany toOne⟩)) :
    setReferences resolver c s = (.ok (), s') ↔
      ∃ many one, s.FindsLinks resolver toMany toOne many one ∧
        s' = s.withLinks c keys origin many one := by
  rcases hstands with ⟨config, generation, prepared, hcol⟩
  -- what the operation computes, column by column
  have hmany : ∀ many, (tryOfFn fun r : Fin t.toMany.length =>
      toMany[r].mapM (s.resolveRequired resolver t.name (t.toMany.get r).target)) = .ok many ↔
        ∀ r : Fin t.toMany.length,
          List.Forall₂ (s.Resolves resolver (t.toMany.get r).target) toMany[r] many[r] := by
    intro many
    simp only [tryOfFn_eq_ok_iff, mapM_eq_ok_iff, resolveRequired_eq_ok_iff h]
  have hone : ∀ one, (tryOfFn fun r : Fin t.toOne.length =>
      toOne[r].mapM (s.resolveOptional resolver (t.toOne.get r).target)) = .ok one ↔
        ∀ r : Fin t.toOne.length,
          List.Forall₂ (s.ResolvesOptional resolver (t.toOne.get r).target) toOne[r] one[r] := by
    intro one
    simp only [tryOfFn_eq_ok_iff, mapM_eq_ok_iff, resolveOptional_eq_ok_iff h]
  rw [setReferences, get_bind_apply, bind_apply, ask_apply, collection_eq_ok_iff.2 hcol]
  dsimp only
  rw [originAs_self]
  dsimp only
  rw [get_bind_apply, bind_apply, ask_apply]
  constructor
  · intro hrun
    rcases htoMany : tryOfFn fun r : Fin t.toMany.length =>
      toMany[r].mapM (s.resolveRequired resolver t.name (t.toMany.get r).target) with e | many
    · rw [htoMany] at hrun
      cases hrun
    · rw [htoMany] at hrun
      dsimp only at hrun
      rw [bind_apply, ask_apply] at hrun
      rcases htoOne : tryOfFn fun r : Fin t.toOne.length =>
        toOne[r].mapM (s.resolveOptional resolver (t.toOne.get r).target) with e | one
      · rw [htoOne] at hrun
        cases hrun
      · rw [htoOne] at hrun
        cases hrun
        exact ⟨many, one, ⟨(hmany many).1 htoMany, (hone one).1 htoOne⟩, rfl⟩
  · rintro ⟨many, one, hfinds, rfl⟩
    rw [(hmany many).2 hfinds.many]
    dsimp only
    rw [bind_apply, ask_apply, (hone one).2 hfinds.one]
    rfl

theorem stands_withLinks
    (hstands : s.Stands c t id (.owned keys.toArray) (some ⟨origin, .stored toMany toOne⟩)) :
    (s.withLinks c keys origin many one).Stands c t id (.owned keys.toArray)
      (some ⟨origin, .resolved many⟩) := by
  rcases hstands with ⟨config, generation, prepared, hcol⟩
  refine ⟨config, generation + 1, prepared, ?_⟩
  have hkept := hcol
  rw [← assignAllSingles_collections one 0 keys s] at hkept
  rw [withLinks, modifyCollection_collections, Arena.get?_modify_self hkept]
  exact congrArg some (@withColumns_self ⟨t, id, config, .owned keys.toArray, generation, prepared,
    some ⟨origin, .stored toMany toOne⟩⟩ _)

theorem withLinks_get? {bodies : List (Body t)} (howns : s.Owns c keys bodies) {i : Nat}
    {k : ObjectKey} {body : Body t} (hk : keys[i]? = some k) (hbody : bodies[i]? = some body) :
    (s.withLinks c keys origin many one).objects.get? k =
      some ⟨t, .owned c i, assignSingles one i body⟩ := by
  have ho := howns.objects i k body hk hbody
  have hreleased : Tracking.owned c i ≠ .released := by simp
  have hassigned := @assignAllSingles_get?_of_getElem? s t one keys howns.nodup 0 i k (.owned c i)
    body hk ho hreleased
  rwa [Nat.zero_add] at hassigned

/-- Objects of other collections are not touched. -/
theorem steady_withLinks {bodies : List (Body t)} (howns : s.Owns c keys bodies)
    {d : CollectionKey} {col : Collection} (hd : d ≠ c) (hcol : s.collections.get? d = some col) :
    Steady s (s.withLinks c keys origin many one) d := by
  have hkept : (s.withLinks c keys origin many one).collections.get? d = some col := by
    rw [withLinks, modifyCollection_collections, Arena.get?_modify_ne hd.symm,
      assignAllSingles_collections, hcol]
  refine ⟨⟨col, col, hcol, hkept, rfl⟩, ?_⟩
  intro k o i ho htracking
  have hnot : k ∉ keys := by
    intro hmem
    rcases List.getElem?_of_mem hmem with ⟨j, hj⟩
    rcases howns.object hj with ⟨body, -, hbody⟩
    have heq := Option.some.inj (ho.symm.trans hbody)
    rw [heq] at htracking
    cases htracking
    exact hd rfl
  rw [withLinks, modifyCollection_objects, assignAllSingles_get?_of_not_mem hnot, ho]

theorem settles_withLinks {bodies : List (Body t)}
    (hstands : s.Stands c t id (.owned keys.toArray) (some ⟨origin, .stored toMany toOne⟩))
    (howns : s.Owns c keys bodies) : Settles s (s.withLinks c keys origin many one) := by
  have hretains : Retains s (s.withLinks c keys origin many one) := by
    intro k o ho
    by_cases hmem : k ∈ keys
    · rcases List.getElem?_of_mem hmem with ⟨i, hi⟩
      rcases howns.object hi with ⟨body, hbody, hobject⟩
      have heq := Option.some.inj (ho.symm.trans hobject)
      rw [heq]
      exact ⟨_, withLinks_get? howns hi hbody, rfl⟩
    · refine ⟨o, ?_, rfl⟩
      rw [withLinks, modifyCollection_objects, assignAllSingles_get?_of_not_mem hmem, ho]
  refine .of_steady hretains (fun d col hd hcol => steady_withLinks howns hd hcol) ?_
  intro col hcol
  rcases @stands_withLinks s t c id origin keys toMany toOne many one hstands
    with ⟨config, generation, prepared, hlinked⟩
  rcases hstands with ⟨config', generation', prepared', hcol'⟩
  have heq := Option.some.inj (hcol.symm.trans hcol')
  refine ⟨_, hlinked, by rw [heq], ?_⟩
  intro i k hk
  rw [heq] at hk
  exact hk

end Owned

/-! ## Subset collections -/

/-- The store in which a subset collection has links in the place of stored addresses. -/
def withPlaces (s : Store) (c : CollectionKey) (t : DataType) (origin : CollectionId)
    (ks : List ObjectKey) : Store :=
  s.modifyCollection c fun col =>
    { withColumns col (⟨origin, .resolved (Vector.replicate _ [])⟩ : Origin t) with
      storage := .subset (ks.map Slot.linked).toArray }

section Subset

variable {ids : List ObjectId} {ks : List ObjectKey}

/-- A subset collection with places that all wait for resolution. -/
def IsPending (s : Store) (c : CollectionKey) (t : DataType) (id : CollectionId)
    (origin : CollectionId) (ids : List ObjectId) : Prop :=
  s.Stands c t id (.subset (ids.map Slot.pending).toArray)
    (some ⟨origin, .stored (Vector.replicate _ []) (Vector.replicate _ [])⟩)

theorem IsPending.not_place (hpending : s.IsPending c t id origin ids) {col : Collection}
    (hcol : s.collections.get? c = some col) {i : Nat} {k : ObjectKey} :
    objectAtPosition col i ≠ .ok k := by
  rcases hpending with ⟨config, generation, prepared, hcol'⟩
  have heq := Option.some.inj (hcol.symm.trans hcol')
  rw [heq]
  unfold objectAtPosition
  dsimp only
  rw [List.getElem?_toArray, List.getElem?_map]
  rcases ids[i]? with _ | id'
  · intro hfalse
    cases hfalse
  · intro hfalse
    cases hfalse

/-- The object that a resolver finds for a place. A place that is linked keeps its object. -/
inductive FindsPlace (s : Store) (resolver : Resolver) (t : DataType) : Slot → ObjectKey → Prop
  | linked (k : ObjectKey) : FindsPlace s resolver t (.linked k) k
  | pending {id : ObjectId} {k : ObjectKey} (h : s.ResolvesSlot resolver t id k) :
      FindsPlace s resolver t (.pending id) k

theorem resolveSlot_eq_ok_iff (h : WellFormed s) {slot : Slot} {k : ObjectKey} :
    s.resolveSlot resolver t slot = .ok k ↔ s.FindsPlace resolver t slot k := by
  cases slot with
  | linked k' =>
    constructor
    · intro hk
      cases hk
      exact .linked k
    · intro hk
      cases hk
      rfl
  | pending id =>
    rw [resolveSlot_pending_eq_ok_iff h]
    constructor
    · exact .pending
    · rintro (_ | hk)
      exact hk

theorem forall₂_findsPlace_pending :
    List.Forall₂ (s.FindsPlace resolver t) (ids.map Slot.pending) ks ↔
      List.Forall₂ (s.ResolvesSlot resolver t) ids ks := by
  rw [List.forall₂_map_left_iff]
  constructor
  · intro hfinds
    refine hfinds.imp ?_
    rintro id k (_ | hk)
    exact hk
  · exact fun hfinds => hfinds.imp fun _ _ hk => .pending hk

theorem setReferences_subset_eq_ok_iff (h : WellFormed s) {slots : List Slot}
    {toMany : Vector (List ObjectId) t.toMany.length}
    {toOne : Vector (List ObjectId) t.toOne.length}
    (hstands : s.Stands c t id (.subset slots.toArray) (some ⟨origin, .stored toMany toOne⟩)) :
    setReferences resolver c s = (.ok (), s') ↔
      ∃ ks, List.Forall₂ (s.FindsPlace resolver t) slots ks ∧ s' = s.withPlaces c t origin ks := by
  rcases hstands with ⟨config, generation, prepared, hcol⟩
  have hlinked : ∀ ks, slots.mapM (s.resolveSlot resolver t) = .ok ks ↔
      List.Forall₂ (s.FindsPlace resolver t) slots ks := by
    intro ks
    simp only [mapM_eq_ok_iff, resolveSlot_eq_ok_iff h]
  rw [setReferences, get_bind_apply, bind_apply, ask_apply, collection_eq_ok_iff.2 hcol]
  dsimp only
  rw [originAs_self]
  dsimp only
  rw [get_bind_apply, bind_apply, liftExcept_apply]
  constructor
  · intro hrun
    rcases hslots : slots.mapM (s.resolveSlot resolver t) with e | ks
    · rw [hslots] at hrun
      cases hrun
    · rw [hslots] at hrun
      cases hrun
      exact ⟨ks, (hlinked ks).1 hslots, rfl⟩
  · rintro ⟨ks, hfinds, rfl⟩
    rw [(hlinked ks).2 hfinds]
    rfl

theorem setReferences_pending_eq_ok_iff (h : WellFormed s)
    (hpending : s.IsPending c t id origin ids) :
    setReferences resolver c s = (.ok (), s') ↔
      ∃ ks, List.Forall₂ (s.ResolvesSlot resolver t) ids ks ∧ s' = s.withPlaces c t origin ks := by
  rw [setReferences_subset_eq_ok_iff h hpending]
  simp only [forall₂_findsPlace_pending]

theorem stands_withPlaces {slots : List Slot} {toMany : Vector (List ObjectId) t.toMany.length}
    {toOne : Vector (List ObjectId) t.toOne.length}
    (hstands : s.Stands c t id (.subset slots.toArray) (some ⟨origin, .stored toMany toOne⟩)) :
    (s.withPlaces c t origin ks).Stands c t id (.subset (ks.map Slot.linked).toArray)
      (some ⟨origin, .resolved (Vector.replicate _ [])⟩) := by
  rcases hstands with ⟨config, generation, prepared, hcol⟩
  refine ⟨config, generation + 1, prepared, ?_⟩
  rw [withPlaces, modifyCollection_collections, Arena.get?_modify_self hcol]
  refine congrArg some ?_
  rw [@withColumns_self ⟨t, id, config, .subset slots.toArray, generation, prepared,
    some ⟨origin, .stored toMany toOne⟩⟩]
  rfl

theorem steady_withPlaces {d : CollectionKey} {col : Collection} (hd : d ≠ c)
    (hcol : s.collections.get? d = some col) : Steady s (s.withPlaces c t origin ks) d := by
  have hkept : (s.withPlaces c t origin ks).collections.get? d = some col := by
    rw [withPlaces, modifyCollection_collections, Arena.get?_modify_ne hd.symm, hcol]
  exact ⟨⟨col, col, hcol, hkept, rfl⟩, fun _ _ _ ho _ => ho⟩

theorem settles_withPlaces (hpending : s.IsPending c t id origin ids) :
    Settles s (s.withPlaces c t origin ks) := by
  refine .of_steady (fun k o ho => ⟨o, ho, rfl⟩)
    (fun d col hd hcol => steady_withPlaces hd hcol) ?_
  intro col hcol
  rcases @stands_withPlaces s t c id origin ks _ _ _ hpending
    with ⟨config, generation, prepared, hlinked⟩
  have hnone := fun i k => @IsPending.not_place s t c id origin ids hpending col hcol i k
  rcases hpending with ⟨config', generation', prepared', hcol'⟩
  have heq := Option.some.inj (hcol.symm.trans hcol')
  exact ⟨_, hlinked, by rw [heq], fun i k hk => absurd hk (hnone i k)⟩

end Subset

end EventModel.Store
