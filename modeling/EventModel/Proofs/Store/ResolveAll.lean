import EventModel.Proofs.Store.Mirror
import EventModel.Proofs.Store.Resolution

/-!
# Resolving all that is registered

Collections are registered under their numbers, and one that is registered takes the place of any
other with its number. So of the collections with one number only the last one is resolved and found
by addresses (`LastNumbered`); the others are left as they are, and wait if they waited before.
-/

namespace EventModel.Store

variable {s s' s₁ : Store} {t : DataType} {c d : CollectionKey} {n : CollectionId}
  {cs : List CollectionKey} {resolver : Resolver}

/-! ## Which collections are registered -/

/-- The collection exists and has this number. -/
def HasNumber (s : Store) (c : CollectionKey) (n : CollectionId) : Prop :=
  ∃ col, s.collections.get? c = some col ∧ col.id = n

/-- Among the collections, this is the last one with the number. -/
def LastNumbered (s : Store) (cs : List CollectionKey) (n : CollectionId) (c : CollectionKey) : Prop :=
  ∃ front back, cs = front ++ c :: back ∧ s.HasNumber c n ∧ ∀ d ∈ back, ¬ s.HasNumber d n

theorem LastNumbered.hasNumber (h : s.LastNumbered cs n c) : s.HasNumber c n := by
  rcases h with ⟨-, -, -, hnumber, -⟩
  exact hnumber

theorem LastNumbered.mem (h : s.LastNumbered cs n c) : c ∈ cs := by
  rcases h with ⟨front, back, rfl, -, -⟩
  exact List.mem_append_right _ List.mem_cons_self

theorem HasNumber.eq {n' : CollectionId} (h : s.HasNumber c n) (h' : s.HasNumber c n') : n = n' := by
  rcases h with ⟨col, hcol, rfl⟩
  rcases h' with ⟨col', hcol', rfl⟩
  cases hcol.symm.trans hcol'
  rfl

/-- What is registered first counts only if nothing that is registered later has its number. -/
theorem resolverOf_cons (s : Store) (d : CollectionKey) (cs : List CollectionKey)
    (n : CollectionId) :
    (s.HasNumber d n ∧ s.resolverOf (d :: cs) n = (s.resolverOf cs n).or (some d)) ∨
      (¬ s.HasNumber d n ∧ s.resolverOf (d :: cs) n = s.resolverOf cs n) := by
  rw [resolverOf_eq_lookup, resolverOf_eq_lookup]
  unfold known
  rcases hcol : s.collections.get? d with _ | col
  · refine .inr ⟨?_, by rw [List.filterMap_cons_none (by rw [hcol]; rfl)]⟩
    rintro ⟨col, hcol', -⟩
    cases hcol.symm.trans hcol'
  · rw [List.filterMap_cons_some (by rw [hcol]; rfl), List.reverse_cons, List.lookup_append]
    by_cases hid : col.id = n
    · subst hid
      refine .inl ⟨⟨col, hcol, rfl⟩, ?_⟩
      rw [List.lookup_cons, beq_self_eq_true]
    · refine .inr ⟨?_, ?_⟩
      · rintro ⟨col', hcol', rfl⟩
        cases hcol.symm.trans hcol'
        exact hid rfl
      · rw [List.lookup_cons, beq_false_of_ne (Ne.symm hid), List.lookup_nil, Option.or_none]

theorem resolverOf_eq_none_iff : s.resolverOf cs n = none ↔ ∀ c ∈ cs, ¬ s.HasNumber c n := by
  induction cs with
  | nil => simp [resolverOf]
  | cons d cs ih =>
    rw [List.forall_mem_cons, ← ih]
    rcases resolverOf_cons s d cs n with ⟨hnumber, heq⟩ | ⟨hnumber, heq⟩
    · rw [heq, Option.or_eq_none_iff]
      exact ⟨fun h => (nomatch h.2), fun h => absurd hnumber h.1⟩
    · rw [heq]
      exact ⟨fun h => ⟨hnumber, h⟩, And.right⟩

/-- An address is looked up in the collection that was registered last under its number. -/
theorem resolverOf_eq_some_iff : s.resolverOf cs n = some c ↔ s.LastNumbered cs n c := by
  constructor
  · intro h
    induction cs with
    | nil => cases h
    | cons d cs ih =>
      have hlater : s.resolverOf cs n = some c → s.LastNumbered (d :: cs) n c := by
        intro hrest
        rcases ih hrest with ⟨front, back, rfl, hlast⟩
        exact ⟨d :: front, back, rfl, hlast⟩
      rcases resolverOf_cons s d cs n with ⟨hnumber, heq⟩ | ⟨-, heq⟩
      · rw [heq, Option.or_eq_some_iff] at h
        rcases h with hrest | ⟨hnone, hd⟩
        · exact hlater hrest
        · cases hd
          exact ⟨[], cs, rfl, hnumber, resolverOf_eq_none_iff.1 hnone⟩
      · exact hlater (heq ▸ h)
  · rintro ⟨front, back, rfl, hnumber, hback⟩
    have hnone : s.resolverOf back n = none := resolverOf_eq_none_iff.2 hback
    induction front with
    | nil =>
      rcases resolverOf_cons s c back n with ⟨-, heq⟩ | ⟨hnot, -⟩
      · rw [List.nil_append, heq, hnone]
        rfl
      · exact absurd hnumber hnot
    | cons d front ih =>
      rcases resolverOf_cons s d (front ++ c :: back) n with ⟨-, heq⟩ | ⟨-, heq⟩
      · rw [List.cons_append, heq, ih]
        rfl
      · rw [List.cons_append, heq, ih]

/-! ## What one resolution makes of a collection -/

/-- Between two stores every address for which the collection waited was replaced by the object that
the resolver finds for it. A collection that waited for nothing is as before. -/
inductive Relinked (s s' : Store) (resolver : Resolver) (c : CollectionKey) : Prop
  | settled (hsettled : ¬ s.IsWaiting c) (hsteady : Steady s s' c)
  | owned {t : DataType} {number origin : CollectionId} {keys : List ObjectKey}
      {toMany : Vector (List ObjectId) t.toMany.length}
      {toOne : Vector (List ObjectId) t.toOne.length}
      {many : Vector (List ObjectKey) t.toMany.length}
      {one : Vector (List (Option ObjectKey)) t.toOne.length}
      (hstands : s.Stands c t number (.owned keys.toArray) (some ⟨origin, .stored toMany toOne⟩))
      (hstands' : s'.Stands c t number (.owned keys.toArray) (some ⟨origin, .resolved many⟩))
      (hobjects : ∀ i k body, s.objects.get? k = some ⟨t, .owned c i, body⟩ →
        s'.objects.get? k = some ⟨t, .owned c i, assignSingles one i body⟩)
      (hfinds : s'.FindsLinks resolver toMany toOne many one)
  | subset {t : DataType} {number origin : CollectionId} {slots : List Slot}
      {toMany : Vector (List ObjectId) t.toMany.length}
      {toOne : Vector (List ObjectId) t.toOne.length} {ks : List ObjectKey}
      (hstands : s.Stands c t number (.subset slots.toArray) (some ⟨origin, .stored toMany toOne⟩))
      (hstands' : s'.Stands c t number (.subset (ks.map Slot.linked).toArray)
        (some ⟨origin, .resolved (Vector.replicate _ [])⟩))
      (hfinds : List.Forall₂ (s'.FindsPlace resolver t) slots ks)

theorem FindsLinks.settles {toMany : Vector (List ObjectId) t.toMany.length}
    {toOne : Vector (List ObjectId) t.toOne.length}
    {many : Vector (List ObjectKey) t.toMany.length}
    {one : Vector (List (Option ObjectKey)) t.toOne.length}
    (h : s.FindsLinks resolver toMany toOne many one) (hsettles : Settles s s') :
    s'.FindsLinks resolver toMany toOne many one where
  many r := (h.many r).imp fun _ _ hk => hk.settles hsettles
  one r := (h.one r).imp fun _ _ hplace => hplace.settles hsettles

theorem FindsPlace.settles {slot : Slot} {k : ObjectKey} (h : s.FindsPlace resolver t slot k)
    (hsettles : Settles s s') : s'.FindsPlace resolver t slot k := by
  cases h with
  | linked => exact .linked k
  | pending hk => exact .pending (hk.settles hsettles)

theorem Steady.exists_collection (hsteady : Steady s s' c) :
    ∃ col, s.collections.get? c = some col := by
  rcases hsteady.collection with ⟨col, -, hcol, -⟩
  exact ⟨col, hcol⟩

/-- What stands in a steady collection has stood there before. -/
theorem Steady.stands_before (hsteady : Steady s s' c) {storage : Storage}
    {origin : Option (Origin t)} (h : s'.Stands c t n storage origin) :
    s.Stands c t n storage origin := by
  rcases hsteady.collection with ⟨col, col', hcol, hcol', heq⟩
  rcases h with ⟨config, generation, prepared, hget⟩
  rw [heq] at hcol'
  cases hcol'.symm.trans hget
  exact ⟨col.config, col.generation, col.prepared, hcol⟩

theorem isWaiting_iff_stands : s.IsWaiting c ↔ ∃ (t : DataType) (number origin : CollectionId)
    (storage : Storage) (toMany : Vector (List ObjectId) t.toMany.length)
    (toOne : Vector (List ObjectId) t.toOne.length),
      s.Stands c t number storage (some ⟨origin, .stored toMany toOne⟩) := by
  constructor
  · rintro ⟨col, hcol, hwaits⟩
    rcases exists_stored_of_isUnresolved hwaits with ⟨origin, toMany, toOne, horigin⟩
    exact ⟨col.type, col.id, origin, col.storage, toMany, toOne, horigin ▸ stands_of_get? hcol⟩
  · rintro ⟨t, number, origin, storage, toMany, toOne, config, generation, prepared, hcol⟩
    exact ⟨_, hcol, isUnresolved_of_stored rfl⟩

theorem Steady.isWaiting_iff (hsteady : Steady s s' c) : s'.IsWaiting c ↔ s.IsWaiting c := by
  rw [isWaiting_iff_stands, isWaiting_iff_stands]
  constructor
  · rintro ⟨t, number, origin, storage, toMany, toOne, hstands⟩
    exact ⟨t, number, origin, storage, toMany, toOne, hsteady.stands_before hstands⟩
  · rintro ⟨t, number, origin, storage, toMany, toOne, hstands⟩
    exact ⟨t, number, origin, storage, toMany, toOne, hsteady.stands hstands⟩

theorem Relinks.settlesWithin (h : WellFormed s) {update : Store → Store}
    (hrelinks : s.Relinks resolver c update) : SettlesWithin s (update s) [c] where
  settles := hrelinks.settles h
  steady d col hd hcol := by
    have hne : d ≠ c := List.ne_of_not_mem_cons hd
    refine ⟨⟨col, col, hcol, (hrelinks.get?_of_ne h hne).trans hcol, rfl⟩, ?_⟩
    rcases hrelinks.isLocal h with ⟨keys, hlocal, hkeys⟩
    rcases hlocal.objects with ⟨g, hg, -, hobjects⟩
    intro k o i ho howned
    -- only objects of the collection itself are touched
    have hnot : k ∉ keys := by
      intro hmem
      rcases hkeys k hmem with ⟨o', j, ho', howned'⟩
      cases ho.symm.trans ho'
      cases howned.symm.trans howned'
      exact hne rfl
    rw [hobjects, hg k hnot, ho]
    rfl
  frames := by
    rcases hrelinks.isLocal h with ⟨keys, hlocal, -⟩
    exact hlocal.frames s

theorem Relinks.relinked (h : WellFormed s) {update : Store → Store}
    (hrelinks : s.Relinks resolver c update) : Relinked s (update s) resolver c := by
  have hsettles := hrelinks.settles h
  cases hrelinks with
  | settled hcol hsettled => exact .settled (not_isWaiting hcol hsettled) (.refl hcol)
  | @owned t number origin keys toMany toOne many one hstands hfinds =>
    refine .owned hstands (stands_withLinks hstands) (fun i k body ho => ?_)
      (hfinds.settles hsettles)
    refine withLinks_get?_of_stands h hstands ?_ ho
    rcases h.owner k _ c i ho rfl with ⟨col, objects, hcol, hstorage, hi⟩
    rcases hstands.collection with ⟨col', hcol', -, -, hstorage'⟩
    cases hcol.symm.trans hcol'
    cases hstorage.symm.trans hstorage'
    rwa [List.getElem?_toArray] at hi
  | subset hstands hfinds =>
    exact .subset hstands (stands_withPlaces hstands)
      (hfinds.imp fun _ _ hplace => hplace.settles hsettles)

namespace Relinked

theorem exists_collection (h : Relinked s s' resolver c) :
    ∃ col, s.collections.get? c = some col := by
  cases h with
  | settled _ hsteady => exact hsteady.exists_collection
  | owned hstands | subset hstands =>
    rcases hstands.collection with ⟨col, hcol, -⟩
    exact ⟨col, hcol⟩

/-- Nothing is left to resolve. -/
theorem not_isWaiting (h : Relinked s s' resolver c) : ¬ s'.IsWaiting c := by
  cases h with
  | settled hsettled hsteady => exact fun hwaits => hsettled (hsteady.isWaiting_iff.1 hwaits)
  | owned _ hstands' | subset _ hstands' =>
    rcases hstands' with ⟨config, generation, prepared, hcol⟩
    exact Store.not_isWaiting hcol rfl

/-- Later resolutions of other collections leave the links as they are. -/
theorem settles (h : Relinked s s₁ resolver c) (hsteady : Steady s₁ s' c)
    (hsettles : Settles s₁ s') : Relinked s s' resolver c := by
  cases h with
  | settled hsettled hsteady₁ => exact .settled hsettled (hsteady₁.trans hsteady)
  | owned hstands hstands' hobjects hfinds =>
    exact .owned hstands (hsteady.stands hstands')
      (fun i k body ho => hsteady.objects k _ i (hobjects i k body ho) rfl)
      (hfinds.settles hsettles)
  | subset hstands hstands' hfinds =>
    exact .subset hstands (hsteady.stands hstands')
      (hfinds.imp fun _ _ hplace => hplace.settles hsettles)

/-- Earlier resolutions of other collections leave the addresses as they are. -/
theorem after (h : Relinked s₁ s' resolver c) (hsteady : Steady s s₁ c) :
    Relinked s s' resolver c := by
  cases h with
  | settled hsettled hsteady₁ =>
    exact .settled (fun hwaits => hsettled (hsteady.isWaiting_iff.2 hwaits)) (hsteady.trans hsteady₁)
  | owned hstands hstands' hobjects hfinds =>
    exact .owned (hsteady.stands_before hstands) hstands'
      (fun i k body ho => hobjects i k body (hsteady.objects k _ i ho rfl)) hfinds
  | subset hstands hstands' hfinds =>
    exact .subset (hsteady.stands_before hstands) hstands' hfinds

end Relinked

/-! ## Resolving collections one after the other -/

theorem forEach_setReferences_relinked (h : WellFormed s) (hnodup : cs.Nodup)
    (hrun : forEach (setReferences resolver) cs s = (.ok (), s')) :
    (∀ c ∈ cs, Relinked s s' resolver c) ∧ SettlesWithin s s' cs := by
  -- on the collections that are left to resolve
  induction cs generalizing s with
  | nil =>
    cases hrun
    exact ⟨fun c hc => (nomatch hc), .refl _, fun d col _ hcol => .refl hcol, rfl⟩
  | cons c cs ih =>
    rcases List.nodup_cons.1 hnodup with ⟨hc, hcs⟩
    rcases bind_eq_ok hrun with ⟨⟨⟩, s₁, hfirst, hothers⟩
    rcases ih (wellFormed_setReferences h hfirst) hcs hothers with ⟨hall, hwithin'⟩
    rcases (setReferences_eq_ok_iff h).1 hfirst with ⟨update, hrelinks, rfl⟩
    have hwithin := hrelinks.settlesWithin h
    refine ⟨?_, hwithin.trans hwithin'⟩
    intro d hd
    rcases List.mem_cons.1 hd with rfl | hrest
    · have hrelinked := hrelinks.relinked h
      rcases hrelinked.exists_collection with ⟨col, hcol⟩
      rcases hwithin.settles.numbers d col hcol with ⟨col₁, hcol₁, -⟩
      exact hrelinked.settles (hwithin'.steady d col₁ hc hcol₁) hwithin'.settles
    · have hne : d ≠ c := fun heq => hc (heq ▸ hrest)
      rcases (hall d hrest).exists_collection with ⟨col, hcol⟩
      have hbefore := (hrelinks.get?_of_ne h hne).symm.trans hcol
      exact (hall d hrest).after (hwithin.steady d col (by simpa using hne) hbefore)

theorem mem_collectionIds_iff : n ∈ s.collectionIds cs ↔ ∃ c ∈ cs, s.HasNumber c n := by
  simp [collectionIds, HasNumber]

theorem nodup_eraseDups {α : Type} [DecidableEq α] (l : List α) : l.eraseDups.Nodup := by
  -- on the length, since what is equal to the head is dropped from the rest
  induction hlength : l.length using Nat.strong_induction_on generalizing l with
  | h length ih =>
    cases l with
    | nil => exact List.nodup_nil
    | cons x xs =>
      rw [List.eraseDups_cons, List.nodup_cons, List.mem_eraseDups]
      refine ⟨by simp, ih _ ?_ _ rfl⟩
      rw [← hlength]
      exact Nat.lt_succ_of_le (List.length_filter_le _ _)

theorem nodup_collectionIds : (s.collectionIds cs).Nodup := by
  unfold collectionIds
  exact (List.mergeSort_perm _ _).nodup_iff.2 (nodup_eraseDups _)

theorem mem_filterMap_collectionIds_iff :
    c ∈ (s.collectionIds cs).filterMap (s.resolverOf cs) ↔ ∃ n, s.LastNumbered cs n c := by
  simp only [List.mem_filterMap, resolverOf_eq_some_iff]
  constructor
  · rintro ⟨n, -, hregisters⟩
    exact ⟨n, hregisters⟩
  · rintro ⟨n, hregisters⟩
    exact ⟨n, mem_collectionIds_iff.2 ⟨c, hregisters.mem, hregisters.hasNumber⟩, hregisters⟩

/-- No collection is resolved twice. -/
theorem nodup_filterMap_collectionIds :
    ((s.collectionIds cs).filterMap (s.resolverOf cs)).Nodup := by
  refine nodup_collectionIds.filterMap ?_
  intro n n' c hc hc'
  exact (resolverOf_eq_some_iff.1 hc).hasNumber.eq (resolverOf_eq_some_iff.1 hc').hasNumber

/-- A collection that is registered, and with whose number no other one is, is the last one with its
number. -/
theorem registers_of_apart
    (hapart : ∀ c ∈ cs, ∀ d ∈ cs, ∀ n, s.HasNumber c n → s.HasNumber d n → c = d) (hc : c ∈ cs)
    (hnumber : s.HasNumber c n) : s.LastNumbered cs n c := by
  rcases hresolver : s.resolverOf cs n with _ | d
  · exact absurd hnumber (resolverOf_eq_none_iff.1 hresolver c hc)
  · have hd := resolverOf_eq_some_iff.1 hresolver
    rwa [hapart c hc d hd.mem n hnumber hd.hasNumber]

/-- A run over all that is registered resolves, of the collections with one number, the last one, and
looks every address up in the last one with the number that the address names. All other collections
are left as they are. So a registered collection waits afterwards exactly if it waited before and is
not the last one with its number, and if collections with one number are the same nothing waits. -/
theorem resolveAll_relinks (h : Reachable s) (hrun : resolveAll cs s = (.ok (), s')) :
    (∀ n c, s.resolverOf cs n = some c ↔ s.LastNumbered cs n c) ∧
      (∀ n c, s.LastNumbered cs n c → Relinked s s' (s.resolverOf cs) c) ∧
      (∀ n c, s.HasNumber c n → ¬ s.LastNumbered cs n c → Steady s s' c) ∧
      (∀ n c, s.HasNumber c n → (s'.IsWaiting c ↔ s.IsWaiting c ∧ ¬ s.LastNumbered cs n c)) ∧
      ((∀ c ∈ cs, ∀ d ∈ cs, ∀ n, s.HasNumber c n → s.HasNumber d n → c = d) →
        ∀ c ∈ cs, ∀ n, s.HasNumber c n → ¬ s'.IsWaiting c) := by
  rw [resolveAll, get_bind_apply] at hrun
  rcases forEach_setReferences_relinked h.wellFormed nodup_filterMap_collectionIds hrun
    with ⟨hrelinked, hwithin⟩
  have hresolved : ∀ n c, s.LastNumbered cs n c → Relinked s s' (s.resolverOf cs) c :=
    fun n c hregisters => hrelinked c (mem_filterMap_collectionIds_iff.2 ⟨n, hregisters⟩)
  have hleft : ∀ n c, s.HasNumber c n → ¬ s.LastNumbered cs n c → Steady s s' c := by
    intro n c hnumber hnot
    rcases hnumber with ⟨col, hcol, rfl⟩
    refine hwithin.steady c col (fun hmem => hnot ?_) hcol
    rcases mem_filterMap_collectionIds_iff.1 hmem with ⟨n, hregisters⟩
    rwa [HasNumber.eq ⟨col, hcol, rfl⟩ hregisters.hasNumber]
  have hwaits : ∀ n c, s.HasNumber c n →
      (s'.IsWaiting c ↔ s.IsWaiting c ∧ ¬ s.LastNumbered cs n c) := by
    intro n c hnumber
    by_cases hregisters : s.LastNumbered cs n c
    · exact iff_of_false (hresolved n c hregisters).not_isWaiting fun hfalse => hfalse.2 hregisters
    · rw [(hleft n c hnumber hregisters).isWaiting_iff]
      exact ⟨fun hwaits => ⟨hwaits, hregisters⟩, And.left⟩
  refine ⟨fun n c => resolverOf_eq_some_iff, hresolved, hleft, hwaits, ?_⟩
  intro hapart c hc n hnumber hwaiting
  exact ((hwaits n c hnumber).1 hwaiting).2 (registers_of_apart hapart hc hnumber)

/-- A second collection that was rebuilt under the number of the first one. -/
def doubledMesh : Store :=
  (rebuild meshType meshBuffers ⟨7⟩ {} meshStore).2

theorem reachable_doubledMesh : Reachable doubledMesh :=
  reachable_meshStore.step (.rebuild meshType meshBuffers ⟨7⟩ {})

/-- Both collections are registered, and the run succeeds, but only the second one is resolved: the
links of its objects lead into it, and the first one waits as before. -/
theorem resolveAll_relinks_doubledMesh :
    resolveAll [0, 1] doubledMesh = (.ok (), (resolveAll [0, 1] doubledMesh).2) ∧
      Relinked doubledMesh (resolveAll [0, 1] doubledMesh).2 (doubledMesh.resolverOf [0, 1]) 1 ∧
      Steady doubledMesh (resolveAll [0, 1] doubledMesh).2 0 ∧
      (resolveAll [0, 1] doubledMesh).2.IsWaiting 0 ∧
      ¬ (resolveAll [0, 1] doubledMesh).2.IsWaiting 1 ∧
      (resolveAll [0, 1] doubledMesh).2.related meshType (some 2) 0 = .ok [some 2, some 3] ∧
      ¬ (resolveAll [0] doubledMesh).2.IsWaiting 0 := by
  have hrun : resolveAll [0, 1] doubledMesh = (.ok (), (resolveAll [0, 1] doubledMesh).2) := by
    have hok : (resolveAll [0, 1] doubledMesh).1 = .ok () := by decide +kernel
    rw [← hok, Prod.eta]
  have hone : resolveAll [0] doubledMesh = (.ok (), (resolveAll [0] doubledMesh).2) := by
    have hok : (resolveAll [0] doubledMesh).1 = .ok () := by decide +kernel
    rw [← hok, Prod.eta]
  have hid : (doubledMesh.collections.get? 0).map Collection.id = some ⟨7⟩ := by decide +kernel
  have hnumber : doubledMesh.HasNumber 0 ⟨7⟩ := Option.map_eq_some_iff.1 hid
  rcases resolveAll_relinks reachable_doubledMesh hrun with ⟨hlast, hrelinked, hleft, hwaits, -⟩
  rcases resolveAll_relinks reachable_doubledMesh hone with ⟨-, -, -, -, hapart⟩
  have hsecond := (hlast ⟨7⟩ 1).1 (by decide +kernel)
  have hfirst : ¬ doubledMesh.LastNumbered [0, 1] ⟨7⟩ 0 := fun hfirst =>
    absurd ((hlast ⟨7⟩ 0).2 hfirst) (by decide +kernel)
  refine ⟨hrun, hrelinked _ _ hsecond, hleft _ _ hnumber hfirst,
    (hwaits _ _ hnumber).2 ⟨by decide +kernel, hfirst⟩, (hrelinked _ _ hsecond).not_isWaiting,
    by decide +kernel, hapart ?_ 0 List.mem_cons_self ⟨7⟩ hnumber⟩
  intro c hc d hd n _ _
  rw [List.mem_singleton.1 hc, List.mem_singleton.1 hd]

end EventModel.Store
