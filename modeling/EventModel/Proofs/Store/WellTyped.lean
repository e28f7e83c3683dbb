import EventModel.Proofs.Store.Failures
import EventModel.Proofs.Store.ReadBack
import EventModel.Proofs.Store.RoundTrip

/-!
# Typed relations

A relation declares the type of its targets by name, and links are keys of objects of any type. Links
enter a store through handles, which are checked when a link is made, and through stored addresses,
which are checked when they are resolved. If the types in use have distinct names, then every link
leads to an object of the one type that its relation means, and an accessor that asks for this type
never finds another one.
-/

namespace EventModel

variable {α β : Type}

/-- The computation fails because an object has another type than the one that was asked for. -/
def Mismatches (x : Except Error α) : Prop :=
  ∃ expected found, x = .error (.typeMismatch expected found)

theorem not_mismatches_ok {a : α} : ¬ Mismatches (.ok a) := by
  rintro ⟨expected, found, h⟩
  cases h

theorem Mismatches.of_bind {x : Except Error α} {f : α → Except Error β}
    (h : Mismatches (x >>= f)) : Mismatches x ∨ ∃ a, x = .ok a ∧ Mismatches (f a) := by
  rcases h with ⟨expected, found, h⟩
  rcases bind_eq_error_iff.1 h with hx | ⟨a, ha, hf⟩
  · exact .inl ⟨expected, found, hx⟩
  · exact .inr ⟨a, ha, expected, found, hf⟩

namespace Store

variable {s s' : Store} {t u : DataType} {k : ObjectKey} {types : Set DataType} {n : HandleKey}

/-! ## Types and their names -/

/-- The object was made, and its type is `t`. -/
def HasType (s : Store) (t : DataType) (k : ObjectKey) : Prop :=
  ∃ o, s.objects.get? k = some o ∧ o.type = t

/-- The type of the object is the only one among `types` that has the name. -/
def HasTypeNamed (s : Store) (types : Set DataType) (name : String) (k : ObjectKey) : Prop :=
  ∃ t ∈ types, t.name = name ∧ (∀ u ∈ types, u.name = name → u = t) ∧ s.HasType t k

/-- The types of all objects are among `types`. -/
def Uses (s : Store) (types : Set DataType) : Prop :=
  ∀ k o, s.objects.get? k = some o → o.type ∈ types

/-- The handle points at no object, or at one of its type. -/
def IsTyped (s : Store) (handle : Handle t) : Prop :=
  ∀ k, s.target handle.toReference = some k → s.HasType t k

theorem Retains.hasType (h : Retains s s') (hk : s.HasType t k) : s'.HasType t k := by
  rcases hk with ⟨o, ho, rfl⟩
  exact h k o ho

/-- Where distinct types have distinct names, the name of a type decides which one it is. -/
theorem hasTypeNamed_of_typeName? (hnames : types.InjOn DataType.name) (huses : s.Uses types)
    {name : String} (h : s.typeName? (some k) = some name) : s.HasTypeNamed types name k := by
  rcases typeName?_eq_some_iff.1 h with ⟨o, ho, rfl⟩
  exact ⟨o.type, huses k o ho, rfl, fun u hu hname => hnames hu (huses k o ho) hname, o, ho, rfl⟩

theorem HasTypeNamed.hasType {name : String} (h : s.HasTypeNamed types name k) (hu : u ∈ types)
    (hname : u.name = name) : s.HasType u k := by
  rcases h with ⟨t, -, -, hunique, htype⟩
  rw [hunique u hu hname]
  exact htype

/-! ## Accessors of one object -/

theorem not_mismatches_checkIndex {index m : Nat} : ¬ Mismatches (checkIndex index m) := by
  rintro ⟨expected, found, h⟩
  cases checkIndex_eq_error h

theorem not_mismatches_bodyOf {target : Option ObjectKey}
    (h : ∀ k, target = some k → s.HasType t k) : ¬ Mismatches (s.bodyOf t target) := by
  rintro ⟨expected, found, herror⟩
  rcases bodyOf_eq_error herror with hunavailable | ⟨k, o, hk, ho, hne, -⟩
  · cases hunavailable
  · rcases h k hk with ⟨o', ho', htype⟩
    cases ho.symm.trans ho'
    exact hne htype

theorem not_mismatches_links {body : Body t} {r : Fin t.toMany.length} :
    ¬ Mismatches (s.links k body r) := by
  rintro ⟨expected, found, h⟩
  rcases links_eq_error h with herror | ⟨id, herror⟩ | ⟨reason, herror⟩
  · cases herror
  · cases herror
  · cases herror

theorem not_mismatches_related {target : Option ObjectKey}
    (h : ∀ k, target = some k → s.HasType t k) (relation : Nat) :
    ¬ Mismatches (s.related t target relation) := by
  intro hmismatch
  rcases hmismatch.of_bind with hindex | ⟨r, -, hmismatch⟩
  · exact not_mismatches_checkIndex hindex
  · rcases hmismatch.of_bind with hbody | ⟨⟨own, body⟩, -, hmismatch⟩
    · exact not_mismatches_bodyOf h hbody
    · rcases hmismatch.of_bind with hlinks | ⟨ks, -, hrest⟩
      · exact not_mismatches_links hlinks
      · exact not_mismatches_ok hrest

theorem not_mismatches_single {target : Option ObjectKey}
    (h : ∀ k, target = some k → s.HasType t k) (relation : Nat) :
    ¬ Mismatches (s.single t target relation) := by
  intro hmismatch
  rcases hmismatch.of_bind with hindex | ⟨r, -, hmismatch⟩
  · exact not_mismatches_checkIndex hindex
  · rcases hmismatch.of_bind with hbody | ⟨⟨own, body⟩, -, hrest⟩
    · exact not_mismatches_bodyOf h hbody
    · dsimp only at hrest
      split at hrest
      · exact not_mismatches_ok hrest
      · exact not_mismatches_ok hrest

/-- The links of a body have declared types, so what an accessor finds has. -/
theorem typeName?_of_related (h : WellFormed s) {target : Option ObjectKey}
    {r : Fin t.toMany.length} {places : List (Option ObjectKey)}
    (hrelated : s.related t target r = .ok places) :
    ∀ k, some k ∈ places → s.typeName? (some k) = some (t.toMany.get r).target := by
  intro k hk
  obtain ⟨i, hindex, hrelated⟩ := bind_eq_ok_iff.1 hrelated
  obtain ⟨⟨own, body⟩, hbodyOf, hrelated⟩ := bind_eq_ok_iff.1 hrelated
  obtain ⟨ks, hlinks, hplaces⟩ := bind_eq_ok_iff.1 hrelated
  cases hplaces
  obtain ⟨k', hk', hplace⟩ := List.mem_map.1 hk
  obtain ⟨rfl, -⟩ := placeOf_eq_some_iff.1 hplace
  have hsame : i = r := Fin.ext (checkIndex_eq_ok hindex)
  subst hsame
  exact links_typed h (bodyOf_eq_ok hbodyOf).2 hlinks k' hk'

theorem typeName?_of_single (h : WellFormed s) {target : Option ObjectKey}
    {r : Fin t.toOne.length} (hsingle : s.single t target r = .ok (some (some k))) :
    s.typeName? (some k) = some (t.toOne.get r).target := by
  obtain ⟨i, hindex, hrest⟩ := bind_eq_ok_iff.1 hsingle
  obtain ⟨⟨own, body⟩, hbodyOf, hplaced⟩ := bind_eq_ok_iff.1 hrest
  have hsame : i = r := Fin.ext (checkIndex_eq_ok hindex)
  subst hsame
  dsimp only at hplaced
  split at hplaced
  · cases hplaced
  · rename_i k' hlink
    have hplace : s.placeOf k' = some k := Option.some.inj (Except.ok.inj hplaced)
    obtain ⟨rfl, -⟩ := placeOf_eq_some_iff.1 hplace
    exact (linksTyped_of_body h (bodyOf_eq_ok hbodyOf).2).toOne i k' hlink

/-! ## Handles to related objects -/

/-- All handles from the key `n` on point at objects of type `u`, or at none. -/
def TypedFrom (s : Store) (n : HandleKey) (u : DataType) : Prop :=
  ∀ key k, n ≤ key → s.handles.get? key = some (some k) → s.HasType u k

theorem typedFrom_next : s.TypedFrom s.handles.next u := by
  intro key k hkey hget
  exact absurd (Arena.lt_next_of_get? hget) (Nat.not_lt.2 hkey)

theorem TypedFrom.withHandle (h : s.TypedFrom n u) {place : Option ObjectKey}
    (hplace : ∀ k, place = some k → s.HasType u k) : (s.withHandle place).TypedFrom n u := by
  intro key k hkey hget
  rw [withHandle_handles] at hget
  refine (quiet_withHandle s place).retains.hasType ?_
  rcases Arena.get?_insert_eq_some hget with hold | ⟨-, hnew⟩
  · exact h key k hkey hold
  · exact hplace k hnew.symm

theorem TypedFrom.target (h : s.TypedFrom n u) {r : Reference} (hr : n ≤ r.key)
    (hk : s.target r = some k) : s.HasType u k :=
  h r.key k hr (target_eq_some_iff.1 hk)

/-- References to places of type `u` are made in any case, and they are typed. -/
theorem exists_referAll (h : s.TypedFrom n u) (hn : n ≤ s.handles.next)
    {places : List (Option ObjectKey)} (hplaces : ∀ k, some k ∈ places → s.HasType u k) :
    ∃ references s', referAll places s = (.ok references, s') ∧ s'.TypedFrom n u ∧
      ∀ r ∈ references, n ≤ r.key := by
  induction places generalizing s with
  | nil => exact ⟨[], s, rfl, h, by simp⟩
  | cons place rest ih =>
    have hplace : ∀ k, place = some k → s.HasType u k := by
      rintro k rfl
      exact hplaces k List.mem_cons_self
    have hrest : ∀ k, some k ∈ rest → (s.withHandle place).HasType u k := by
      intro k hk
      have hold := hplaces k (List.mem_cons_of_mem place hk)
      exact (quiet_withHandle s place).retains.hasType hold
    -- handles that are made from now on have later keys
    have hnext : n ≤ (s.withHandle place).handles.next := by
      rw [withHandle_handles, Arena.next_insert]
      exact Nat.le_succ_of_le hn
    rcases ih (h.withHandle hplace) hnext hrest with ⟨references, s', hrun, htyped, hkeys⟩
    refine ⟨⟨s.handles.next⟩ :: references, s', ?_, htyped, ?_⟩
    · rw [referAll, bind_apply_of_ok (refer_apply place s), bind_apply_of_ok hrun, pure_apply]
    · intro r hr
      rcases List.mem_cons.1 hr with rfl | hr
      · exact hn
      · exact hkeys r hr

theorem thenDrop_fst (references : List Reference) (action : Action α) (s : Store) :
    (thenDrop references action s).1 = (action s).1 := by
  unfold thenDrop
  split
  rename_i heq
  rw [heq]

theorem dropOnFailure_fst (r : Reference) (action : Action α) (s : Store) :
    (dropOnFailure r action s).1 = (action s).1 := by
  unfold dropOnFailure
  split
  · rename_i heq
    rw [heq]
  · rename_i heq
    rw [heq]

theorem downcast_apply_of_hasType {r : Reference} (hk : s.target r = some k)
    (htype : s.HasType u k) :
    downcast u r s = (.ok ⟨⟨s.handles.next⟩⟩, s.withHandle (some k)) := by
  rcases htype with ⟨o, ho, htype⟩
  have hexpect : s.expectType u (some k) = .ok k := by
    simp [expectType, object_eq_ok_iff.2 ho, htype, bind, Except.bind, pure, Except.pure]
  rw [downcast, get_bind_apply, get_bind_apply, bind_apply, ask_apply, hk, hexpect]
  exact handleTo_apply u (some k) s

theorem downcast_apply_of_none {r : Reference} (hr : s.target r = none) :
    downcast u r s = (.error .unavailable, s) := by
  rw [downcast, get_bind_apply, get_bind_apply, bind_apply, ask_apply, hr]
  rfl

/-- Typed references have typed handles. -/
theorem not_mismatches_downcastAll (h : s.TypedFrom n u) {references : List Reference}
    (hkeys : ∀ r ∈ references, n ≤ r.key) : ¬ Mismatches (downcastAll u references s).1 := by
  induction references generalizing s with
  | nil => exact not_mismatches_ok
  | cons r rest ih =>
    rw [downcastAll]
    rcases hr : s.target r with _ | k
    · rw [bind_apply, downcast_apply_of_none hr]
      rintro ⟨expected, found, herror⟩
      cases herror
    -- a handle that leads somewhere leads to an object of the type
    · have htype := h.target (hkeys r List.mem_cons_self) hr
      have hnext : (s.withHandle (some k)).TypedFrom n u := by
        refine h.withHandle ?_
        rintro k' ⟨⟩
        exact htype
      have hrest := ih hnext fun r' hr' => hkeys r' (List.mem_cons_of_mem r hr')
      rw [bind_apply_of_ok (downcast_apply_of_hasType hr htype), dropOnFailure_fst, bind_apply]
      rcases hrun : downcastAll u rest (s.withHandle (some k)) with ⟨e | handles, s'⟩
      · rw [hrun] at hrest
        rintro ⟨expected, found, herror⟩
        exact hrest ⟨expected, found, congrArg Except.error (Except.error.inj herror)⟩
      · exact not_mismatches_ok

theorem not_mismatches_relatedHandles (h : WellFormed s) {handle : Handle t}
    (hhandle : s.IsTyped handle) (r : Fin t.toMany.length)
    (htarget : ∀ k, s.typeName? (some k) = some (t.toMany.get r).target → s.HasType u k) :
    ¬ Mismatches (relatedHandles u handle r s).1 := by
  rw [relatedHandles, relatedReferences, bind_apply, get_bind_apply, bind_apply, ask_apply]
  rcases hrelated : s.related t (s.target handle.toReference) r with e | places
  · have hnot := not_mismatches_related hhandle r
    rw [hrelated] at hnot
    rintro ⟨expected, found, herror⟩
    exact hnot ⟨expected, found, congrArg Except.error (Except.error.inj herror)⟩
  · have hplaces : ∀ k, some k ∈ places → s.HasType u k := fun k hk =>
      htarget k (typeName?_of_related h hrelated k hk)
    rcases exists_referAll typedFrom_next (Nat.le_refl _) hplaces
      with ⟨references, s', hrun, htyped, hkeys⟩
    dsimp only
    rw [hrun]
    dsimp only
    rw [thenDrop_fst]
    exact not_mismatches_downcastAll htyped hkeys

theorem not_mismatches_singleHandle (h : WellFormed s) {handle : Handle t}
    (hhandle : s.IsTyped handle) (r : Fin t.toOne.length)
    (htarget : ∀ k, s.typeName? (some k) = some (t.toOne.get r).target → s.HasType u k) :
    ¬ Mismatches (singleHandle u handle r s).1 := by
  rw [singleHandle, singleReference, bind_apply, get_bind_apply, bind_apply, ask_apply]
  rcases hsingle : s.single t (s.target handle.toReference) r with e | _ | place
  · have hnot := not_mismatches_single hhandle r
    rw [hsingle] at hnot
    rintro ⟨expected, found, herror⟩
    exact hnot ⟨expected, found, congrArg Except.error (Except.error.inj herror)⟩
  · exact not_mismatches_ok
  · have hplace : ∀ k, place = some k → s.HasType u k := by
      rintro k rfl
      exact htarget k (typeName?_of_single h hsingle)
    dsimp only
    rw [bind_apply_of_ok (refer_apply place s), pure_apply]
    dsimp only
    rw [thenDrop_fst, map_apply]
    have hnext := typedFrom_next.withHandle hplace
    rcases hr : (s.withHandle place).target ⟨s.handles.next⟩ with _ | k
    · rw [downcast_apply_of_none hr]
      rintro ⟨expected, found, herror⟩
      cases herror
    · rw [downcast_apply_of_hasType hr (hnext.target (Nat.le_refl _) hr)]
      exact not_mismatches_ok

/-! ## All links -/

/-- Every link of the store leads to an object of the type that is declared for it, and no accessor
that asks for this type finds another one. -/
structure RelationsTyped (s : Store) (types : Set DataType) : Prop where
  toMany : ∀ k o, s.objects.get? k = some o → ∀ (r : Fin o.type.toMany.length) ks,
    s.links k o.body r = .ok ks →
      ∀ k' ∈ ks, s.HasTypeNamed types (o.type.toMany.get r).target k'
  toOne : ∀ k o, s.objects.get? k = some o → ∀ (r : Fin o.type.toOne.length) k',
    o.body.toOne[r] = some k' → s.HasTypeNamed types (o.type.toOne.get r).target k'
  slots : ∀ c col slots k, s.collections.get? c = some col → col.storage = .subset slots →
    .linked k ∈ slots → s.HasType col.type k
  relatedHandles : ∀ (t u : DataType) (handle : Handle t) (r : Fin t.toMany.length),
    s.IsTyped handle → u ∈ types → u.name = (t.toMany.get r).target →
      ¬ Mismatches (relatedHandles u handle r s).1
  singleHandle : ∀ (t u : DataType) (handle : Handle t) (r : Fin t.toOne.length),
    s.IsTyped handle → u ∈ types → u.name = (t.toOne.get r).target →
      ¬ Mismatches (singleHandle u handle r s).1

/-- If distinct types have distinct names, then relations are well typed in every run: for objects
of all collections, floating and released ones, and whether their links were made by handles or from
stored addresses. -/
theorem relationsTyped_of_reachable (h : Reachable s) (hnames : types.InjOn DataType.name)
    (huses : s.Uses types) : RelationsTyped s types where
  toMany k o ho r ks hlinks k' hk' := by
    have hname := (h.wellFormed.links k o ho).links h.wellFormed hlinks k' hk'
    exact hasTypeNamed_of_typeName? hnames huses hname
  toOne k o ho r k' hk' := by
    have hname := (h.wellFormed.links k o ho).toOne r k' hk'
    exact hasTypeNamed_of_typeName? hnames huses hname
  slots c col slots k hcol hstorage hk := by
    rcases h.wellFormed.slots c col slots k hcol hstorage hk with ⟨o, ho, htype, -⟩
    exact ⟨o, ho, htype⟩
  relatedHandles t u handle r hhandle hu hname := by
    refine not_mismatches_relatedHandles h.wellFormed hhandle r fun k hk => ?_
    exact (hasTypeNamed_of_typeName? hnames huses hk).hasType hu hname
  singleHandle t u handle r hhandle hu hname := by
    refine not_mismatches_singleHandle h.wellFormed hhandle r fun k hk => ?_
    exact (hasTypeNamed_of_typeName? hnames huses hk).hasType hu hname

/-- A frame with links of all kinds, and an object of another type. -/
def mixedStore : Store :=
  withNode 7 linkedStore

theorem uses_mixedStore : mixedStore.Uses {meshType, nodeType} := by
  have hall : mixedStore.objects.any
      (fun o => !(decide (o.type = meshType) || decide (o.type = nodeType))) = false := by
    decide +kernel
  intro k o ho
  simpa [or_iff_not_imp_left] using Arena.any_eq_false_iff.1 hall k o ho

theorem relationsTyped_of_reachable_mixedStore :
    Set.InjOn DataType.name {meshType, nodeType} ∧ mixedStore.Uses {meshType, nodeType} ∧
      RelationsTyped mixedStore {meshType, nodeType} ∧
      mixedStore.IsTyped (t := meshType) ⟨⟨0⟩⟩ ∧
      ¬ Mismatches (relatedHandles meshType (t := meshType) ⟨⟨0⟩⟩ 0 mixedStore).1 := by
  have hreachable : Reachable mixedStore :=
    reachable_withNode 7 reachable_linkedStore (by decide +kernel)
  have hnames : Set.InjOn DataType.name {meshType, nodeType} := by
    have hne : meshType.name ≠ nodeType.name := by decide
    simp [Set.InjOn, hne, hne.symm]
  have hhandle : mixedStore.IsTyped (t := meshType) ⟨⟨0⟩⟩ := by
    intro k hk
    have htarget : mixedStore.target ⟨0⟩ = some 0 := by decide +kernel
    cases htarget.symm.trans hk
    exact ⟨(mixedStore.objects.get? 0).get (by decide +kernel), (Option.some_get _).symm,
      by decide +kernel⟩
  have hrelations := relationsTyped_of_reachable hreachable hnames uses_mixedStore
  refine ⟨hnames, uses_mixedStore, hrelations, hhandle, ?_⟩
  exact hrelations.relatedHandles meshType meshType ⟨⟨0⟩⟩ ⟨0, by decide⟩ hhandle (by simp) (by decide)

end Store
end EventModel
