import EventModel.Proofs.Store.Cache

/-!
# Collections with their objects

`Stands` and `Owns` name what is known of one collection and of the objects that it owns. Both stay
as long as the collection is steady. `Settles` orders the stores of a resolution: whatever a place
leads to, it leads to from then on.
-/

namespace EventModel.Store

variable {s s' s'' : Store} {t : DataType} {c : CollectionKey}

/-- The collection has this type, number, storage and origin. -/
def Stands (s : Store) (c : CollectionKey) (t : DataType) (id : CollectionId) (storage : Storage)
    (origin : Option (Origin t)) : Prop :=
  ∃ config generation prepared,
    s.collections.get? c = some ⟨t, id, config, storage, generation, prepared, origin⟩

/-- The collection owns the objects of these keys, which have these bodies. -/
structure Owns (s : Store) (c : CollectionKey) (keys : List ObjectKey) (bodies : List (Body t)) :
    Prop where
  length : keys.length = bodies.length
  objects : ∀ (i : Nat) k body, keys[i]? = some k → bodies[i]? = some body →
    s.objects.get? k = some ⟨t, .owned c i, body⟩

section Standing

variable {id : CollectionId} {storage : Storage} {origin : Option (Origin t)}

theorem stands_of_get? {col : Collection} (hcol : s.collections.get? c = some col) :
    s.Stands c col.type col.id col.storage col.origin :=
  ⟨col.config, col.generation, col.prepared, hcol⟩

theorem Stands.collection (h : s.Stands c t id storage origin) :
    ∃ col, s.collections.get? c = some col ∧ col.type = t ∧ col.id = id ∧
      col.storage = storage := by
  rcases h with ⟨config, generation, prepared, hcol⟩
  exact ⟨_, hcol, rfl, rfl, rfl⟩

/-- The columns of an object are those of the collection that owns it. -/
theorem Stands.originOf {columns : Origin t} (h : s.Stands c t id storage (some columns))
    {k : ObjectKey} {i : Nat} {body : Body t}
    (ho : s.objects.get? k = some ⟨t, .owned c i, body⟩) : s.originOf t k = .ok columns := by
  rcases h with ⟨config, generation, prepared, hcol⟩
  rw [originOf_of_owned ho rfl hcol]
  simp [Collection.originAs]

theorem Steady.refl {col : Collection} (hcol : s.collections.get? c = some col) : Steady s s c :=
  ⟨⟨col, col, hcol, hcol, rfl⟩, fun _ _ _ ho _ => ho⟩

theorem Steady.trans (steady : Steady s s' c) (steady' : Steady s' s'' c) : Steady s s'' c where
  collection := by
    rcases steady.collection with ⟨col, col₁, hcol, hcol₁, heq⟩
    rcases steady'.collection with ⟨col₂, col', hcol₂, hcol', heq'⟩
    have hsame : col₂ = col₁ := Option.some.inj (hcol₂.symm.trans hcol₁)
    refine ⟨col, col', hcol, hcol', ?_⟩
    rw [heq', hsame, heq]
  objects k o i ho htracking := steady'.objects k o i (steady.objects k o i ho htracking) htracking

theorem Steady.stands (steady : Steady s s' c) (h : s.Stands c t id storage origin) :
    s'.Stands c t id storage origin := by
  rcases h with ⟨config, generation, prepared, hcol⟩
  rcases steady.collection with ⟨col, col', hcol', hsteady, heq⟩
  have hsame : col = ⟨t, id, config, storage, generation, prepared, origin⟩ :=
    Option.some.inj (hcol'.symm.trans hcol)
  refine ⟨config, generation, col'.prepared, ?_⟩
  rw [hsteady, heq, hsame]

theorem Steady.owns (steady : Steady s s' c) {keys : List ObjectKey} {bodies : List (Body t)}
    (h : s.Owns c keys bodies) : s'.Owns c keys bodies where
  length := h.length
  objects i k body hk hbody := steady.objects k _ i (h.objects i k body hk hbody) rfl

/-- An object stands at one position only. -/
theorem Owns.nodup {keys : List ObjectKey} {bodies : List (Body t)} (h : s.Owns c keys bodies) :
    keys.Nodup := by
  refine List.nodup_iff_getElem?_ne_getElem?.2 ?_
  intro i j hlt hj heq
  have hbodyi : i < bodies.length := h.length ▸ Nat.lt_trans hlt hj
  have hbodyj : j < bodies.length := h.length ▸ hj
  have hkj : keys[j]? = some keys[j] := List.getElem?_eq_getElem hj
  have hi := h.objects i keys[j] bodies[i] (heq.trans hkj) (List.getElem?_eq_getElem hbodyi)
  have hj := h.objects j keys[j] bodies[j] hkj (List.getElem?_eq_getElem hbodyj)
  rw [hi] at hj
  cases hj
  exact Nat.lt_irrefl i hlt

/-- The object of a key is one of the bodies. -/
theorem Owns.object {keys : List ObjectKey} {bodies : List (Body t)} (h : s.Owns c keys bodies)
    {i : Nat} {k : ObjectKey} (hk : keys[i]? = some k) :
    ∃ body, bodies[i]? = some body ∧ s.objects.get? k = some ⟨t, .owned c i, body⟩ := by
  have hlt : i < bodies.length := h.length ▸ (List.getElem?_eq_some_iff.1 hk).1
  have hbody : bodies[i]? = some bodies[i] := List.getElem?_eq_getElem hlt
  exact ⟨bodies[i], hbody, h.objects i k _ hk hbody⟩

end Standing

/-! ## Places that stay -/

/-- Objects keep their types and collections their numbers, and a place that leads to an object
keeps leading to it. -/
structure Settles (s s' : Store) : Prop where
  retains : Retains s s'
  numbers : ∀ c col, s.collections.get? c = some col →
    ∃ col', s'.collections.get? c = some col' ∧ col'.id = col.id
  places : ∀ c col i k, s.collections.get? c = some col → objectAtPosition col i = .ok k →
    ∃ col', s'.collections.get? c = some col' ∧ objectAtPosition col' i = .ok k

namespace Settles

theorem refl (s : Store) : Settles s s :=
  ⟨.refl s, fun _ col hcol => ⟨col, hcol, rfl⟩, fun _ col _ _ hcol hk => ⟨col, hcol, hk⟩⟩

theorem trans (h : Settles s s') (h' : Settles s' s'') : Settles s s'' where
  retains := h.retains.trans h'.retains
  numbers c col hcol := by
    rcases h.numbers c col hcol with ⟨col', hcol', hid⟩
    rcases h'.numbers c col' hcol' with ⟨col'', hcol'', hid'⟩
    exact ⟨col'', hcol'', hid'.trans hid⟩
  places c col i k hcol hk := by
    rcases h.places c col i k hcol hk with ⟨col', hcol', hk'⟩
    exact h'.places c col' i k hcol' hk'

/-- Every collection keeps its number and its places. -/
theorem of_places (hretains : Retains s s')
    (hkept : ∀ d col, s.collections.get? d = some col → ∃ col', s'.collections.get? d = some col' ∧
      col'.id = col.id ∧
        ∀ i k, objectAtPosition col i = .ok k → objectAtPosition col' i = .ok k) :
    Settles s s' := by
  refine ⟨hretains, ?_, ?_⟩
  · intro d col hcol
    rcases hkept d col hcol with ⟨col', hcol', hid, -⟩
    exact ⟨col', hcol', hid⟩
  · intro d col i k hcol hk
    rcases hkept d col hcol with ⟨col', hcol', -, hplaces⟩
    exact ⟨col', hcol', hplaces i k hk⟩

/-- Only one collection changes, and it keeps its number and its places. -/
theorem of_steady (hretains : Retains s s')
    (hothers : ∀ d col, d ≠ c → s.collections.get? d = some col → Steady s s' d)
    (hkept : ∀ col, s.collections.get? c = some col → ∃ col', s'.collections.get? c = some col' ∧
      col'.id = col.id ∧ ∀ i k, objectAtPosition col i = .ok k → objectAtPosition col' i = .ok k) :
    Settles s s' := by
  refine .of_places hretains ?_
  intro d col hcol
  by_cases hd : d = c
  · subst hd
    exact hkept col hcol
  · rcases (hothers d col hd hcol).collection with ⟨col₁, col', hcol₁, hcol', heq⟩
    have hsame : col = col₁ := Option.some.inj (hcol.symm.trans hcol₁)
    rw [← hsame] at heq
    refine ⟨col', hcol', by rw [heq], ?_⟩
    intro i k hk
    rw [heq]
    exact hk

/-- Collections are known by the same numbers. -/
theorem resolverOf (h : Settles s s') {cs : List CollectionKey}
    (hcs : ∀ c ∈ cs, ∃ col, s.collections.get? c = some col) :
    s'.resolverOf cs = s.resolverOf cs := by
  have hknown : ∀ c ∈ cs.reverse, (s'.collections.get? c).map (fun col => (col.id, c)) =
      (s.collections.get? c).map (fun col => (col.id, c)) := by
    intro c hc
    rcases hcs c (List.mem_reverse.1 hc) with ⟨col, hcol⟩
    rcases h.numbers c col hcol with ⟨col', hcol', hid⟩
    rw [hcol, hcol', Option.map_some, Option.map_some, hid]
  unfold Store.resolverOf
  rw [List.filterMap_congr hknown]

/-- An address that was resolved once is resolved to the same object later. -/
theorem resolveObject (h : Settles s s') {resolver : Resolver} {id : ObjectId} {k : ObjectKey}
    (hk : s.resolveObject resolver id = .ok k) : s'.resolveObject resolver id = .ok k := by
  rcases resolveObject_eq_ok_iff.1 hk with ⟨c, col, i, hresolver, hcol, hposition, hplace⟩
  rcases h.places c col i k hcol hplace with ⟨col', hcol', hplace'⟩
  exact resolveObject_eq_ok_iff.2 ⟨c, col', i, hresolver, hcol', hposition, hplace'⟩

end Settles

/-! ## What resolution demands -/

section Demands

variable {resolver : Resolver} {id : ObjectId} {k : ObjectKey}

/-- The address leads to an object of the type with the given name. -/
structure Resolves (s : Store) (resolver : Resolver) (type : String) (id : ObjectId)
    (k : ObjectKey) : Prop where
  tracked : id.isUntracked = false
  type : s.typeName? (some k) = some type
  object : s.resolveObject resolver id = .ok k

theorem Resolves.settles {type : String} (h : s.Resolves resolver type id k)
    (hsettles : Settles s s') : s'.Resolves resolver type id k :=
  ⟨h.tracked, hsettles.retains.typeName? h.type, hsettles.resolveObject h.object⟩

theorem resolveTyped_eq_ok_iff (h : WellFormed s) {type : String} :
    s.resolveTyped resolver type id = .ok k ↔
      s.typeName? (some k) = some type ∧ s.resolveObject resolver id = .ok k := by
  constructor
  · exact resolveTyped_eq_ok h
  · rintro ⟨htype, hobject⟩
    refine bind_eq_ok_iff.2 ⟨k, hobject, ?_⟩
    simp only [htype, if_true]
    rfl

theorem resolveRequired_eq_ok_iff (h : WellFormed s) {source type : String} :
    s.resolveRequired resolver source type id = .ok k ↔ s.Resolves resolver type id k := by
  unfold resolveRequired
  rcases huntracked : id.isUntracked
  · simp only [Bool.false_eq_true, if_false]
    rw [resolveTyped_eq_ok_iff h]
    exact ⟨fun ⟨htype, hobject⟩ => ⟨huntracked, htype, hobject⟩, fun h => ⟨h.type, h.object⟩⟩
  · constructor
    · intro hfalse
      cases hfalse
    · intro h
      rw [h.tracked] at huntracked
      cases huntracked

/-- A to-one relation that is not set is stored as the untracked address. -/
def ResolvesOptional (s : Store) (resolver : Resolver) (type : String) (id : ObjectId)
    (place : Option ObjectKey) : Prop :=
  (id.isUntracked = true ∧ place = none) ∨ ∃ k, place = some k ∧ s.Resolves resolver type id k

theorem ResolvesOptional.settles {type : String} {place : Option ObjectKey}
    (h : s.ResolvesOptional resolver type id place) (hsettles : Settles s s') :
    s'.ResolvesOptional resolver type id place :=
  h.imp_right fun ⟨k, hplace, hk⟩ => ⟨k, hplace, hk.settles hsettles⟩

theorem resolveOptional_eq_ok_iff (h : WellFormed s) {type : String} {place : Option ObjectKey} :
    s.resolveOptional resolver type id = .ok place ↔
      s.ResolvesOptional resolver type id place := by
  unfold resolveOptional ResolvesOptional
  rcases huntracked : id.isUntracked
  · simp only [Bool.false_eq_true, if_false, false_and, false_or]
    rw [map_eq_ok_iff]
    constructor
    · rintro ⟨k, hk, rfl⟩
      rcases (resolveTyped_eq_ok_iff h).1 hk with ⟨htype, hobject⟩
      exact ⟨k, rfl, huntracked, htype, hobject⟩
    · rintro ⟨k, rfl, hk⟩
      exact ⟨k, (resolveTyped_eq_ok_iff h).2 ⟨hk.type, hk.object⟩, rfl⟩
  · simp only [if_true, true_and]
    constructor
    · intro heq
      exact .inl (Except.ok.inj heq).symm
    · rintro (rfl | ⟨k, -, hk⟩)
      · rfl
      · rw [hk.tracked] at huntracked
        cases huntracked

/-- A place that waits leads to an object of the type of its collection. -/
def ResolvesSlot (s : Store) (resolver : Resolver) (t : DataType) (id : ObjectId)
    (k : ObjectKey) : Prop :=
  s.Resolves resolver t.name id k ∧ ∃ o, s.objects.get? k = some o ∧ o.type = t

theorem ResolvesSlot.settles (h : s.ResolvesSlot resolver t id k) (hsettles : Settles s s') :
    s'.ResolvesSlot resolver t id k := by
  rcases h with ⟨hk, o, ho, htype⟩
  rcases hsettles.retains k o ho with ⟨o', ho', htype'⟩
  exact ⟨hk.settles hsettles, o', ho', htype'.trans htype⟩

theorem resolveSlot_pending_eq_ok_iff (h : WellFormed s) :
    s.resolveSlot resolver t (.pending id) = .ok k ↔ s.ResolvesSlot resolver t id k := by
  constructor
  · intro hk
    rcases bind_eq_ok_iff.1 hk with ⟨k', hk', hexpect⟩
    rcases expectType_eq_ok hexpect with ⟨hsome, o, ho, htype⟩
    cases hsome
    exact ⟨(resolveRequired_eq_ok_iff h).1 hk', o, ho, htype⟩
  · rintro ⟨hk, o, ho, htype⟩
    refine bind_eq_ok_iff.2 ⟨k, (resolveRequired_eq_ok_iff h).2 hk, ?_⟩
    refine bind_eq_ok_iff.2 ⟨o, object_eq_ok_iff.2 ho, ?_⟩
    simp only [htype, if_true]
    rfl

end Demands

end EventModel.Store
