import EventModel.Proofs.Store.Cache
import EventModel.Proofs.Store.Failures

/-!
# What is refused before resolution

As long as the addresses of a rebuilt collection wait for resolution, its to-many relations cannot
be read or changed, and neither can the places of a subset collection be read. The error names a
collection by its number: a place the one of its collection, and a relation the one that the
collection of the object was rebuilt with.
-/

namespace EventModel

variable {α β : Type} {n : CollectionId}

/-- The computation is refused because addresses wait, and the error names the number `n`. -/
def Refuses (x : Except Error α) (n : CollectionId) : Prop :=
  ∃ type, x = .error (.unresolvedReferences type n)

theorem not_refuses_ok {a : α} : ¬ Refuses (.ok a) n := by
  rintro ⟨type, h⟩
  cases h

/-- The error is the same whatever was to be computed. -/
theorem Refuses.cast {e : Error} (h : Refuses (.error e : Except Error α) n) :
    Refuses (.error e : Except Error β) n := by
  rcases h with ⟨type, heq⟩
  exact ⟨type, by rw [Except.error.inj heq]⟩

/-- What is refused in a sequence is refused in one of its parts. -/
theorem Refuses.of_bind {x : Except Error α} {f : α → Except Error β} (h : Refuses (x >>= f) n) :
    Refuses x n ∨ ∃ a, x = .ok a ∧ Refuses (f a) n := by
  rcases h with ⟨type, h⟩
  rcases bind_eq_error_iff.1 h with hx | ⟨a, ha, hf⟩
  · exact .inl ⟨type, hx⟩
  · exact .inr ⟨a, ha, type, hf⟩

theorem Refuses.of_mapM {f : α → Except Error β} {xs : List α} (h : Refuses (xs.mapM f) n) :
    ∃ x ∈ xs, Refuses (f x) n := by
  rcases h with ⟨type, h⟩
  rcases exists_of_mapM_eq_error h with ⟨x, hx, herror⟩
  exact ⟨x, hx, type, herror⟩

theorem Refuses.of_tryOfFn {m : Nat} {f : Fin m → Except Error α} (h : Refuses (tryOfFn f) n) :
    ∃ i, Refuses (f i) n := by
  rcases h with ⟨type, h⟩
  rcases exists_of_tryOfFn_eq_error h with ⟨i, herror⟩
  exact ⟨i, type, herror⟩

namespace Store

variable {s : Store} {t : DataType} {k : ObjectKey} {body : Body t} {col : Collection}

/-! ## Questions that never depend on resolution -/

theorem not_refuses_checkIndex {index m : Nat} : ¬ Refuses (checkIndex index m) n := by
  rintro ⟨type, h⟩
  cases checkIndex_eq_error h

theorem not_refuses_bodyOf {target : Option ObjectKey} : ¬ Refuses (s.bodyOf t target) n := by
  rintro ⟨type, h⟩
  rcases bodyOf_eq_error h with herror | ⟨k, o, -, -, -, herror⟩
  · cases herror
  · cases herror

theorem not_refuses_checkTarget {target : Option ObjectKey} {expected : String} :
    ¬ Refuses (s.checkTarget target expected) n := by
  rintro ⟨type, h⟩
  rcases checkTarget_eq_error h with herror | ⟨found, herror⟩
  · cases herror
  · cases herror

theorem not_refuses_slice {w : Window} {column : List α} : ¬ Refuses (w.slice column) n := by
  rintro ⟨type, h⟩
  rcases Window.slice_eq_error h with ⟨reason, herror⟩
  cases herror

theorem not_refuses_originOf : ¬ Refuses (s.originOf t k) n := by
  rintro ⟨type, h⟩
  cases originOf_eq_error h

/-! ## Relations -/

/-- A relation is refused as long as the columns of its object wait, under the number that they were
read with. -/
theorem originOf_of_refuses_links {r : Fin t.toMany.length} (h : Refuses (s.links k body r) n) :
    ∃ many one, s.originOf t k = .ok ⟨n, .stored many one⟩ := by
  unfold Store.links at h
  rcases hmany : body.toMany with lists | windows
  · rw [hmany] at h
    exact absurd h not_refuses_ok
  · rw [hmany] at h
    rcases h.of_bind with horigin | ⟨⟨id, ⟨many, one⟩ | many⟩, horigin, h⟩
    · exact absurd horigin not_refuses_originOf
    · rcases h with ⟨type, h⟩
      cases h
      exact ⟨many, one, horigin⟩
    · exact absurd h not_refuses_slice

theorem originOf_of_refuses_ownLists (h : Refuses (s.ownLists k body) n) :
    ∃ many one, s.originOf t k = .ok ⟨n, .stored many one⟩ := by
  unfold Store.ownLists at h
  rcases hmany : body.toMany with lists | windows
  · rw [hmany] at h
    exact absurd h not_refuses_ok
  · rw [hmany] at h
    rcases h.of_tryOfFn with ⟨r, hlinks⟩
    exact originOf_of_refuses_links hlinks

theorem originOf_of_refuses_related {relation : Nat} (h : Refuses (s.related t (some k) relation) n) :
    ∃ many one, s.originOf t k = .ok ⟨n, .stored many one⟩ := by
  rcases h.of_bind with hindex | ⟨r, -, h⟩
  · exact absurd hindex not_refuses_checkIndex
  · rcases h.of_bind with hbody | ⟨⟨k', body⟩, hbody, h⟩
    · exact absurd hbody not_refuses_bodyOf
    · cases (bodyOf_eq_ok hbody).1
      rcases h.of_bind with hlinks | ⟨ks, -, h⟩
      · exact originOf_of_refuses_links hlinks
      · exact absurd h not_refuses_ok

/-- An edit is refused only by what it computes from the object. -/
theorem refuses_of_edit {handle : MutableHandle t}
    {f : Store → ObjectKey → Body t → Except Error (Body t)} (h : Refuses (edit handle f s).1 n)
    (hk : s.target handle.toReference = some k) : ∃ body, Refuses (f s k body) n := by
  unfold Store.edit at h
  rcases hbody : s.bodyOf t (s.target handle.toReference) with e | ⟨k', body⟩
  · rw [hbody] at h
    have hrefused : Refuses (s.bodyOf t (s.target handle.toReference)) n := by
      rw [hbody]
      exact h.cast
    exact absurd hrefused not_refuses_bodyOf
  · rw [hbody] at h
    dsimp only at h
    cases hk.symm.trans (bodyOf_eq_ok hbody).1
    refine ⟨body, ?_⟩
    rcases hf : f s k body with e | changed
    · rw [hf] at h
      exact h.cast
    · rw [hf] at h
      exact absurd h not_refuses_ok

theorem refuses_of_ask_bind {x : Except Error α} {f : α → Action β}
    (h : Refuses ((liftM x >>= f) s).1 n) : Refuses x n ∨ ∃ a, x = .ok a ∧ Refuses (f a s).1 n := by
  rw [bind_apply, ask_apply] at h
  rcases x with e | a
  · exact .inl h.cast
  · exact .inr ⟨a, rfl, h⟩

/-- Reading or changing a to-many relation of the object is refused under the number `n`. -/
inductive RefusesRelation (s : Store) (t : DataType) (k : ObjectKey) (n : CollectionId) : Prop
  | related (relation : Nat) (h : Refuses (s.related t (some k) relation) n)
  | addRelated (handle : MutableHandle t) (relation : Nat) (target : Reference)
      (hk : s.target handle.toReference = some k)
      (h : Refuses (addRelated handle relation target s).1 n)
  | clearRelated (handle : MutableHandle t) (relation : Nat)
      (hk : s.target handle.toReference = some k)
      (h : Refuses (clearRelated handle relation s).1 n)

theorem RefusesRelation.originOf (h : s.RefusesRelation t k n) :
    ∃ many one, s.originOf t k = .ok ⟨n, .stored many one⟩ := by
  cases h with
  | related relation h => exact originOf_of_refuses_related h
  | addRelated handle relation target hk h =>
    rcases refuses_of_ask_bind h with hindex | ⟨r, -, h⟩
    · exact absurd hindex not_refuses_checkIndex
    · rw [get_bind_apply, get_bind_apply] at h
      rcases refuses_of_ask_bind h with htarget | ⟨k', -, h⟩
      · exact absurd htarget not_refuses_checkTarget
      · rcases refuses_of_edit h hk with ⟨body, h⟩
        rcases h.of_bind with hlists | ⟨lists, -, h⟩
        · exact originOf_of_refuses_ownLists hlists
        · exact absurd h not_refuses_ok
  | clearRelated handle relation hk h =>
    rcases refuses_of_ask_bind h with hindex | ⟨r, -, h⟩
    · exact absurd hindex not_refuses_checkIndex
    · rcases refuses_of_edit h hk with ⟨body, h⟩
      rcases h.of_bind with hlists | ⟨lists, -, h⟩
      · exact originOf_of_refuses_ownLists hlists
      · exact absurd h not_refuses_ok

/-! ## Places -/

/-- Reading the object at a position of the collection, or all of them, is refused under the number
`n`. -/
inductive RefusesPlace (col : Collection) (n : CollectionId) : Prop
  | position (index : Nat) (h : Refuses (objectAtPosition col index) n)
  | all (h : Refuses (allObjects col) n)

/-- A place is refused under the present number of its collection. -/
theorem RefusesPlace.eq_id (h : RefusesPlace col n) : n = col.id := by
  cases h with
  | position index h =>
    rcases h with ⟨type, h⟩
    unfold objectAtPosition at h
    split at h
    · split at h <;> cases h
    · split at h <;> cases h
      rfl
  | all h =>
    rcases h.of_mapM with ⟨place, -, type, h⟩
    rcases place with _ | k
    · cases h
      rfl
    · cases h

end Store
end EventModel
