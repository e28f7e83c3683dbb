import EventModel.Proofs.Store.Restored

/-!
# The order of resolution

The order in which collections are resolved does not matter as long as no address that waits leads
to a subset collection: every address is looked up among objects that no resolution moves, and what
two resolutions write lies apart. An address of a place in a subset collection is different, since
the place leads nowhere before the subset collection itself is resolved.
-/

namespace EventModel

namespace Store

variable {s s' s₁ s₂ : Store} {t : DataType} {c d : CollectionKey} {number origin : CollectionId}
  {resolver : Resolver}

/-! ## Updates that lie apart -/

/-- The update changes each object and each collection on its own, and only objects with the given
keys and one collection. -/
structure IsLocal (update : Store → Store) (c : CollectionKey) (keys : List ObjectKey) : Prop where
  objects : ∃ g : ObjectKey → Object → Object, (∀ k, k ∉ keys → g k = id) ∧
    (∀ k o, (g k o).type = o.type) ∧ ∀ s k, (update s).objects.get? k = (s.objects.get? k).map (g k)
  collections : ∃ g : CollectionKey → Collection → Collection, (∀ d, d ≠ c → g d = id) ∧
    ∀ s d, (update s).collections.get? d = (s.collections.get? d).map (g d)
  nextObject : ∀ s, (update s).objects.next = s.objects.next
  nextCollection : ∀ s, (update s).collections.next = s.collections.next
  frames : ∀ s, (update s).frames = s.frames
  handles : ∀ s, (update s).handles = s.handles
  serial : ∀ s, (update s).serial = s.serial

/-- The object with what the columns hold for a position, if it can still have links. -/
def assignObject (columns : Vector (List (Option ObjectKey)) t.toOne.length) (position : Nat)
    (o : Object) : Object :=
  if h : o.type = t ∧ o.isReleased = false then
    { o with body := h.1 ▸ assignSingles columns position (h.1 ▸ o.body) }
  else o

theorem assignObject_type (columns : Vector (List (Option ObjectKey)) t.toOne.length)
    (position : Nat) (o : Object) : (assignObject columns position o).type = o.type := by
  unfold assignObject
  split
  · rfl
  · rfl

theorem assignAt_get?_self (columns : Vector (List (Option ObjectKey)) t.toOne.length)
    (position : Nat) (k : ObjectKey) (s : Store) :
    (assignAt columns position k s).objects.get? k =
      (s.objects.get? k).map (assignObject columns position) := by
  rcases hk : s.objects.get? k with _ | ⟨type, tracking, body⟩
  · have hbody : s.body t k = .error .unavailable := by simp [Store.body, object, hk, bind, Except.bind]
    rw [assignAt, hbody]
    exact hk
  · by_cases h : type = t ∧ tracking ≠ .released
    · rcases h with ⟨rfl, htracking⟩
      have hbody : s.body type k = .ok body := body_eq_ok_iff.2 ⟨tracking, hk, htracking⟩
      have hreleased : (tracking == .released) = false := by simpa using htracking
      rw [assignAt, hbody]
      dsimp only
      rw [setBody_get?_self hk]
      simp [assignObject, Object.isReleased, hreleased]
    · have hsame : assignAt columns position k s = s := by
        rcases assignAt_eq columns position k s with heq | ⟨body', hbody', -⟩
        · exact heq
        · rcases body_eq_ok_iff.1 hbody' with ⟨tracking', hk', htracking'⟩
          cases hk.symm.trans hk'
          exact absurd ⟨rfl, htracking'⟩ h
      have hkept : assignObject columns position ⟨type, tracking, body⟩ = ⟨type, tracking, body⟩ := by
        refine dif_neg ?_
        simpa [Object.isReleased] using h
      rw [hsame, hk, Option.map_some, hkept]

namespace IsLocal

variable {update update' : Store → Store} {keys keys' : List ObjectKey}

/-- Updates of different collections with different objects can be made in any order. -/
theorem comm (h : IsLocal update c keys) (h' : IsLocal update' d keys') (hne : c ≠ d)
    (hdisjoint : ∀ k ∈ keys, k ∉ keys') (s : Store) :
    update' (update s) = update (update' s) := by
  have hmap : ∀ {α : Type} {f g : α → α} (x : Option α), f = id ∨ g = id →
      (x.map f).map g = (x.map g).map f := by
    rintro α f g x (rfl | rfl)
    · simp
    · simp
  refine eq_of_fields ?_ ?_ ?_ ?_ ?_
  · rcases h.objects with ⟨g, hg, -, hobjects⟩
    rcases h'.objects with ⟨g', hg', -, hobjects'⟩
    refine Arena.eq_of_get? ?_ ?_
    · rw [h'.nextObject, h.nextObject, h.nextObject, h'.nextObject]
    · intro k
      rw [hobjects', hobjects, hobjects, hobjects']
      refine hmap _ ?_
      by_cases hk : k ∈ keys
      · exact .inr (hg' k (hdisjoint k hk))
      · exact .inl (hg k hk)
  · rcases h.collections with ⟨g, hg, hcollections⟩
    rcases h'.collections with ⟨g', hg', hcollections'⟩
    refine Arena.eq_of_get? ?_ ?_
    · rw [h'.nextCollection, h.nextCollection, h.nextCollection, h'.nextCollection]
    · intro e
      rw [hcollections', hcollections, hcollections, hcollections']
      refine hmap _ ?_
      by_cases he : e = c
      · exact .inr (hg' e (he ▸ hne))
      · exact .inl (hg e he)
  · rw [h'.frames, h.frames, h.frames, h'.frames]
  · rw [h'.handles, h.handles, h.handles, h'.handles]
  · rw [h'.serial, h.serial, h.serial, h'.serial]

theorem refl (c : CollectionKey) : IsLocal id c [] where
  objects := ⟨fun _ => id, fun _ _ => rfl, fun _ _ => rfl, fun s k => by simp⟩
  collections := ⟨fun _ => id, fun _ _ => rfl, fun s d => by simp⟩
  nextObject _ := rfl
  nextCollection _ := rfl
  frames _ := rfl
  handles _ := rfl
  serial _ := rfl

theorem trans (h : IsLocal update c keys) (h' : IsLocal update' c keys') :
    IsLocal (fun s => update' (update s)) c (keys ++ keys') where
  objects := by
    rcases h.objects with ⟨g, hg, htype, hobjects⟩
    rcases h'.objects with ⟨g', hg', htype', hobjects'⟩
    refine ⟨fun k => g' k ∘ g k, ?_, fun k o => (htype' k _).trans (htype k o), ?_⟩
    · intro k hk
      rw [List.mem_append, not_or] at hk
      calc
        g' k ∘ g k = id ∘ id := by rw [hg k hk.1, hg' k hk.2]
        _ = id := rfl
    · intro s k
      rw [hobjects', hobjects, Option.map_map]
  collections := by
    rcases h.collections with ⟨g, hg, hcollections⟩
    rcases h'.collections with ⟨g', hg', hcollections'⟩
    refine ⟨fun d => g' d ∘ g d, ?_, ?_⟩
    · intro d hd
      calc
        g' d ∘ g d = id ∘ id := by rw [hg d hd, hg' d hd]
        _ = id := rfl
    · intro s d
      rw [hcollections', hcollections, Option.map_map]
  nextObject s := (h'.nextObject _).trans (h.nextObject s)
  nextCollection s := (h'.nextCollection _).trans (h.nextCollection s)
  frames s := (h'.frames _).trans (h.frames s)
  handles s := (h'.handles _).trans (h.handles s)
  serial s := (h'.serial _).trans (h.serial s)

theorem modifyCollection (c : CollectionKey) (g : Collection → Collection) :
    IsLocal (fun s => s.modifyCollection c g) c [] where
  objects := ⟨fun _ => id, fun _ _ => rfl, fun _ _ => rfl, fun s k => by simp⟩
  collections := by
    refine ⟨fun d => if c = d then g else id, fun d hd => if_neg hd.symm, ?_⟩
    intro s d
    rw [modifyCollection_collections, Arena.get?_modify]
    by_cases hd : c = d
    · simp [hd]
    · simp [hd]
  nextObject _ := rfl
  nextCollection s := Arena.next_modify _ _ _
  frames _ := rfl
  handles _ := rfl
  serial _ := rfl

theorem assignAt (columns : Vector (List (Option ObjectKey)) t.toOne.length) (position : Nat)
    (c : CollectionKey) (k : ObjectKey) : IsLocal (Store.assignAt columns position k) c [k] where
  objects := by
    refine ⟨fun k' => if k' = k then assignObject columns position else id, ?_, ?_, ?_⟩
    · intro k' hk'
      exact if_neg (List.ne_of_not_mem_cons hk')
    · intro k' o
      by_cases hk' : k' = k
      · simp only [hk', if_true, assignObject_type]
      · simp only [hk', if_false, id]
    · intro s k'
      by_cases hk' : k' = k
      · simp only [hk', if_true, assignAt_get?_self]
      · simp only [hk', if_false, assignAt_get?_ne hk', Option.map_id, id]
  collections := ⟨fun _ => id, fun _ _ => rfl, fun s d => by simp⟩
  nextObject s := by
    rcases assignAt_eq columns position k s with heq | ⟨body, -, heq⟩
    · rw [heq]
    · rw [heq, setBody_objects, Arena.next_modify]
  nextCollection s := by rw [assignAt_collections]
  frames s := by rw [assignAt_frames]
  handles s := by
    rcases assignAt_eq columns position k s with heq | ⟨body, -, heq⟩
    · rw [heq]
    · rw [heq, setBody_handles]
  serial s := by
    rcases assignAt_eq columns position k s with heq | ⟨body, -, heq⟩
    · rw [heq]
    · rw [heq]
      rfl

theorem assignAllSingles (columns : Vector (List (Option ObjectKey)) t.toOne.length)
    (position : Nat) (c : CollectionKey) (keys : List ObjectKey) :
    IsLocal (Store.assignAllSingles columns position keys) c keys := by
  induction keys generalizing position with
  | nil => exact .refl c
  | cons k rest ih => exact (IsLocal.assignAt columns position c k).trans (ih (position + 1))

end IsLocal

theorem IsLocal.withLinks {many : Vector (List ObjectKey) t.toMany.length}
    {one : Vector (List (Option ObjectKey)) t.toOne.length} (c : CollectionKey)
    (keys : List ObjectKey) (origin : CollectionId) :
    IsLocal (fun s => s.withLinks c keys origin many one) c keys := by
  have hlocal := (IsLocal.assignAllSingles one 0 c keys).trans
    (.modifyCollection c fun col => withColumns col (⟨origin, .resolved many⟩ : Origin t))
  rwa [List.append_nil] at hlocal

theorem IsLocal.withPlaces (c : CollectionKey) (t : DataType) (origin : CollectionId)
    (ks : List ObjectKey) : IsLocal (fun s => s.withPlaces c t origin ks) c [] :=
  .modifyCollection c _

/-! ## What a resolution does -/

/-- A resolution of the collection that succeeds makes this update. -/
inductive Relinks (s : Store) (resolver : Resolver) (c : CollectionKey) : (Store → Store) → Prop
  /-- Nothing waits. -/
  | settled {col : Collection} (hcol : s.collections.get? c = some col)
      (h : col.isUnresolved = false) : Relinks s resolver c fun s => s
  | owned {t : DataType} {number origin : CollectionId} {keys : List ObjectKey}
      {toMany : Vector (List ObjectId) t.toMany.length}
      {toOne : Vector (List ObjectId) t.toOne.length}
      {many : Vector (List ObjectKey) t.toMany.length}
      {one : Vector (List (Option ObjectKey)) t.toOne.length}
      (hstands : s.Stands c t number (.owned keys.toArray) (some ⟨origin, .stored toMany toOne⟩))
      (hfinds : s.FindsLinks resolver toMany toOne many one) :
      Relinks s resolver c fun s => s.withLinks c keys origin many one
  | subset {t : DataType} {number origin : CollectionId} {slots : List Slot}
      {toMany : Vector (List ObjectId) t.toMany.length}
      {toOne : Vector (List ObjectId) t.toOne.length} {ks : List ObjectKey}
      (hstands : s.Stands c t number (.subset slots.toArray) (some ⟨origin, .stored toMany toOne⟩))
      (hfinds : List.Forall₂ (s.FindsPlace resolver t) slots ks) :
      Relinks s resolver c fun s => s.withPlaces c t origin ks

theorem exists_stored_of_isUnresolved {col : Collection} (h : col.isUnresolved = true) :
    ∃ origin toMany toOne, col.origin = some ⟨origin, .stored toMany toOne⟩ := by
  unfold Collection.isUnresolved at h
  split at h
  · rename_i origin toMany toOne horigin
    exact ⟨origin, toMany, toOne, horigin⟩
  · cases h

theorem setReferences_of_settled {col : Collection} (hcol : s.collections.get? c = some col)
    (h : col.isUnresolved = false) : setReferences resolver c s = (.ok (), s) := by
  rw [setReferences, get_bind_apply, bind_apply, ask_apply, collection_eq_ok_iff.2 hcol]
  dsimp only
  rw [originAs_self]
  rcases horigin : col.origin with _ | ⟨origin, ⟨toMany, toOne⟩ | many⟩
  · rfl
  · rw [isUnresolved_of_stored horigin] at h
    cases h
  · rfl

/-- A resolution succeeds exactly if every address that waits is found. -/
theorem setReferences_eq_ok_iff (h : WellFormed s) :
    setReferences resolver c s = (.ok (), s') ↔
      ∃ update, s.Relinks resolver c update ∧ s' = update s := by
  constructor
  · intro hrun
    rcases hcol : s.collections.get? c with _ | col
    · rw [setReferences, get_bind_apply, bind_apply, ask_apply, collection, hcol] at hrun
      cases hrun
    rcases hunresolved : col.isUnresolved
    · rw [setReferences_of_settled hcol hunresolved] at hrun
      cases hrun
      exact ⟨_, .settled hcol hunresolved, rfl⟩
    · rcases exists_stored_of_isUnresolved hunresolved with ⟨origin, toMany, toOne, horigin⟩
      have hstands := stands_of_get? hcol
      rw [horigin] at hstands
      rcases hstorage : col.storage with ⟨⟨keys⟩⟩ | ⟨⟨slots⟩⟩
      · rw [hstorage] at hstands
        rcases (setReferences_owned_eq_ok_iff h hstands).1 hrun with ⟨many, one, hfinds, rfl⟩
        exact ⟨_, .owned hstands hfinds, rfl⟩
      · rw [hstorage] at hstands
        rcases (setReferences_subset_eq_ok_iff h hstands).1 hrun with ⟨ks, hfinds, rfl⟩
        exact ⟨_, .subset hstands hfinds, rfl⟩
  · rintro ⟨update, hrelinks, rfl⟩
    cases hrelinks with
    | settled hcol hsettled => exact setReferences_of_settled hcol hsettled
    | owned hstands hfinds =>
      exact (setReferences_owned_eq_ok_iff h hstands).2 ⟨_, _, hfinds, rfl⟩
    | subset hstands hfinds =>
      exact (setReferences_subset_eq_ok_iff h hstands).2 ⟨_, hfinds, rfl⟩

/-- A resolution touches the collection and its objects only. -/
theorem Relinks.isLocal (h : WellFormed s) {update : Store → Store}
    (hrelinks : s.Relinks resolver c update) : ∃ keys, IsLocal update c keys ∧
      ∀ k ∈ keys, ∃ o i, s.objects.get? k = some o ∧ o.tracking = .owned c i := by
  cases hrelinks with
  | settled => exact ⟨[], .refl c, by simp⟩
  | @owned t number origin keys toMany toOne many one hstands _ =>
    refine ⟨keys, .withLinks c keys origin, ?_⟩
    intro k hk
    rcases List.getElem?_of_mem hk with ⟨i, hi⟩
    rcases hstands.collection with ⟨col, hcol, -, -, hstorage⟩
    rcases h.listed c col _ i k hcol hstorage (List.getElem?_toArray ▸ hi) with ⟨o, ho, -, htracking⟩
    exact ⟨o, i, ho, htracking⟩
  | @subset t number origin slots toMany toOne ks _ _ =>
    exact ⟨[], .withPlaces c t origin ks, by simp⟩

theorem Relinks.get?_of_ne (h : WellFormed s) {update : Store → Store}
    (hrelinks : s.Relinks resolver c update) (hd : d ≠ c) :
    (update s).collections.get? d = s.collections.get? d := by
  rcases hrelinks.isLocal h with ⟨keys, hlocal, -⟩
  rcases hlocal.collections with ⟨g, hg, hcollections⟩
  rw [hcollections, hg d hd, Option.map_id]
  rfl

/-! ## What no resolution moves -/

/-- The objects of a normal collection. -/
def normalObjects (col : Collection) : Option (Array ObjectKey) :=
  match col.storage with
  | .owned objects => some objects
  | .subset _ => none

/-- Objects have the same types and normal collections the same objects. -/
structure SameNormals (s s' : Store) : Prop where
  types : ∀ k, (s'.objects.get? k).map Object.type = (s.objects.get? k).map Object.type
  collections : ∀ c, (s'.collections.get? c).map normalObjects =
    (s.collections.get? c).map normalObjects

theorem normalObjects_eq_some_iff {col : Collection} {objects : Array ObjectKey} :
    normalObjects col = some objects ↔ col.storage = .owned objects := by
  unfold normalObjects
  rcases col.storage with objects' | slots
  · simp
  · simp

namespace SameNormals

theorem symm (h : SameNormals s s') : SameNormals s' s :=
  ⟨fun k => (h.types k).symm, fun c => (h.collections c).symm⟩

theorem typeName? (h : SameNormals s s') (k : ObjectKey) :
    s'.typeName? (some k) = s.typeName? (some k) := by
  have htype := congrArg (Option.map DataType.name) (h.types k)
  rwa [Option.map_map, Option.map_map] at htype

theorem exists_type (h : SameNormals s s') {k : ObjectKey}
    (ho : ∃ o, s.objects.get? k = some o ∧ o.type = t) :
    ∃ o', s'.objects.get? k = some o' ∧ o'.type = t := by
  rcases ho with ⟨o, ho, htype⟩
  have hsome := h.types k
  rw [ho, Option.map_some, htype] at hsome
  exact Option.map_eq_some_iff.1 hsome

theorem isSubset (h : SameNormals s s') {col col' : Collection}
    (hcol : s.collections.get? c = some col) (hcol' : s'.collections.get? c = some col') :
    col'.isSubset = col.isSubset := by
  have hsame := h.collections c
  rw [hcol, hcol', Option.map_some, Option.map_some, Option.some.injEq] at hsame
  unfold normalObjects at hsame
  unfold Collection.isSubset
  rcases hstorage : col.storage with objects | slots
  · rcases hstorage' : col'.storage with objects' | slots'
    · rfl
    · rw [hstorage, hstorage'] at hsame
      cases hsame
  · rcases hstorage' : col'.storage with objects' | slots'
    · rw [hstorage, hstorage'] at hsame
      cases hsame
    · rfl

end SameNormals

/-- The resolver leads to no subset collection for this address. -/
def AvoidsSubset (s : Store) (resolver : Resolver) (id : ObjectId) : Prop :=
  ∀ c ∈ resolver id.collection, ∀ col ∈ s.collections.get? c, col.isSubset = false

instance (id : ObjectId) : Decidable (s.AvoidsSubset resolver id) :=
  inferInstanceAs (Decidable (∀ c ∈ resolver id.collection, ∀ col ∈ s.collections.get? c, _))

theorem SameNormals.avoidsSubset (h : SameNormals s s') {id : ObjectId}
    (havoids : s.AvoidsSubset resolver id) : s'.AvoidsSubset resolver id := by
  intro c hresolver col' hcol'
  have hsome : ((s.collections.get? c).map normalObjects).isSome := by
    rw [← h.collections c, Option.mem_def.1 hcol']
    rfl
  rw [Option.isSome_map] at hsome
  rcases Option.isSome_iff_exists.1 hsome with ⟨col, hcol⟩
  rw [h.isSubset hcol hcol', havoids c hresolver col hcol]

/-- An address in a normal collection leads to the same object. -/
theorem SameNormals.resolveObject (h : SameNormals s s') {id : ObjectId}
    (havoids : s.AvoidsSubset resolver id) {k : ObjectKey}
    (hk : s.resolveObject resolver id = .ok k) : s'.resolveObject resolver id = .ok k := by
  rcases resolveObject_eq_ok_iff.1 hk with ⟨c, col, i, hresolver, hcol, hposition, hplace⟩
  have hnormal := havoids c hresolver col hcol
  rcases hstorage : col.storage with objects | slots
  · have hsame := h.collections c
    rw [hcol, Option.map_some, normalObjects_eq_some_iff.2 hstorage] at hsame
    rcases Option.map_eq_some_iff.1 hsame with ⟨col', hcol', hobjects⟩
    refine resolveObject_eq_ok_iff.2 ⟨c, col', i, hresolver, hcol', hposition, ?_⟩
    rw [← hplace]
    unfold objectAtPosition
    rw [hstorage, normalObjects_eq_some_iff.1 hobjects]
  · rw [Collection.isSubset, hstorage] at hnormal
    cases hnormal

theorem Resolves.sameNormals {type : String} {id : ObjectId} {k : ObjectKey}
    (hk : s.Resolves resolver type id k) (h : SameNormals s s')
    (havoids : s.AvoidsSubset resolver id) : s'.Resolves resolver type id k :=
  ⟨hk.tracked, (h.typeName? k).trans hk.type, h.resolveObject havoids hk.object⟩

theorem Relinks.sameNormals (h : WellFormed s) {update : Store → Store}
    (hrelinks : s.Relinks resolver c update) : SameNormals s (update s) := by
  rcases hrelinks.isLocal h with ⟨keys, hlocal, -⟩
  refine ⟨?_, ?_⟩
  · intro k
    rcases hlocal.objects with ⟨g, -, htype, hobjects⟩
    rw [hobjects, Option.map_map]
    exact congrArg (Option.map · _) (funext (htype k))
  · intro d
    by_cases hd : d = c
    · subst hd
      cases hrelinks with
      | settled => rfl
      | owned hstands _ =>
        rcases (stands_withLinks hstands).collection with ⟨col', hcol', -, -, hstorage'⟩
        rcases hstands.collection with ⟨col, hcol, -, -, hstorage⟩
        rw [hcol, hcol', Option.map_some, Option.map_some, normalObjects_eq_some_iff.2 hstorage,
          normalObjects_eq_some_iff.2 hstorage']
      | subset hstands _ =>
        rcases (stands_withPlaces hstands).collection with ⟨col', hcol', -, -, hstorage'⟩
        rcases hstands.collection with ⟨col, hcol, -, -, hstorage⟩
        rw [hcol, hcol', Option.map_some, Option.map_some, normalObjects, normalObjects, hstorage,
          hstorage']
    · rw [hrelinks.get?_of_ne h hd]

theorem sameNormals_setReferences (h : WellFormed s)
    (hrun : setReferences resolver c s = (.ok (), s')) : SameNormals s s' := by
  rcases (setReferences_eq_ok_iff h).1 hrun with ⟨update, hrelinks, rfl⟩
  exact hrelinks.sameNormals h

/-! ## Addresses that wait -/

/-- The address of a place that waits. -/
def pendingId? : Slot → Option ObjectId
  | .pending id => some id
  | .linked _ => none

/-- The addresses for which a collection waits. -/
def awaitedIds (col : Collection) : List ObjectId :=
  match col.origin with
  | some ⟨_, .stored toMany toOne⟩ =>
    match col.storage with
    | .owned _ => toMany.toList.flatten ++ toOne.toList.flatten
    | .subset slots => slots.toList.filterMap pendingId?
  | _ => []

theorem mem_flatten_of_getElem {α : Type} {n : Nat} {columns : Vector (List α) n} {r : Fin n} {x : α}
    (h : x ∈ columns[r]) : x ∈ columns.toList.flatten :=
  List.mem_flatten.2 ⟨columns[r], by simp, h⟩

/-- No address for which the collection waits leads to a subset collection. -/
def AwaitsNormals (s : Store) (resolver : Resolver) (c : CollectionKey) : Prop :=
  ∀ col ∈ s.collections.get? c, ∀ id ∈ awaitedIds col, id.isUntracked = false →
    s.AvoidsSubset resolver id

instance (c : CollectionKey) : Decidable (s.AwaitsNormals resolver c) :=
  inferInstanceAs (Decidable (∀ col ∈ s.collections.get? c, ∀ id ∈ awaitedIds col, _))

/-- What a resolution does, it also does after resolutions of other collections. -/
theorem Relinks.after {update : Store → Store} (hrelinks : s.Relinks resolver c update)
    (hawaits : s.AwaitsNormals resolver c) (hsame : SameNormals s s')
    (hcol : s'.collections.get? c = s.collections.get? c) : s'.Relinks resolver c update := by
  cases hrelinks with
  | settled hget hsettled => exact .settled (hcol.trans hget) hsettled
  | @owned t number origin keys toMany toOne many one hstands hfinds =>
    rcases hstands with ⟨config, generation, prepared, hget⟩
    refine .owned ⟨config, generation, prepared, hcol.trans hget⟩ ⟨?_, ?_⟩
    · intro r
      have hmem : ∀ id ∈ toMany[r], id ∈ toMany.toList.flatten ++ toOne.toList.flatten :=
        fun id hid => List.mem_append_left _ (mem_flatten_of_getElem hid)
      refine ((List.forall₂_and_left _ _).2 ⟨hmem, hfinds.many r⟩).imp ?_
      rintro id k ⟨hid, hk⟩
      exact hk.sameNormals hsame (hawaits _ hget id hid hk.tracked)
    · intro r
      have hmem : ∀ id ∈ toOne[r], id ∈ toMany.toList.flatten ++ toOne.toList.flatten :=
        fun id hid => List.mem_append_right _ (mem_flatten_of_getElem hid)
      refine ((List.forall₂_and_left _ _).2 ⟨hmem, hfinds.one r⟩).imp ?_
      rintro id place ⟨hid, hplace⟩
      refine hplace.imp_right ?_
      rintro ⟨k, rfl, hk⟩
      exact ⟨k, rfl, hk.sameNormals hsame (hawaits _ hget id hid hk.tracked)⟩
  | @subset t number origin slots toMany toOne ks hstands hfinds =>
    rcases hstands with ⟨config, generation, prepared, hget⟩
    refine .subset ⟨config, generation, prepared, hcol.trans hget⟩ ?_
    refine ((List.forall₂_and_left _ _).2 ⟨fun slot hslot => hslot, hfinds⟩).imp ?_
    rintro slot k ⟨hslot, hk⟩
    cases hk with
    | linked k => exact .linked k
    | @pending id k hk =>
      have hid : id ∈ slots.toArray.toList.filterMap pendingId? :=
        List.mem_filterMap.2 ⟨.pending id, hslot, rfl⟩
      rcases hk with ⟨hk, ho⟩
      exact .pending ⟨hk.sameNormals hsame (hawaits _ hget id hid hk.tracked), hsame.exists_type ho⟩

theorem AwaitsNormals.after (hawaits : s.AwaitsNormals resolver c) (hsame : SameNormals s s')
    (hcol : s'.collections.get? c = s.collections.get? c) : s'.AwaitsNormals resolver c :=
  fun col hget id hid htracked =>
    hsame.avoidsSubset (hawaits col (hcol.symm.trans hget) id hid htracked)

theorem awaitedIds_of_resolved {col : Collection} {origin : CollectionId}
    {many : Vector (List ObjectKey) col.type.toMany.length}
    (h : col.origin = some ⟨origin, .resolved many⟩) : awaitedIds col = [] := by
  rw [awaitedIds, h]

theorem awaitsNormals_of_stands {storage : Storage}
    {many : Vector (List ObjectKey) t.toMany.length}
    (hstands : s.Stands c t number storage (some ⟨origin, .resolved many⟩)) :
    s.AwaitsNormals resolver c := by
  intro col hget id hid
  rcases hstands with ⟨config, generation, prepared, hcol⟩
  cases hget.symm.trans hcol
  rw [awaitedIds_of_resolved rfl] at hid
  cases hid

/-- No resolution makes an address wait. -/
theorem AwaitsNormals.setReferences (h : WellFormed s) (hawaits : s.AwaitsNormals resolver d)
    (hrun : Store.setReferences resolver c s = (.ok (), s')) : s'.AwaitsNormals resolver d := by
  rcases (setReferences_eq_ok_iff h).1 hrun with ⟨update, hrelinks, rfl⟩
  by_cases hd : d = c
  · subst hd
    cases hrelinks with
    | settled => exact hawaits
    | owned hstands _ => exact awaitsNormals_of_stands (stands_withLinks hstands)
    | subset hstands _ => exact awaitsNormals_of_stands (stands_withPlaces hstands)
  · exact hawaits.after (hrelinks.sameNormals h) (hrelinks.get?_of_ne h hd)

/-! ## Any order -/

/-- Two resolutions can be exchanged. -/
theorem setReferences_swap (h : WellFormed s) (hc : s.AwaitsNormals resolver c)
    (hd : s.AwaitsNormals resolver d) (hfirst : setReferences resolver c s = (.ok (), s₁))
    (hsecond : setReferences resolver d s₁ = (.ok (), s₂)) :
    ∃ s₁', setReferences resolver d s = (.ok (), s₁') ∧
      setReferences resolver c s₁' = (.ok (), s₂) := by
  by_cases hne : c = d
  · subst hne
    exact ⟨s₁, hfirst, hsecond⟩
  have hwell₁ := wellFormed_setReferences h hfirst
  have hd₁ := hd.setReferences h hfirst
  rcases (setReferences_eq_ok_iff h).1 hfirst with ⟨update, hrelinks, rfl⟩
  rcases (setReferences_eq_ok_iff hwell₁).1 hsecond with ⟨update', hrelinks', rfl⟩
  -- the second update can be made first
  have hsame := hrelinks.sameNormals h
  have hget := hrelinks.get?_of_ne h (Ne.symm hne)
  have hearly := hrelinks'.after hd₁ hsame.symm hget.symm
  have hrun' := (setReferences_eq_ok_iff h).2 ⟨update', hearly, rfl⟩
  -- and then the first one is still what resolves its collection
  have hlate := hrelinks.after hc (hearly.sameNormals h) (hearly.get?_of_ne h hne)
  refine ⟨update' s, hrun', ?_⟩
  refine (setReferences_eq_ok_iff (wellFormed_setReferences h hrun')).2 ⟨update, hlate, ?_⟩
  rcases hrelinks.isLocal h with ⟨keys, hlocal, hkeys⟩
  rcases hearly.isLocal h with ⟨keys', hlocal', hkeys'⟩
  refine hlocal.comm hlocal' hne ?_ s
  intro k hk hk'
  rcases hkeys k hk with ⟨o, i, ho, howned⟩
  rcases hkeys' k hk' with ⟨o', j, ho', howned'⟩
  cases ho.symm.trans ho'
  cases howned.symm.trans howned'
  exact hne rfl

theorem forEach_setReferences_of_perm {cs cs' : List CollectionKey} (hperm : cs.Perm cs')
    (h : WellFormed s) (hawaits : ∀ c ∈ cs, s.AwaitsNormals resolver c)
    (hrun : forEach (setReferences resolver) cs s = (.ok (), s')) :
    forEach (setReferences resolver) cs' s = (.ok (), s') := by
  -- on the permutation: its swaps are those of two resolutions
  induction hperm generalizing s with
  | nil => exact hrun
  | @cons c cs cs' _ ih =>
    rcases bind_eq_ok hrun with ⟨⟨⟩, s₁, hfirst, hrest⟩
    refine (bind_apply_of_ok hfirst).trans (ih (wellFormed_setReferences h hfirst) ?_ hrest)
    intro d hd
    exact (hawaits d (List.mem_cons_of_mem c hd)).setReferences h hfirst
  | swap c d cs =>
    rcases bind_eq_ok hrun with ⟨⟨⟩, s₁, hfirst, hrest⟩
    rcases bind_eq_ok hrest with ⟨⟨⟩, s₂, hsecond, hrest⟩
    have hd := hawaits d List.mem_cons_self
    have hc := hawaits c (List.mem_cons_of_mem d List.mem_cons_self)
    rcases setReferences_swap h hd hc hfirst hsecond with ⟨s₁', hfirst', hsecond'⟩
    exact (bind_apply_of_ok hfirst').trans ((bind_apply_of_ok hsecond').trans hrest)
  | trans hperm _ ih ih' =>
    exact ih' h (fun c hc => hawaits c (hperm.mem_iff.2 hc)) (ih h hawaits hrun)

/-- Collections can be resolved in any order. -/
theorem forEach_setReferences_perm {cs cs' : List CollectionKey} (hperm : cs.Perm cs')
    (h : WellFormed s) (hawaits : ∀ c ∈ cs, s.AwaitsNormals resolver c) :
    forEach (setReferences resolver) cs s = (.ok (), s') ↔
      forEach (setReferences resolver) cs' s = (.ok (), s') :=
  ⟨forEach_setReferences_of_perm hperm h hawaits,
    forEach_setReferences_of_perm hperm.symm h fun c hc => hawaits c (hperm.mem_iff.2 hc)⟩

end Store

end EventModel
