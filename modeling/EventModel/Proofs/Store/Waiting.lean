import EventModel.Proofs.Store.Filled
import EventModel.Proofs.Store.ResolutionOrder
import EventModel.Proofs.Store.Singles
import EventModel.Proofs.Store.Temporaries

/-!
# Collections that wait for resolution

From the moment in which it is rebuilt, a collection waits until it is resolved, emptied or discarded,
and then it never waits again. As long as it waits it can only grow: the columns that it was rebuilt
with, its objects and their windows stay (`Lasts`), because a to-many relation that cannot be read
cannot be changed either.
-/

namespace EventModel

/-- The storage holds all of another one, and perhaps more objects or links at its end. -/
inductive Storage.Grows (storage storage' : Storage) : Prop
  | owned {objects : List ObjectKey} (added : List ObjectKey)
      (h : storage = .owned objects.toArray) (h' : storage' = .owned (objects ++ added).toArray)
  | subset {slots : List Slot} (added : List ObjectKey) (h : storage = .subset slots.toArray)
      (h' : storage' = .subset (slots ++ added.map Slot.linked).toArray)

namespace Storage.Grows

theorem refl (storage : Storage) : storage.Grows storage := by
  rcases storage with ⟨⟨objects⟩⟩ | ⟨⟨slots⟩⟩
  · exact .owned [] rfl (by rw [List.append_nil])
  · exact .subset [] rfl (by rw [List.map_nil, List.append_nil])

theorem trans {storage storage' storage'' : Storage} (h : storage.Grows storage')
    (h' : storage'.Grows storage'') : storage.Grows storage'' := by
  rcases h with ⟨added, hold, hmid⟩ | ⟨added, hold, hmid⟩
  · rcases h' with ⟨more, hmid', hnew⟩ | ⟨more, hmid', -⟩
    · cases hmid.symm.trans hmid'
      exact .owned (added ++ more) hold (by rw [hnew, List.append_assoc])
    · cases hmid.symm.trans hmid'
  · rcases h' with ⟨more, hmid', -⟩ | ⟨more, hmid', hnew⟩
    · cases hmid.symm.trans hmid'
    · cases hmid.symm.trans hmid'
      exact .subset (added ++ more) hold (by rw [hnew, List.map_append, List.append_assoc])

theorem push_owned {objects : Array ObjectKey} (k : ObjectKey) :
    (Storage.owned objects).Grows (.owned (objects.push k)) := by
  rcases objects with ⟨objects⟩
  exact .owned [k] rfl (by rw [List.push_toArray])

theorem push_subset {slots : Array Slot} (k : ObjectKey) :
    (Storage.subset slots).Grows (.subset (slots.push (.linked k))) := by
  rcases slots with ⟨slots⟩
  exact .subset [k] rfl (by rw [List.push_toArray, List.map_singleton])

end Storage.Grows

namespace Store

variable {s s' s'' : Store} {c d : CollectionKey} {k : ObjectKey} {t : DataType} {i : Nat}
  {number : CollectionId} {kind : ChangeKind}

/-- The collection exists and waits for resolution. -/
def IsWaiting (s : Store) (c : CollectionKey) : Prop :=
  ∃ col, s.collections.get? c = some col ∧ col.isUnresolved = true

instance (s : Store) (c : CollectionKey) : Decidable (s.IsWaiting c) :=
  decidable_of_iff ((s.collections.get? c).any (·.isUnresolved) = true) <| by
    rw [Option.any_eq_true]
    rfl

/-- The object stands at a position of the collection and has these windows. -/
def HasWindows (s : Store) (c : CollectionKey) (i : Nat) (k : ObjectKey)
    (windows : Vector Window t.toMany.length) : Prop :=
  ∃ body : Body t, s.objects.get? k = some ⟨t, .owned c i, body⟩ ∧ body.toMany = .windows windows

/-- The collection keeps its columns, its objects or places and their windows. -/
structure Lasts (s s' : Store) (c : CollectionKey) : Prop where
  stands : ∀ {t : DataType} {number : CollectionId} {storage : Storage} {origin : Option (Origin t)},
    s.Stands c t number storage origin → ∃ number' storage',
      s'.Stands c t number' storage' origin ∧ storage.Grows storage'
  windows : ∀ {t : DataType} (i : Nat) (k : ObjectKey) (windows : Vector Window t.toMany.length),
    s'.HasWindows c i k windows ↔ s.HasWindows c i k windows

namespace Lasts

theorem refl (s : Store) (c : CollectionKey) : Lasts s s c :=
  ⟨fun hstands => ⟨_, _, hstands, .refl _⟩, fun _ _ _ => Iff.rfl⟩

theorem trans (h : Lasts s s' c) (h' : Lasts s' s'' c) : Lasts s s'' c where
  stands hstands := by
    rcases h.stands hstands with ⟨number', storage', hstands', hgrows⟩
    rcases h'.stands hstands' with ⟨number'', storage'', hstands'', hgrows'⟩
    exact ⟨number'', storage'', hstands'', hgrows.trans hgrows'⟩
  windows i k windows := (h'.windows i k windows).trans (h.windows i k windows)

/-- What waits after it lasted has waited before. -/
theorem isWaiting (h : Lasts s s' c) {col : Collection} (hcol : s.collections.get? c = some col)
    (hwaits : s'.IsWaiting c) : s.IsWaiting c := by
  rcases h.stands (stands_of_get? hcol) with ⟨number', storage', hstands', -⟩
  rcases hstands' with ⟨config, generation, prepared, hcol'⟩
  rcases hwaits with ⟨col', hcol'', hunresolved⟩
  cases hcol'.symm.trans hcol''
  rcases exists_stored_of_isUnresolved hunresolved with ⟨origin, toMany, toOne, horigin⟩
  exact ⟨col, hcol, isUnresolved_of_stored horigin⟩

end Lasts

/-! ## Changes that concern a collection or not -/

theorem HasWindows.of_get? {windows : Vector Window t.toMany.length}
    (h : s.HasWindows c i k windows)
    (hkept : ∀ o, s.objects.get? k = some o → o.tracking = .owned c i →
      s'.objects.get? k = some o) : s'.HasWindows c i k windows := by
  rcases h with ⟨body, ho, hwindows⟩
  exact ⟨body, hkept _ ho rfl, hwindows⟩

theorem lasts_of_quiet (q : Quiet s s') : Lasts s s' c where
  stands := by
    rintro t number storage origin ⟨config, generation, prepared, hcol⟩
    rcases q.symm.collection hcol with ⟨col', hcol', -⟩
    rcases q.collection hcol' with ⟨col, hcol'', heq⟩
    cases hcol.symm.trans hcol''
    refine ⟨col'.id, storage, ⟨config, col'.generation, col'.prepared, ?_⟩, .refl storage⟩
    exact hcol'.trans (congrArg some heq)
  windows i k windows := by
    constructor
    · intro h
      exact h.of_get? fun o ho howned => q.symm.object_of_not_floating ho (by simp [howned])
    · intro h
      exact h.of_get? fun o ho howned => q.object_of_not_floating ho (by simp [howned])

/-- A change of other collections and of objects that the collection does not own. -/
theorem lasts_of_other (hcol : s'.collections.get? c = s.collections.get? c)
    (hobjects : ∀ k, s'.objects.get? k = s.objects.get? k ∨
      s.ownerOf? k ≠ some c ∧ s'.ownerOf? k ≠ some c) : Lasts s s' c where
  stands := by
    rintro t number storage origin ⟨config, generation, prepared, hget⟩
    exact ⟨number, storage, ⟨config, generation, prepared, hcol.trans hget⟩, .refl storage⟩
  windows i k windows := by
    rcases hobjects k with hsame | ⟨hold, hnew⟩
    · exact ⟨fun h => h.of_get? fun o ho _ => hsame.symm.trans ho,
        fun h => h.of_get? fun o ho _ => hsame.trans ho⟩
    · constructor
      · rintro ⟨body, ho, -⟩
        exact absurd (ownerOf?_of_tracking ho rfl) hnew
      · rintro ⟨body, ho, -⟩
        exact absurd (ownerOf?_of_tracking ho rfl) hold

/-- A body is replaced, and if the collection owns the object the windows are the same. -/
theorem lasts_setBody {target : ObjectKey} {old new : Body t} (hold : s.body t target = .ok old)
    (hsame : s.ownerOf? target = some c → ∀ windows,
      new.toMany = .windows windows ↔ old.toMany = .windows windows) :
    Lasts s (s.setBody target new) c where
  stands hstands := ⟨_, _, hstands, .refl _⟩
  windows i k windows := by
    rcases body_eq_ok_iff.1 hold with ⟨tracking, ho, -⟩
    by_cases hk : target = k
    · subst hk
      have ho' := setBody_get?_self ho new
      constructor
      · rintro ⟨body, hbody, hwindows⟩
        cases ho'.symm.trans hbody
        exact ⟨old, ho, (hsame (ownerOf?_of_tracking ho rfl) windows).1 hwindows⟩
      · rintro ⟨body, hbody, hwindows⟩
        cases ho.symm.trans hbody
        exact ⟨new, ho', (hsame (ownerOf?_of_tracking ho rfl) windows).2 hwindows⟩
    · have hkept := setBody_get?_ne (s := s) hk new
      exact ⟨fun h => h.of_get? fun o ho _ => hkept.symm.trans ho,
        fun h => h.of_get? fun o ho _ => hkept.trans ho⟩

/-- What is written for the object is not what the collection keeps of it. -/
theorem lasts_setPlace {target : ObjectKey} {body : Body t} (hbody : s.body t target = .ok body)
    (r : Fin t.toOne.length) (place : Option ObjectKey) :
    Lasts s ((s.advanceOwner target).setBody target
      { body with toOne := setAt body.toOne r place }) c :=
  (lasts_of_quiet (quiet_advanceOwner s target)).trans
    (lasts_setBody (body_advanceOwner hbody) fun _ _ => Iff.rfl)

/-- The to-many relations of a rebuilt object cannot be read as long as its collection waits. -/
theorem links_of_stored {storage : Storage} {origin : CollectionId}
    {toMany : Vector (List ObjectId) t.toMany.length}
    {toOne : Vector (List ObjectId) t.toOne.length} {body : Body t}
    {windows : Vector Window t.toMany.length}
    (hstands : s.Stands c t number storage (some ⟨origin, .stored toMany toOne⟩))
    (ho : s.objects.get? k = some ⟨t, .owned c i, body⟩) (hwindows : body.toMany = .windows windows)
    (r : Fin t.toMany.length) :
    s.links k body r = .error (.unresolvedReferences t.name origin) := by
  rw [links, hwindows]
  dsimp only
  rw [hstands.originOf ho]
  rfl

/-- The owner of an object has its type, and stands with a storage that lists it. -/
theorem stands_of_ownerOf? (h : WellFormed s) (howner : s.ownerOf? k = some c) {tracking : Tracking}
    {body : Body t} (ho : s.objects.get? k = some ⟨t, tracking, body⟩) :
    ∃ i number storage origin, s.Stands c t number storage origin ∧ tracking = .owned c i := by
  rw [ownerOf?, ho, Option.bind_some] at howner
  rcases owner?_eq_some_iff.1 howner with ⟨i, howned⟩
  rcases h.owner k _ c i ho howned with ⟨col, objects, hcol, hstorage, hi⟩
  rcases h.listed c col objects i k hcol hstorage hi with ⟨o, ho', htype, -⟩
  cases ho.symm.trans ho'
  cases htype
  exact ⟨i, col.id, col.storage, col.origin, stands_of_get? hcol, howned⟩

theorem Stands.stored_of_isWaiting {storage : Storage} {origin : Option (Origin t)}
    (hstands : s.Stands c t number storage origin) (hwaits : s.IsWaiting c) :
    ∃ id toMany toOne, origin = some ⟨id, .stored toMany toOne⟩ := by
  rcases hstands with ⟨config, generation, prepared, hcol⟩
  rcases hwaits with ⟨col, hcol', hunresolved⟩
  cases hcol.symm.trans hcol'
  exact exists_stored_of_isUnresolved hunresolved

/-- An edit of an object leaves the windows of a waiting collection: the relations that a new body
replaces could be read. -/
theorem lasts_edit (h : WellFormed s) (hwaits : s.IsWaiting c) {target : ObjectKey}
    {old new : Body t} (hold : s.body t target = .ok old)
    (hwindows : ∀ windows, new.toMany = .windows windows → old.toMany = .windows windows)
    (hrelations : new.toMany = old.toMany ∨
      ∃ (r : Fin t.toMany.length) (ks : List ObjectKey), s.links target old r = .ok ks) :
    Lasts s ((s.advanceOwner target).setBody target new) c := by
  refine (lasts_of_quiet (quiet_advanceOwner s target)).trans
    (lasts_setBody (body_advanceOwner hold) ?_)
  intro howner windows
  rw [ownerOf?, advanceOwner_objects] at howner
  refine ⟨hwindows windows, fun hold' => ?_⟩
  rcases hrelations with hsame | ⟨r, ks, hlinks⟩
  · rw [hsame, hold']
  -- a list of links would have replaced the windows, but it cannot have been read
  · rcases body_eq_ok_iff.1 hold with ⟨tracking, ho, -⟩
    rcases stands_of_ownerOf? h howner ho with ⟨i, number, storage, origin, hstands, rfl⟩
    rcases hstands.stored_of_isWaiting hwaits with ⟨id, toMany, toOne, rfl⟩
    have hrefused := links_of_stored hstands ho hold' r
    cases hlinks.symm.trans hrefused

/-! ## Objects and places that are added -/

section Added

variable {col : Collection} {target : ObjectKey} {o : Object}

theorem lasts_withNewObject (t : DataType) (payload : t.payload.Value) :
    Lasts s (s.withNewObject t payload) c := by
  have hmade : Lasts s { s with objects := s.objects.insert ⟨t, .floating 0, .ofPayload payload⟩ }
      c := by
    refine lasts_of_other rfl ?_
    intro k
    by_cases hk : k = s.objects.next
    · subst hk
      refine .inr ⟨?_, ?_⟩
      · rw [ownerOf?, Arena.get?_eq_none_of_next_le (Nat.le_refl _)]
        rintro ⟨⟩
      · rw [ownerOf?, Arena.get?_insert_next]
        rintro ⟨⟩
    · exact .inl ((Arena.get?_insert ..).trans (if_neg hk))
  exact hmade.trans (lasts_of_quiet (quiet_withHandle _ _))

theorem lasts_withFounded (bodies : List (Body col.type)) (hc : c < s.collections.next) :
    Lasts s (s.withFounded col bodies) c := by
  refine lasts_of_other ?_ ?_
  · rw [withFounded_collections, Arena.get?_insert, if_neg (Nat.ne_of_lt hc)]
  · intro k
    rcases ho : s.objects.get? k with _ | o
    · refine .inr ⟨by simp [ownerOf?, ho], ?_⟩
      rcases ho' : (s.withFounded col bodies).objects.get? k with _ | o'
      · rw [ownerOf?, ho']
        rintro ⟨⟩
      · rcases addOwned_get?_eq_some ho' with hold | ⟨i, hi, -, rfl⟩
        · cases ho.symm.trans hold
        · rw [ownerOf?_of_tracking ho' rfl]
          exact fun heq => Nat.ne_of_gt hc (Option.some.inj heq)
    · exact .inl (withFounded_get?_of_get? ho)

/-- A collection that takes up an object gets no windows with it. -/
theorem lasts_withAdopted (h : WellFormed s) {n : UInt32}
    (hcol : s.collections.get? d = some col) (hnormal : col.isSubset = false)
    (ho : s.objects.get? target = some o) (hfloating : o.tracking = .floating n) :
    Lasts s (s.withAdopted d col.size target) c where
  stands := by
    rintro t number storage origin ⟨config, generation, prepared, hget⟩
    by_cases hd : c = d
    · cases hd
      cases hcol.symm.trans hget
      rcases storage_of_normal hnormal with ⟨objects, rfl : storage = .owned objects⟩
      have hcol' := withAdopted_collections_self hcol (Storage.owned objects).size target
      rw [appendOwned_of_owned rfl] at hcol'
      exact ⟨number, _, ⟨config, generation + 1, none, hcol'⟩, .push_owned target⟩
    · refine ⟨number, storage, ⟨config, generation, prepared, ?_⟩, .refl storage⟩
      rw [withAdopted_collections_ne hd, hget]
  windows i k windows := by
    by_cases hk : k = target
    · subst hk
      have ho' := withAdopted_get?_self ho d col.size
      constructor
      · rintro ⟨body, hbody, hwindows⟩
        cases ho'.symm.trans hbody
        -- windows are of objects that were rebuilt, never of floating ones
        rcases h.windows k _ windows ho hwindows with hreleased | ⟨e, j, -, -, howned, -⟩
        · cases hfloating.symm.trans hreleased
        · cases hfloating.symm.trans howned
      · rintro ⟨body, hbody, -⟩
        cases ho.symm.trans hbody
        cases hfloating
    · have hkept := withAdopted_get?_ne (s := s) hk d col.size
      exact ⟨fun h => h.of_get? fun o ho _ => hkept.symm.trans ho,
        fun h => h.of_get? fun o ho _ => hkept.trans ho⟩

theorem lasts_enlist (hcol : s.collections.get? d = some col) (hsubset : col.isSubset = true)
    (target : ObjectKey) :
    Lasts s (s.modifyCollection d (appendSlot · (.linked target))) c where
  stands := by
    rintro t number storage origin ⟨config, generation, prepared, hget⟩
    by_cases hd : d = c
    · cases hd
      cases hcol.symm.trans hget
      rcases storage_of_isSubset hsubset with ⟨slots, rfl : storage = .subset slots⟩
      refine ⟨number, _, ⟨config, generation + 1, none, ?_⟩, .push_subset target⟩
      rw [modifyCollection_collections, Arena.get?_modify_self hcol, appendSlot_of_subset rfl]
      rfl
    · refine ⟨number, storage, ⟨config, generation, prepared, ?_⟩, .refl storage⟩
      rw [modifyCollection_collections, Arena.get?_modify_ne hd, hget]
  windows _ _ _ := Iff.rfl

end Added

/-! ## Objects and links of another collection -/

theorem ownerOf?_eq_some_iff : s.ownerOf? k = some c ↔ ∃ i, s.tracking? k = some (.owned c i) := by
  rw [ownerOf?, Option.bind_eq_some_iff]
  constructor
  · rintro ⟨o, ho, howner⟩
    rcases owner?_eq_some_iff.1 howner with ⟨i, howned⟩
    exact ⟨i, tracking?_eq_some_iff.2 ⟨o, ho, howned⟩⟩
  · rintro ⟨i, htracking⟩
    rcases tracking?_eq_some_iff.1 htracking with ⟨o, ho, howned⟩
    exact ⟨o, ho, owner?_of_tracking howned⟩

section Other

variable {col : Collection}

theorem ownerOf?_of_mem_objects (h : WellFormed s) (hcol : s.collections.get? d = some col)
    (hmem : k ∈ col.storage.objects) : s.ownerOf? k = some d := by
  rcases exists_getElem?_of_mem_objects hmem with ⟨objects, i, hstorage, hi⟩
  rcases h.listed d col objects i k hcol hstorage hi with ⟨o, ho, -, howned⟩
  exact ownerOf?_of_tracking ho howned

theorem lasts_withReset (h : WellFormed s) (hcol : s.collections.get? d = some col) (subset : Bool)
    (hc : c ≠ d) : Lasts s (s.withReset d col subset) c := by
  refine lasts_of_other (withReset_collections_ne hc col subset) ?_
  intro k
  have hget := s.withReset_get? d col subset k
  by_cases hmem : k ∈ col.storage.objects
  · rw [if_pos hmem] at hget
    refine .inr ⟨?_, ?_⟩
    · rw [ownerOf?_of_mem_objects h hcol hmem]
      exact fun heq => hc (Option.some.inj heq).symm
    · rw [ownerOf?, hget]
      rcases s.objects.get? k with _ | o
      · rintro ⟨⟩
      · rintro ⟨⟩
  · rw [if_neg hmem] at hget
    exact .inl hget

theorem lasts_assignAllSingles (h : WellFormed s) {objects : Array ObjectKey}
    (hcol : s.collections.get? d = some col) (hstorage : col.storage = .owned objects)
    (one : Vector (List (Option ObjectKey)) col.type.toOne.length) (g : Collection → Collection)
    (hc : c ≠ d) :
    Lasts s ((assignAllSingles one 0 objects.toList s).modifyCollection d g) c := by
  refine lasts_of_other ?_ ?_
  · rw [modifyCollection_collections, Arena.get?_modify_ne hc.symm, assignAllSingles_collections]
  · intro k
    by_cases hmem : k ∈ objects.toList
    · have hlisted : k ∈ col.storage.objects := by rwa [hstorage]
      have hne : s.ownerOf? k ≠ some c := by
        rw [ownerOf?_of_mem_objects h hcol hlisted]
        exact fun heq => hc (Option.some.inj heq).symm
      refine .inr ⟨hne, fun howner => hne ?_⟩
      rcases ownerOf?_eq_some_iff.1 howner with ⟨i, htracking⟩
      exact ownerOf?_eq_some_iff.2
        ⟨i, (tracking?_assignAllSingles one 0 objects.toList k).symm.trans htracking⟩
    · exact .inl (assignAllSingles_get?_of_not_mem hmem)

end Other

/-! ## Every change -/

theorem not_isWaiting {col : Collection} (hcol : s.collections.get? c = some col)
    (hresolved : col.isUnresolved = false) : ¬ s.IsWaiting c := by
  rintro ⟨col', hcol', hunresolved⟩
  cases hcol.symm.trans hcol'
  cases hresolved.symm.trans hunresolved

/-- What waits after a change has lasted through it. -/
theorem Change.lasts (h : WellFormed s) (hc : c < s.collections.next) (hwaits : s'.IsWaiting c)
    (change : Change s kind s') : Lasts s s' c := by
  cases change
  case hold target _ => exact lasts_of_quiet (quiet_withHandle s target)
  case unlink r target _ => exact lasts_of_quiet (quiet_withoutTarget s r.key target)
  case forget => exact lasts_of_quiet (quiet_of_eq rfl rfl)
  case newObject t payload => exact lasts_withNewObject t payload
  case access target => exact lasts_of_quiet (quiet_advanceOwner s target)
  case edit t target old new hold _ hwindows _ hrelations =>
    -- an access makes nothing wait
    refine lasts_edit h ?_ hold hwindows hrelations
    rcases hwaits with ⟨col', hcol', hunresolved⟩
    rw [setBody_collections] at hcol'
    rcases (quiet_advanceOwner s target).collection hcol' with ⟨col, hcol, -⟩
    exact Lasts.isWaiting (lasts_of_quiet (quiet_advanceOwner s target)) hcol
      ⟨col', hcol', hunresolved⟩
  case setPlace target body r place hbody _ => exact lasts_setPlace hbody r place
  case found bodies _ _ _ => exact lasts_withFounded bodies hc
  case adopt hcol hnormal ho _ hfloating _ => exact lasts_withAdopted h hcol hnormal ho hfloating
  case enlist d target col _ _ _ _ hcol hsubset _ _ _ => exact lasts_enlist hcol hsubset target
  -- what is emptied, discarded or resolved no longer waits
  case reset d col subset _ hcol =>
    by_cases hd : c = d
    · subst hd
      exact absurd hwaits (not_isWaiting (withReset_collections_self hcol subset) rfl)
    · exact lasts_withReset h hcol subset hd
  case remove d col _ hcol hempty =>
    rcases hwaits with ⟨col', hcol', -⟩
    have hkept := Arena.get?_erase_eq_some hcol'
    exact lasts_of_other (hcol'.trans hkept.2.symm) fun _ => .inl rfl
  case renumber d id _ =>
    exact lasts_of_quiet (quiet_modifyCollection s s.serial d _ fun _ => rfl)
  case resolveSubset d col origin slots linked hcol hstorage _ _ _ =>
    by_cases hd : c = d
    · subst hd
      refine absurd hwaits (not_isWaiting (Arena.get?_modify_self hcol _) ?_)
      rw [withColumns_self]
      rfl
    · exact lasts_of_other (Arena.get?_modify_ne (Ne.symm hd) _) fun _ => .inl rfl
  case resolveOwned d col objects id _ _ many one hcol hstorage _ _ _ _ _ =>
    by_cases hd : c = d
    · subst hd
      have hlinked := @withLinks_collections_get? s c col one id many objects.toList hcol
      refine absurd hwaits (not_isWaiting hlinked ?_)
      rw [withColumns_self]
      rfl
    · exact lasts_assignAllSingles h hcol hstorage one _ hd
  case keep d col buffers _ _ =>
    exact lasts_of_quiet (quiet_modifyCollection s (s.serial + 1) d _ fun _ => rfl)
  case unkeep d => exact lasts_of_quiet (quiet_modifyCollection s s.serial d _ fun _ => rfl)
  case newFrame => exact lasts_of_quiet (quiet_of_eq rfl rfl)
  case adoptIds => exact lasts_of_quiet (quiet_of_eq rfl rfl)
  case setParameters => exact lasts_of_quiet (quiet_of_eq rfl rfl)
  case putSlot => exact lasts_of_quiet (quiet_of_eq rfl rfl)
  case takeSlot => exact lasts_of_quiet (quiet_of_eq rfl rfl)
  case eraseFrame => exact lasts_of_quiet (quiet_of_eq rfl rfl)

/-! ## Runs -/

/-- The collection is known, and if it waits now it has waited and lasted since. -/
structure HasWaited (s s' : Store) (c : CollectionKey) : Prop where
  known : c < s'.collections.next
  lasts : s'.IsWaiting c → s.IsWaiting c ∧ Lasts s s' c

theorem HasWaited.refl (hc : c < s.collections.next) : HasWaited s s c :=
  ⟨hc, fun hwaits => ⟨hwaits, .refl s c⟩⟩

theorem HasWaited.trans (h : HasWaited s s' c) (h' : HasWaited s' s'' c) : HasWaited s s'' c where
  known := h'.known
  lasts hwaits := by
    rcases h'.lasts hwaits with ⟨hmid, hlasts'⟩
    rcases h.lasts hmid with ⟨hold, hlasts⟩
    exact ⟨hold, hlasts.trans hlasts'⟩

theorem Change.hasWaited (h : WellFormed s) (hc : c < s.collections.next)
    (change : Change s kind s') : HasWaited s s' c where
  known := Nat.lt_of_lt_of_le hc (change.advances h).next
  lasts hwaits := by
    have hlasts := change.lasts h hc hwaits
    rcases hwaits with ⟨col', hcol', hunresolved⟩
    rcases (change.advances h).steady c col' hcol' hc with ⟨col, hcol, -⟩
    exact ⟨hlasts.isWaiting hcol ⟨col', hcol', hunresolved⟩, hlasts⟩

theorem Changes.hasWaited (h : WellFormed s) (hc : c < s.collections.next)
    (changes : Changes kind s s') : HasWaited s s' c := by
  induction changes with
  | refl => exact .refl hc
  | tail earlier change ih =>
    exact ih.trans (change.hasWaited (Changes.wellFormed h earlier) ih.known)

theorem Step.hasWaited (h : WellFormed s) (hc : c < s.collections.next) (step : Step s s') :
    HasWaited s s' c := by
  rcases step.changes h with ⟨kind, hchanges⟩
  exact hchanges.hasWaited h hc

theorem Steps.wellFormed (h : WellFormed s) (steps : Steps s s') : WellFormed s' := by
  induction steps with
  | refl => exact h
  | tail _ step ih => exact step.wellFormed ih

/-- A collection that is known either waits and lasts or never waits again. -/
theorem Steps.hasWaited (h : WellFormed s) (hc : c < s.collections.next) (steps : Steps s s') :
    HasWaited s s' c := by
  induction steps with
  | refl => exact .refl hc
  | tail earlier step ih =>
    exact ih.trans (step.hasWaited (Steps.wellFormed h earlier) ih.known)

/-- What a rebuild leaves stays as long as the collection waits. -/
theorem lasts_of_rebuild {b : Buffers} {config : Config} (h : Reachable s)
    (hrebuild : rebuild t b number config s = (.ok c, s')) (steps : Steps s' s'')
    (hwaits : s''.IsWaiting c) : Reachable s' ∧ Lasts s' s'' c := by
  have hreachable : Reachable s' := by
    have hstep : Step s (rebuild t b number config s).2 := .rebuild t b number config
    rw [hrebuild] at hstep
    exact h.step hstep
  refine ⟨hreachable, ?_⟩
  rcases exists_pends_of_rebuild hrebuild with ⟨stored, -, hpends⟩
  rcases hpends.exists_collection with ⟨col, hcol, -⟩
  exact ((Steps.hasWaited hreachable.wellFormed (Arena.lt_next_of_get? hcol) steps).lasts hwaits).2

/-- Resolution does nothing from the moment on in which the collection no longer waits. -/
theorem setReferences_of_not_isWaiting (h : WellFormed s) (hc : c < s.collections.next)
    (hnot : ¬ s.IsWaiting c) (steps : Steps s s') {col : Collection}
    (hcol : s'.collections.get? c = some col) (resolver : Resolver) :
    setReferences resolver c s' = (.ok (), s') := by
  refine setReferences_of_settled hcol ?_
  rcases hunresolved : col.isUnresolved
  · rfl
  · exact absurd ((Steps.hasWaited h hc steps).lasts ⟨col, hcol, hunresolved⟩).1 hnot

end Store
end EventModel
